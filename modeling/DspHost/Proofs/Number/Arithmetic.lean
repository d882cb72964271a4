import DspHost.Proofs.Number.Rounding

/-!
# Arithmetic of singles

The four operations of the core library, applied to finite singles, give the single that is nearest
to the exact result. A sum is formed exactly in the smaller of the two units and then rounded, a
product has at least as many bits as fit, and a quotient is computed to as many bits as fit with the
rest measured against the divisor; each of them is rounded once. With infinity the operations do not
round: it absorbs finite numbers, but zero times infinity is no number.

## Main definitions

* `Denotes` — the unpacked numbers that finite singles are unpacked to, and their values
* `Single.Unpacks` — what a finite single is unpacked to

## Main results

* `rounds_normalize`, `exists_divCore` — rounding a sum, and computing a quotient
* `Denotes.rounds_add`, `Denotes.rounds_mul`, `Denotes.rounds_div` — unpacked operations
* `Single.unpacks_ofBits` — the core library computes with the value of a single
* `Single.rounds_add`, `Single.rounds_sub`, `Single.rounds_mul`, `Single.rounds_div` — operations on
  finite singles are the exact ones, rounded once
-/

namespace DspHost

open Float.Model (UnpackedFloat totalExponent)
open Float.Model.Format (binary32)
open Float.Model.UnpackedFloat

/-! ### Signs -/

theorem withSign_mul (s t : Sign) (p q : ℚ) :
    withSign (s * t) (p * q) = withSign s p * withSign t q := by
  cases s <;> cases t
  · exact (neg_mul_neg p q).symm
  · exact (neg_mul p q).symm
  · exact (mul_neg p q).symm
  · rfl

theorem withSign_div (s t : Sign) (p q : ℚ) :
    withSign (s / t) (p / q) = withSign s p / withSign t q := by
  cases s <;> cases t
  · exact (neg_div_neg_eq p q).symm
  · exact (neg_div q p).symm
  · exact (div_neg p).symm
  · rfl

theorem withSign_neg (sign : Sign) (q : ℚ) : withSign (-sign) q = -withSign sign q := by
  cases sign
  · exact (neg_neg q).symm
  · rfl

theorem withSign_mul_right (sign : Sign) (p q : ℚ) :
    withSign sign (p * q) = withSign sign p * q := by
  cases sign
  · exact (neg_mul p q).symm
  · rfl

theorem cast_apply (sign : Sign) (m : ℕ) : (sign.apply m : ℚ) = withSign sign m := by
  cases sign
  · exact Int.cast_neg _
  · rfl

/-! ### Unpacked numbers -/

/-- A finite unpacked number in the form that a single is unpacked to. -/
inductive Denotes : UnpackedFloat → ℚ → Prop
  /-- Zero, of either sign. -/
  | zero (sign : Sign) : Denotes (.zero sign) 0
  /-- A number with all of its bits, or of the smallest unit. -/
  | finite {sign : Sign} {m j : ℕ} {e : ℤ} (pos : 0 < m) (fits : m < 2 ^ 24)
      (low : j = 0 ∨ 2 ^ 23 ≤ m) (unit : e = -149 + j) :
      Denotes (.finite sign m e pos) (withSign sign (m * 2 ^ e))

theorem rounds_packed_zero (sign : Sign) : (Single.packed (.zero sign)).Rounds 0 := by
  rw [packed_zero]
  have h := Single.rounds_signed (q := 0) (isMinus sign) (Format.single.placeOf_zero).symm
  simpa using h

namespace Denotes

variable {u v : UnpackedFloat} {p q : ℚ}

theorem neg (h : Denotes u q) : Denotes u.neg (-q) := by
  cases h with
  | zero sign =>
    rw [neg_zero]
    exact .zero _
  | finite pos fits low unit =>
    rw [← withSign_neg]
    exact .finite pos fits low unit

/-- What needs no rounding is its own rounded value. -/
theorem rounds_packed (h : Denotes u q) : (Single.packed u).Rounds q := by
  cases h with
  | zero sign => exact rounds_packed_zero sign
  | @finite sign m j e pos fits low unit =>
    subst unit
    have hunit : (0 : ℚ) < 2 ^ (-149 + j : ℤ) := by positivity
    have hcount : (m : ℚ) * 2 ^ (-149 + j : ℤ) / 2 ^ (-149 + j : ℤ) = m :=
      mul_div_cancel_right₀ _ hunit.ne'
    have hrounds : Format.single.RoundsTo (m * 2 ^ (-149 + j : ℤ)) j m := by
      apply roundsTo_single
      · exact mul_lt_mul_of_pos_right (by exact_mod_cast fits) hunit
      · exact low.imp_right fun h => mul_le_mul_of_nonneg_right (by exact_mod_cast h) hunit.le
      · rw [hcount]
        exact .inl (by linarith)
      · rw [hcount]
        exact .inl (by linarith)
    rw [packed_finite pos fits low rfl]
    exact Single.rounds_signed _ (hrounds.placeOf_eq (by decide) (by positivity)).symm

end Denotes

/-! ### Rounding any binary number -/

/-- Lowering the exponent keeps the value. -/
theorem decreaseExponent_spec (m : ℕ) (e t : ℤ) :
    ((decreaseExponent m e t).1 : ℚ) * 2 ^ (decreaseExponent m e t).2 = m * 2 ^ e ∧
      (decreaseExponent m e t).2 = min e t := by
  simp only [decreaseExponent]
  constructor
  · rw [Nat.shiftLeft_eq, Nat.cast_mul, Nat.cast_pow, Nat.cast_ofNat, mul_assoc, ← zpow_natCast,
      ← zpow_add₀ two_ne_zero, add_sub_cancel]
  · omega

/-- Any binary number is rounded to the nearest single. -/
theorem rounds_round (sign : Sign) (e : ℤ) {m : ℕ} (hpos : 0 < m) :
    (Single.packed (UnpackedFloat.round binary32 sign m e)).Rounds (withSign sign (m * 2 ^ e)) := by
  have hlog : 2 ^ m.log2 ≤ m := Nat.log2_self_le hpos.ne'
  rw [UnpackedFloat.round, targetExponent_eq]
  generalize ht : max (m.log2 + e - 23) (-149) = t
  obtain ⟨hvalue, hexponent⟩ := decreaseExponent_spec m e t
  have hroom : (decreaseExponent m e t).2 ≤ -149 ∨ 2 ^ 23 ≤ (decreaseExponent m e t).1 := by
    by_cases hleast : t = -149
    · exact .inl (by omega)
    · -- The mantissa has bits enough already, or gets as many zeros as it is short of.
      refine .inr ?_
      rw [decreaseExponent, Nat.shiftLeft_eq]
      calc 2 ^ 23 ≤ 2 ^ (m.log2 + (e - t).toNat) := Nat.pow_le_pow_right two_pos (by omega)
        _ = 2 ^ m.log2 * 2 ^ (e - t).toNat := pow_add _ _ _
        _ ≤ m * 2 ^ (e - t).toNat := Nat.mul_le_mul_right _ hlog
  have h := rounds_roundWithAccuracy sign measures_exact hroom
  rw [add_zero, hvalue] at h
  exact h

/-- A sum of two numbers in one unit is rounded with its own sign. -/
theorem rounds_normalize (m e : ℤ) (zeroSign : Sign) :
    (Single.packed (UnpackedFloat.normalize binary32 m e zeroSign)).Rounds (m * 2 ^ e) := by
  rw [UnpackedFloat.normalize]
  rcases lt_trichotomy m 0 with hneg | rfl | hpos
  · rw [show compare m 0 = .lt from Int.compare_eq_lt.mpr hneg]
    have h := rounds_round .negative e (show 0 < (-m).toNat by omega)
    have hcast : ((-m).toNat : ℚ) = -m := by
      exact_mod_cast Int.toNat_of_nonneg (show 0 ≤ -m by omega)
    rw [hcast] at h
    simpa [withSign, isMinus] using h
  · rw [Int.cast_zero, zero_mul]
    exact rounds_packed_zero zeroSign
  · rw [show compare m 0 = .gt from Int.compare_eq_gt.mpr hpos]
    have h := rounds_round .positive e (show 0 < m.toNat by omega)
    have hcast : (m.toNat : ℚ) = m := by
      exact_mod_cast Int.toNat_of_nonneg hpos.le
    rw [hcast] at h
    exact h

/-- The quotient of two numbers is computed to as many bits as fit, and what is left over is
measured. -/
theorem exists_divCore {m n : ℕ} (hm : 0 < m) (hn : 0 < n) (e e' : ℤ) :
    ∃ quotient exponent accuracy rest,
      divCore binary32 m e n e' = (quotient, exponent, accuracy) ∧ Measures accuracy rest ∧
      (exponent ≤ -149 ∨ 2 ^ 23 ≤ quotient) ∧
      ((quotient : ℚ) + rest) * 2 ^ exponent = m * 2 ^ e / (n * 2 ^ e') := by
  have htarget : binary32.targetExponent (totalExponent m e - totalExponent n e') =
      max (m.log2 + e - (n.log2 + e') - 24) (-149) := by
    have hbits : binary32.mantissaBits = 24 := rfl
    have hleast : binary32.minExponent = -149 := by decide
    rw [Float.Model.Format.targetExponent, totalExponent, totalExponent, hbits, hleast]
    omega
  rw [divCore, htarget]
  generalize ht : min (e - e') (max (m.log2 + e - (n.log2 + e') - 24) (-149)) = t
  obtain ⟨count, hcount⟩ : ∃ count : ℕ, e - e' = t + count :=
    Int.exists_add_of_le (ht ▸ min_le_left _ _)
  have hshift : (e - e' - t).toNat = count := by omega
  simp only [hshift, Nat.shiftLeft_eq]
  refine ⟨_, _, _, _, rfl, measures_accuracyOfFraction (Nat.mod_lt _ hn), ?_, ?_⟩
  · by_cases hleast : t ≤ -149
    · exact .inl hleast
    · refine .inr ((Nat.le_div_iff_mul_le hn).mpr ?_)
      have hnlog : n ≤ 2 ^ (n.log2 + 1) := Nat.lt_log2_self.le
      calc 2 ^ 23 * n ≤ 2 ^ 23 * 2 ^ (n.log2 + 1) := Nat.mul_le_mul_left _ hnlog
        _ = 2 ^ (23 + (n.log2 + 1)) := (pow_add _ _ _).symm
        _ ≤ 2 ^ (m.log2 + count) := Nat.pow_le_pow_right two_pos (by omega)
        _ = 2 ^ m.log2 * 2 ^ count := pow_add _ _ _
        _ ≤ m * 2 ^ count := Nat.mul_le_mul_right _ (Nat.log2_self_le hm.ne')
  · have hnq : (n : ℚ) ≠ 0 := by exact_mod_cast hn.ne'
    have hdivision : ((m * 2 ^ count / n : ℕ) : ℚ) + (m * 2 ^ count % n : ℕ) / n =
        m * 2 ^ count / n := by
      rw [eq_div_iff hnq, add_mul, div_mul_cancel₀ _ hnq, mul_comm]
      exact_mod_cast Nat.div_add_mod _ _
    rw [hdivision]
    have he : e = t + count + e' := by omega
    rw [he, zpow_add₀ two_ne_zero, zpow_add₀ two_ne_zero, zpow_natCast]
    field_simp

/-! ### Operations -/

namespace Denotes

variable {u v : UnpackedFloat} {p q : ℚ}

/-- The exact sum is rounded once. -/
theorem rounds_add (hu : Denotes u p) (hv : Denotes v q) :
    (Single.packed (add binary32 u v)).Rounds (p + q) := by
  cases hu with
  | zero s =>
    cases hv with
    | zero t =>
      rw [add_zero, add]
      split_ifs <;> exact rounds_packed_zero _
    | finite pos fits low unit =>
      rw [zero_add]
      exact (finite pos fits low unit).rounds_packed
  | @finite s m j e pos fits low unit =>
    cases hv with
    | zero t =>
      rw [add_zero]
      exact (finite pos fits low unit).rounds_packed
    | @finite t n k e' pos' fits' low' unit' =>
      obtain ⟨hm, hme⟩ := decreaseExponent_spec m e (min e e')
      obtain ⟨hn, hne⟩ := decreaseExponent_spec n e' (min e e')
      rw [min_eq_right (min_le_left _ _)] at hme
      rw [min_eq_right (min_le_right _ _)] at hne
      rw [hme] at hm
      rw [hne] at hn
      have h := rounds_normalize (s.apply (decreaseExponent m e (min e e')).1 +
        t.apply (decreaseExponent n e' (min e e')).1) (min e e') .positive
      have hsum : withSign s (m * 2 ^ e) + withSign t (n * 2 ^ e') =
          ((s.apply (decreaseExponent m e (min e e')).1 +
            t.apply (decreaseExponent n e' (min e e')).1 : ℤ) : ℚ) * 2 ^ min e e' := by
        rw [← hm, ← hn, Int.cast_add, cast_apply, cast_apply, add_mul, withSign_mul_right,
          withSign_mul_right]
      rw [hsum]
      exact h

/-- Subtracting is adding the number with the other sign. -/
theorem sub_eq_add (u v : UnpackedFloat) : sub binary32 u v = add binary32 u v.neg := by
  have happly (t : Sign) (n : ℤ) : (-t).apply n = -t.apply n := by
    cases t
    · exact (neg_neg n).symm
    · rfl
  cases u <;> cases v <;> simp only [sub, add, UnpackedFloat.neg, happly, sub_eq_add_neg]

/-- The exact difference is rounded once. -/
theorem rounds_sub (hu : Denotes u p) (hv : Denotes v q) :
    (Single.packed (sub binary32 u v)).Rounds (p - q) := by
  rw [sub_eq_add, sub_eq_add_neg]
  exact hu.rounds_add hv.neg

/-- The exact product is rounded once. -/
theorem rounds_mul (hu : Denotes u p) (hv : Denotes v q) :
    (Single.packed (mul binary32 u v)).Rounds (p * q) := by
  cases hu with
  | zero s =>
    rw [zero_mul]
    cases hv <;> exact rounds_packed_zero _
  | @finite s m j e pos fits low unit =>
    cases hv with
    | zero t =>
      rw [mul_zero]
      exact rounds_packed_zero _
    | @finite t n k e' pos' fits' low' unit' =>
      have hroom : e + e' ≤ -149 ∨ 2 ^ 23 ≤ m * n := by
        rcases low with hj | hm
        · rcases low' with hk | hn
          · exact .inl (by omega)
          · exact .inr (hn.trans (Nat.le_mul_of_pos_left n pos))
        · exact .inr (hm.trans (Nat.le_mul_of_pos_right m pos'))
      have h := rounds_roundWithAccuracy (s * t) measures_exact hroom
      have hproduct : ((m * n : ℕ) + 0) * (2 : ℚ) ^ (e + e') = m * 2 ^ e * (n * 2 ^ e') := by
        rw [zpow_add₀ two_ne_zero, Nat.cast_mul]
        ring
      rw [hproduct, withSign_mul] at h
      exact h

/-- The exact quotient is rounded once, if the divisor is not zero. -/
theorem rounds_div (hu : Denotes u p) (hv : Denotes v q) (hq : q ≠ 0) :
    (Single.packed (div binary32 u v)).Rounds (p / q) := by
  cases hv with
  | zero t => exact (hq rfl).elim
  | @finite t n k e' pos' fits' low' unit' =>
    cases hu with
    | zero s =>
      rw [zero_div]
      exact rounds_packed_zero _
    | @finite s m j e pos fits low unit =>
      obtain ⟨quotient, exponent, accuracy, rest, hcore, hmeasures, hroom, hvalue⟩ :=
        exists_divCore pos pos' e e'
      have h := rounds_roundWithAccuracy (s / t) hmeasures hroom
      rw [hvalue, withSign_div] at h
      simp only [div, hcore]
      exact h

end Denotes

/-! ### Unpacking -/

namespace Single

variable {x y : Single}

theorem toNat_toBitVec (x : Single) :
    x.bits.toBitVec.toNat = (if x.isNegative then 2 ^ 31 else 0) + x.magnitude.toNat :=
  x.toNat_bits

theorem toNat_unpackMantissa (x : Single) :
    (@unpackMantissa binary32 x.bits.toBitVec).toNat = x.magnitude.toNat % 2 ^ 23 := by
  have hfield : (@unpackMantissa binary32 x.bits.toBitVec).toNat =
      x.bits.toBitVec.toNat % 2 ^ 23 := by
    simp [unpackMantissa]
  rw [hfield, toNat_toBitVec]
  split <;> omega

theorem toNat_unpackExponent (x : Single) :
    (@unpackExponent binary32 x.bits.toBitVec).toNat = x.magnitude.toNat / 2 ^ 23 := by
  have hfield : (@unpackExponent binary32 x.bits.toBitVec).toNat =
      x.bits.toBitVec.toNat / 2 ^ 23 % 2 ^ 8 := by
    simp [unpackExponent, Nat.shiftRight_eq_div_pow]
  have hlt := x.toNat_magnitude_lt
  rw [hfield, toNat_toBitVec]
  split <;> omega

theorem isMinus_unpackSign (x : Single) :
    isMinus (Sign.ofBitVec (@unpackSign binary32 x.bits.toBitVec)) = x.isNegative := by
  have hfield : (@unpackSign binary32 x.bits.toBitVec).toNat =
      x.bits.toBitVec.toNat / 2 ^ 31 % 2 := by
    simp [unpackSign, Nat.shiftRight_eq_div_pow]
  have hsign : (@unpackSign binary32 x.bits.toBitVec).toNat = if x.isNegative then 1 else 0 := by
    have hlt := x.toNat_magnitude_lt
    rw [hfield, toNat_toBitVec]
    split <;> omega
  rw [Sign.ofBitVec]
  cases hnegative : x.isNegative with
  | false =>
    rw [hnegative] at hsign
    rw [if_pos (BitVec.eq_of_toNat_eq hsign)]
    rfl
  | true =>
    rw [hnegative] at hsign
    rw [if_neg fun hzero => absurd (hsign.symm.trans (congrArg BitVec.toNat hzero)) (by decide)]
    rfl

/-- The exponent field of a finite single is not all ones. -/
theorem unpackExponent_ne (h : x.isFinite = true) :
    @unpackExponent binary32 x.bits.toBitVec ≠ -1#_ := by
  intro hones
  have hall : (-1#8 : BitVec 8).toNat = 255 := by decide
  have hexponent := x.toNat_unpackExponent
  have hfinite : x.magnitude.toNat < 255 * 2 ^ 23 := isFinite_iff.mp h
  rw [hones, hall] at hexponent
  omega

/-- Packing a finite single gives back what was unpacked. -/
theorem packed_unpack (h : x.isFinite = true) : packed (unpack binary32 x.bits.toBitVec) = x := by
  have hnumber : ¬@isNaNBits binary32 x.bits.toBitVec = true := by
    rw [isNaNBits, decide_eq_true_iff]
    exact fun hnan => unpackExponent_ne h hnan.1
  rw [packed, pack_unpack, if_neg hnumber]

/-- What a finite single is unpacked to: its sign, and zero or as many bits as fit. -/
inductive Unpacks (x : Single) : UnpackedFloat → Prop
  /-- All other bits are zero. -/
  | zero {sign : Sign} (minus : isMinus sign = x.isNegative) (pattern : x.magnitude.toNat = 0) :
      Unpacks x (.zero sign)
  /-- The magnitude counts multiples of a unit. -/
  | finite {sign : Sign} {m j : ℕ} {e : ℤ} (pos : 0 < m) (minus : isMinus sign = x.isNegative)
      (fits : m < 2 ^ 24) (low : j = 0 ∨ 2 ^ 23 ≤ m) (unit : e = -149 + j)
      (pattern : x.magnitude.toNat = j * 2 ^ 23 + m) : Unpacks x (.finite sign m e pos)

theorem unpacks (h : x.isFinite = true) : x.Unpacks (unpack binary32 x.bits.toBitVec) := by
  have hmantissa := x.toNat_unpackMantissa
  have hexponent := x.toNat_unpackExponent
  have hminus := x.isMinus_unpackSign
  have hbias : binary32.exponentBias = 127 := by decide
  rw [unpack]
  simp only [if_neg (unpackExponent_ne h)]
  split_ifs with hzero hnull
  · rw [hzero, BitVec.toNat_ofNat, Nat.zero_mod] at hexponent
    rw [hnull, BitVec.toNat_ofNat, Nat.zero_mod] at hmantissa
    exact .zero hminus (by omega)
  · rw [hzero, BitVec.toNat_ofNat, Nat.zero_mod] at hexponent
    refine .finite (j := 0) _ hminus (by omega) (.inl rfl) ?_ (by omega)
    rw [hzero, hbias]
    rfl
  · have hfield : x.magnitude.toNat / 2 ^ 23 ≠ 0 := fun hp =>
      hzero (BitVec.eq_of_toNat_eq (hexponent.trans hp))
    have hm : (1#1 ++ @unpackMantissa binary32 x.bits.toBitVec).toNat =
        2 ^ 23 + x.magnitude.toNat % 2 ^ 23 := by
      rw [toNat_append, hmantissa]
      rfl
    refine .finite (j := x.magnitude.toNat / 2 ^ 23 - 1) _ hminus ?_ (.inr ?_) ?_ ?_
    · omega
    · omega
    · rw [hexponent, hbias]
      omega
    · omega

namespace Unpacks

variable {u : UnpackedFloat}

theorem denotes (h : x.Unpacks u) : Denotes u x.value := by
  cases h with
  | zero minus pattern =>
    have hrank : x.rank = 0 := by simp [rank, pattern]
    have hvalue : x.value = 0 := by
      rw [value, hrank]
      exact Format.single.value_zero
    rw [hvalue]
    exact .zero _
  | @finite sign m j e pos minus fits low unit pattern =>
    have hmagnitude : Format.single.value x.magnitude.toNat = m * 2 ^ e := by
      rw [pattern, unit]
      exact Format.single.value_eq low fits.le
    have hvalue : x.value = withSign sign (m * 2 ^ e) := by
      rw [value, rank, withSign, minus, ← hmagnitude]
      cases x.isNegative
      · rfl
      · exact Format.single.valueAt_neg _
    rw [hvalue]
    exact .finite pos fits low unit

end Unpacks

/-! ### Rounded operations -/

/-- What the core library computes with for a finite single is what the single is unpacked to. -/
theorem unpacks_ofBits (h : x.isFinite = true) :
    x.Unpacks (Float32.Model.ofBits x.bits).unpack := by
  have hbits : (Float32.Model.ofBits x.bits).toBits = x.bits := congrArg bits (packed_unpack h)
  rw [Float32.Model.unpack, hbits]
  exact unpacks h

/-- The single for a result of the core library, which may find an operation invalid. -/
def settled (u : UnpackedFloat) : Single := if (packed u).isNaN then invalid else packed u

theorem settled_notANumber : settled .notANumber = invalid := by decide

theorem settled_infinity : settled (.infinity .positive) = infinity := by decide

/-- An operation on numbers is one of the core library. -/
theorem arithmetic_eq (op : Float32 → Float32 → Float32)
    (core : UnpackedFloat → UnpackedFloat → UnpackedFloat)
    (hop : ∀ a b : Float32.Model,
      (⟨(op (.ofModel a) (.ofModel b)).toBits⟩ : Single) = packed (core a.unpack b.unpack))
    (hx : x.isNaN = false) (hy : y.isNaN = false) :
    arithmetic op x y =
      settled (core (Float32.Model.ofBits x.bits).unpack (Float32.Model.ofBits y.bits).unpack) := by
  rw [settled, ← hop, arithmetic, if_neg (by simp [hx]), if_neg (by simp [hy])]
  rfl

/-- An operation on finite singles is rounded once if the core library does so. -/
theorem rounds_arithmetic {op : Float32 → Float32 → Float32}
    {core : UnpackedFloat → UnpackedFloat → UnpackedFloat} {q : ℚ}
    (hop : ∀ a b : Float32.Model,
      (⟨(op (.ofModel a) (.ofModel b)).toBits⟩ : Single) = packed (core a.unpack b.unpack))
    (hx : x.isFinite = true) (hy : y.isFinite = true)
    (hcore : ∀ {u v}, Denotes u x.value → Denotes v y.value → (packed (core u v)).Rounds q) :
    (arithmetic op x y).Rounds q := by
  have h := hcore (unpacks_ofBits hx).denotes (unpacks_ofBits hy).denotes
  rw [arithmetic_eq op core hop (isNaN_of_isFinite hx) (isNaN_of_isFinite hy), settled,
    if_neg (by simp [h.isNumber])]
  exact h

/-- The sum of finite singles is the exact sum, rounded once. -/
theorem rounds_add (hx : x.isFinite = true) (hy : y.isFinite = true) :
    (x + y).Rounds (x.value + y.value) :=
  rounds_arithmetic (fun _ _ => rfl) hx hy Denotes.rounds_add

/-- The difference of finite singles is the exact difference, rounded once. -/
theorem rounds_sub (hx : x.isFinite = true) (hy : y.isFinite = true) :
    (x - y).Rounds (x.value - y.value) :=
  rounds_arithmetic (fun _ _ => rfl) hx hy Denotes.rounds_sub

/-- The product of finite singles is the exact product, rounded once. -/
theorem rounds_mul (hx : x.isFinite = true) (hy : y.isFinite = true) :
    (x * y).Rounds (x.value * y.value) :=
  rounds_arithmetic (fun _ _ => rfl) hx hy Denotes.rounds_mul

/-- The quotient of finite singles is the exact quotient, rounded once. -/
theorem rounds_div (hx : x.isFinite = true) (hy : y.isFinite = true) (hzero : y.value ≠ 0) :
    (x / y).Rounds (x.value / y.value) :=
  rounds_arithmetic (fun _ _ => rfl) hx hy fun hu hv => hu.rounds_div hv hzero

/-! ### Infinity -/

theorem unpack_infinity : (Float32.Model.ofBits infinity.bits).unpack = .infinity .positive := rfl

/-- What is no number stays none. -/
theorem isNaN_add (h : x.isNaN = true) : (x + y).isNaN = true := by
  have hlarger : x.magnitude.toNat ≤ x.quiet.magnitude.toNat := by
    have hquiet : x.quiet.magnitude.toNat =
        (x.bits.toNat ||| 0x00400000) &&& 0x7fffffff := by
      simp [magnitude, quiet]
    rw [hquiet, Nat.and_or_distrib_right]
    exact Nat.left_le_or
  change (arithmetic (· + ·) x y).isNaN = true
  rw [arithmetic, if_pos h]
  by_contra hnumber
  have hsmall := isNaN_eq_false_iff.mp (Bool.not_eq_true _ ▸ hnumber)
  rw [isNaN_eq_false_iff.mpr (hlarger.trans hsmall)] at h
  cases h

/-- Zero times infinity is no number. -/
theorem isNaN_mul_infinity (hx : x.isFinite = true) (hzero : x.rank = 0) :
    (x * infinity).isNaN = true := by
  have hmul := arithmetic_eq (· * ·) (UnpackedFloat.mul binary32) (fun _ _ => rfl)
    (isNaN_of_isFinite hx) (y := infinity) (by decide)
  have hunpacks := unpacks_ofBits hx
  rw [unpack_infinity] at hmul
  generalize (Float32.Model.ofBits x.bits).unpack = u at hmul hunpacks
  cases hunpacks with
  | zero minus pattern =>
    have hinvalid : x * infinity = invalid := hmul.trans settled_notANumber
    rw [hinvalid]
    decide
  | finite pos minus fits low unit pattern =>
    rw [rank] at hzero
    split at hzero <;> omega

/-- A positive number times infinity is infinite. -/
theorem mul_infinity (hx : x.isFinite = true) (hpos : 0 < x.rank) : x * infinity = infinity := by
  have hmul := arithmetic_eq (· * ·) (UnpackedFloat.mul binary32) (fun _ _ => rfl)
    (isNaN_of_isFinite hx) (y := infinity) (by decide)
  have hunpacks := unpacks_ofBits hx
  rw [unpack_infinity] at hmul
  generalize (Float32.Model.ofBits x.bits).unpack = u at hmul hunpacks
  cases hunpacks with
  | zero minus pattern =>
    rw [rank] at hpos
    split at hpos <;> omega
  | @finite sign m j e pos minus fits low unit pattern =>
    cases sign with
    | negative =>
      rw [rank, ← minus] at hpos
      change 0 < -(x.magnitude.toNat : ℤ) at hpos
      omega
    | positive => exact hmul.trans settled_infinity

/-- A finite number added to infinity is lost. -/
theorem infinity_add (hx : x.isFinite = true) : infinity + x = infinity := by
  have hadd := arithmetic_eq (· + ·) (UnpackedFloat.add binary32) (fun _ _ => rfl)
    (x := infinity) (by decide) (isNaN_of_isFinite hx)
  have hunpacks := unpacks_ofBits hx
  rw [unpack_infinity] at hadd
  generalize (Float32.Model.ofBits x.bits).unpack = u at hadd hunpacks
  cases hunpacks with
  | zero minus pattern => exact hadd.trans settled_infinity
  | finite pos minus fits low unit pattern => exact hadd.trans settled_infinity

end Single

end DspHost
