import DspHost.Proofs.Number.Patterns

/-!
# One rounding of the core library

The core library computes with unpacked numbers. It brings a number to the unit that its result will
have by shifting it to the right, and keeps two bits of what falls off: the first one, and whether
there is anything else. These two bits tell on which side of a half the rest lies, and no shift
makes them lose it, so that the mantissa is rounded as the number itself would be. Rounding may make
one bit more, which is then a power of two and is shifted once again. What is packed in the end is
the single that is nearest to the number.

## Main definitions

* `Measures`, `Keeps` — what an accuracy and an extended mantissa tell about a number
* `Single.packed` — the single that an unpacked number is packed into
* `withSign` — a magnitude with a sign

## Main results

* `Keeps.shiftRight`, `Keeps.roundedMantissa` — shifting keeps what rounding needs
* `packed_finite` — how a mantissa is packed
* `targetExponent_spec` — the unit of a result
* `rounds_roundWithAccuracy` — an unpacked number is rounded to the nearest single
-/

namespace DspHost

open Float.Model (UnpackedFloat totalExponent)
open Float.Model.Format (binary32)
open Float.Model.UnpackedFloat

/-! ### What is left behind a mantissa -/

/-- An accuracy tells where the rest behind a mantissa lies, in units of the last bit. -/
def Measures : Accuracy → ℚ → Prop
  | .exact, rest => rest = 0
  | .inexact .lt, rest => 0 < rest ∧ rest < 1 / 2
  | .inexact .eq, rest => rest = 1 / 2
  | .inexact .gt, rest => 1 / 2 < rest ∧ rest < 1

/-- Nothing is left behind an exact mantissa. -/
theorem measures_exact : Measures .exact 0 := rfl

theorem Measures.bounds {accuracy : Accuracy} {rest : ℚ} (h : Measures accuracy rest) :
    0 ≤ rest ∧ rest < 1 := by
  rcases accuracy with _ | ⟨_ | _ | _⟩ <;> simp only [Measures] at h <;> constructor <;> linarith

/-- The rest of a division is measured against its divisor. -/
theorem measures_accuracyOfFraction {n d : ℕ} (h : n < d) :
    Measures (accuracyOfFraction n d) (n / d) := by
  have hd : (0 : ℚ) < d := by exact_mod_cast (Nat.zero_le n).trans_lt h
  have hone : (n : ℚ) / d < 1 := (div_lt_one hd).mpr (by exact_mod_cast h)
  unfold accuracyOfFraction
  split_ifs with hzero
  · rw [hzero, Nat.cast_zero, zero_div]
    rfl
  · have hpos : (0 : ℚ) < n / d := div_pos (by exact_mod_cast Nat.pos_of_ne_zero hzero) hd
    rcases hcompare : compare (2 * n) d
    · have hless : 2 * n < d := Nat.compare_eq_lt.mp hcompare
      refine ⟨hpos, (div_lt_div_iff₀ hd two_pos).mpr ?_⟩
      rw [mul_comm, one_mul]
      exact_mod_cast hless
    · have hequal : 2 * n = d := Nat.compare_eq_eq.mp hcompare
      refine (div_eq_div_iff hd.ne' two_ne_zero).mpr ?_
      rw [mul_comm, one_mul]
      exact_mod_cast hequal
    · have hgreater : d < 2 * n := Nat.compare_eq_gt.mp hcompare
      refine ⟨(div_lt_div_iff₀ two_pos hd).mpr ?_, hone⟩
      rw [one_mul, mul_comm]
      exact_mod_cast hgreater

/-- A mantissa and the two bits behind it keep what is needed to round a number. -/
def Keeps (em : ExtendedMantissa) (x : ℚ) : Prop := Measures em.accuracy (x - em.mantissa)

theorem keeps_ofMantissaAndAccuracy {m : ℕ} {accuracy : Accuracy} {rest : ℚ}
    (h : Measures accuracy rest) : Keeps (.ofMantissaAndAccuracy m accuracy) (m + rest) := by
  rcases accuracy with _ | ⟨_ | _ | _⟩ <;>
    simpa [Keeps, ExtendedMantissa.ofMantissaAndAccuracy, ExtendedMantissa.accuracy] using h

namespace Keeps

variable {em : ExtendedMantissa} {x : ℚ}

/-- Nothing that is needed is lost when the last bit is shifted out. -/
theorem shiftRightOne (h : Keeps em x) : Keeps em.shiftRightOne (x / 2) := by
  obtain ⟨m, roundBit, stickyBit⟩ := em
  have hsplit : (m : ℚ) = 2 * (m / 2 : ℕ) + (m % 2 : ℕ) := by
    exact_mod_cast (Nat.div_add_mod m 2).symm
  rcases Nat.mod_two_eq_zero_or_one m with heven | hodd
  · rw [heven] at hsplit
    cases roundBit <;> cases stickyBit <;>
      simp [Keeps, ExtendedMantissa.shiftRightOne, ExtendedMantissa.accuracy, Measures,
        heven] at h ⊢ <;>
      (try constructor) <;> linarith
  · rw [hodd] at hsplit
    cases roundBit <;> cases stickyBit <;>
      simp [Keeps, ExtendedMantissa.shiftRightOne, ExtendedMantissa.accuracy, Measures,
        hodd] at h ⊢ <;>
      (try constructor) <;> linarith

theorem shiftRight (h : Keeps em x) (count : ℕ) : Keeps (em >>> count) (x / 2 ^ count) := by
  change Keeps (count.repeat ExtendedMantissa.shiftRightOne em) _
  induction count with
  | zero => simpa [Nat.repeat] using h
  | succ count ih =>
    rw [pow_succ, ← div_div]
    exact ih.shiftRightOne

/-- The rounded mantissa is the nearest number, and the even one of two. -/
theorem roundedMantissa (h : Keeps em x) :
    ((em.roundedMantissa : ℚ) - 1 / 2 < x ∨
      (em.roundedMantissa : ℚ) - 1 / 2 = x ∧ em.roundedMantissa % 2 = 0) ∧
    (x < em.roundedMantissa + 1 / 2 ∨
      x = em.roundedMantissa + 1 / 2 ∧ em.roundedMantissa % 2 = 0) := by
  obtain ⟨m, roundBit, stickyBit⟩ := em
  rcases roundBit with _ | _ <;> rcases stickyBit with _ | _ <;>
    simp only [Keeps, Measures, ExtendedMantissa.accuracy, ExtendedMantissa.roundedMantissa,
      Accuracy.roundToNearestEven] at h ⊢
  · exact ⟨.inl (by linarith), .inl (by linarith)⟩
  · exact ⟨.inl (by linarith), .inl (by linarith)⟩
  · rcases Nat.mod_two_eq_zero_or_one m with heven | hodd
    · rw [heven, Nat.add_zero]
      exact ⟨.inl (by linarith), .inr ⟨by linarith, heven⟩⟩
    · rw [hodd]
      push_cast
      exact ⟨.inr ⟨by linarith, by omega⟩, .inl (by linarith)⟩
  · push_cast
    exact ⟨.inl (by linarith), .inl (by linarith)⟩

end Keeps

/-! ### Packing -/

/-- The single that an unpacked number is packed into. -/
def Single.packed (u : UnpackedFloat) : Single := ⟨UInt32.ofBitVec (u.pack binary32)⟩

/-- Whether a sign is a minus. -/
def isMinus : Sign → Bool
  | .negative => true
  | .positive => false

/-- A magnitude with a sign. -/
def withSign (sign : Sign) (q : ℚ) : ℚ := if isMinus sign then -q else q

theorem toNat_append {n k : ℕ} (x : BitVec n) (y : BitVec k) :
    (x ++ y).toNat = x.toNat * 2 ^ k + y.toNat := by
  rw [BitVec.toNat_append, ← Nat.shiftLeft_add_eq_or_of_lt y.isLt, Nat.shiftLeft_eq]

theorem toNat_packComponents (sign : Sign) (exponent : BitVec 8) (mantissa : BitVec 23) :
    (packComponents binary32 sign exponent mantissa).toNat =
      (if isMinus sign then 2 ^ 31 else 0) + (exponent.toNat * 2 ^ 23 + mantissa.toNat) := by
  rw [packComponents, toNat_append, toNat_append]
  cases sign
  · simp only [Sign.toBitVec, isMinus, if_true, BitVec.toNat_ofNat]
    omega
  · simp [Sign.toBitVec, isMinus]

/-- The fields of a pattern are put together from the sign and the magnitude. -/
theorem packComponents_eq_signed {sign : Sign} {exponent : BitVec 8} {mantissa : BitVec 23}
    {pattern : ℕ} (hlt : pattern < 2 ^ 31)
    (h : exponent.toNat * 2 ^ 23 + mantissa.toNat = pattern) :
    (⟨UInt32.ofBitVec (packComponents binary32 sign exponent mantissa)⟩ : Single) =
      .signed (isMinus sign) pattern := by
  apply Single.ext
  rw [← UInt32.toNat_inj, Single.toNat_bits_signed _ hlt, ← h]
  exact toNat_packComponents sign exponent mantissa

@[simp] theorem packed_zero (sign : Sign) :
    Single.packed (.zero sign) = .signed (isMinus sign) 0 :=
  packComponents_eq_signed (by decide) rfl

/-- A mantissa of as many bits as fit is packed with the exponent field that counts its unit, and an
exponent past the greatest one into infinity. -/
theorem packed_finite {sign : Sign} {m j : ℕ} {e : ℤ} (hpos : 0 < m) (hfits : m < 2 ^ 24)
    (hlow : j = 0 ∨ 2 ^ 23 ≤ m) (hunit : e = -149 + j) :
    Single.packed (.finite sign m e hpos) =
      .signed (isMinus sign) (min (j * 2 ^ 23 + m) Format.single.infinity) := by
  have hinfinity : Format.single.infinity = 255 * 2 ^ 23 := by decide
  have hbiased : (e + binary32.exponentBias + binary32.mantissaBitsWithoutImplicit).toNat =
      j + 1 := by
    have hbias : binary32.exponentBias = 127 := by decide
    rw [hbias]
    simp only
    omega
  have hlog : m.log2 + 1 = binary32.mantissaBits ↔ 2 ^ 23 ≤ m := by
    have hless : m.log2 < 24 := (Nat.log2_lt hpos.ne').mpr hfits
    rw [← Nat.le_log2 hpos.ne', show binary32.mantissaBits = 24 from rfl]
    omega
  rw [Single.packed, pack]
  simp only [hbiased, hlog]
  split_ifs with hlarge hnormal
  · have hpast : Format.single.infinity ≤ j * 2 ^ 23 + m := by omega
    rw [min_eq_right hpast]
    exact packComponents_eq_signed (by decide) rfl
  · have hfinite : j * 2 ^ 23 + m ≤ Format.single.infinity := by omega
    rw [min_eq_left hfinite]
    refine packComponents_eq_signed (by omega) ?_
    simp only [BitVec.toNat_ofNat]
    omega
  · have hfinite : j * 2 ^ 23 + m ≤ Format.single.infinity := by omega
    rw [min_eq_left hfinite]
    refine packComponents_eq_signed (by omega) ?_
    simp only [BitVec.toNat_ofNat]
    omega

/-! ### One rounding -/

/-- The exponent that leaves room for as many bits as fit, and is not below the smallest one. -/
theorem targetExponent_eq (m : ℕ) (e : ℤ) :
    binary32.targetExponent (totalExponent m e) = max (m.log2 + e - 23) (-149) := by
  have hbits : binary32.mantissaBits = 24 := rfl
  have hleast : binary32.minExponent = -149 := by decide
  rw [Float.Model.Format.targetExponent, totalExponent, hbits, hleast]
  omega

/-- A number is not below its highest bit. -/
theorem zpow_log2_le {m : ℕ} {rest : ℚ} (hm : m ≠ 0) (hrest : 0 ≤ rest) (e : ℤ) :
    (2 : ℚ) ^ (m.log2 + e : ℤ) ≤ (m + rest) * 2 ^ e := by
  have hlow : (2 : ℚ) ^ m.log2 ≤ m := by exact_mod_cast Nat.log2_self_le hm
  rw [zpow_add₀ two_ne_zero, zpow_natCast]
  exact mul_le_mul_of_nonneg_right (by linarith) (by positivity)

/-- A number is below the bit in front of its highest one. -/
theorem lt_zpow_log2 (m : ℕ) {rest : ℚ} (hrest : rest < 1) (e : ℤ) :
    (m + rest) * 2 ^ e < (2 : ℚ) ^ (m.log2 + 1 + e : ℤ) := by
  have hnext : (m : ℚ) + 1 ≤ 2 ^ (m.log2 + 1) := by exact_mod_cast Nat.lt_log2_self (n := m)
  have hbits : (m : ℚ) + rest < 2 ^ (m.log2 + 1) := by linarith
  rw [zpow_add₀ two_ne_zero, ← Nat.cast_succ, zpow_natCast]
  exact mul_lt_mul_of_pos_right hbits (by positivity)

/-- A number of enough bits is shifted to a unit of the format that leaves room for all bits of the
result, and is the smallest one or no smaller than it has to be. -/
theorem targetExponent_spec {m : ℕ} {e : ℤ} {rest : ℚ} (hroom : e ≤ -149 ∨ 2 ^ 23 ≤ m)
    (hrest : 0 ≤ rest ∧ rest < 1) :
    ∃ j : ℕ, binary32.targetExponent (totalExponent m e) = -149 + j ∧ e ≤ -149 + j ∧
      (m + rest) * 2 ^ e < 2 ^ 24 * (2 : ℚ) ^ (-149 + j : ℤ) ∧
      (j = 0 ∨ 2 ^ 23 * (2 : ℚ) ^ (-149 + j : ℤ) ≤ (m + rest) * 2 ^ e) := by
  obtain ⟨j, hj⟩ : ∃ j : ℕ, max (m.log2 + e - 23) (-149) = -149 + (j : ℤ) :=
    Int.exists_add_of_le (le_max_right _ _)
  have hlog : (m.log2 : ℤ) + e - 23 ≤ -149 + j := hj ▸ le_max_left _ _
  have hunit (k : ℤ) : (2 : ℚ) ^ k * 2 ^ (-149 + j : ℤ) = 2 ^ (k + (-149 + j)) :=
    (zpow_add₀ two_ne_zero _ _).symm
  refine ⟨j, (targetExponent_eq m e).trans hj, ?_, ?_, ?_⟩
  · rcases hroom with hsmall | hlarge
    · omega
    · have hbits : 23 ≤ m.log2 := (Nat.le_log2 (by omega)).mpr hlarge
      omega
  · calc (m + rest) * 2 ^ e < (2 : ℚ) ^ (m.log2 + 1 + e : ℤ) := lt_zpow_log2 m hrest.2 e
      _ ≤ (2 : ℚ) ^ (24 + (-149 + j) : ℤ) := zpow_le_zpow_right₀ one_le_two (by omega)
      _ = 2 ^ 24 * (2 : ℚ) ^ (-149 + j : ℤ) := (hunit 24).symm
  · by_cases hzero : j = 0
    · exact .inl hzero
    · -- The unit is not the smallest one, so the number has bits to spare.
      have hexact : 23 + (-149 + j) = (m.log2 : ℤ) + e := by omega
      have hm : m ≠ 0 := by
        rintro rfl
        have hnone : (0 : ℕ).log2 = 0 := by decide
        omega
      refine .inr ?_
      calc 2 ^ 23 * (2 : ℚ) ^ (-149 + j : ℤ) = (2 : ℚ) ^ (23 + (-149 + j) : ℤ) := hunit 23
        _ = (2 : ℚ) ^ (m.log2 + e : ℤ) := congrArg _ hexact
        _ ≤ (m + rest) * 2 ^ e := zpow_log2_le hm hrest.1 e

/-- The first shift keeps what is needed to round in the new unit. -/
theorem keeps_shiftToExponent {m : ℕ} {e t : ℤ} {accuracy : Accuracy} {rest : ℚ}
    (h : Measures accuracy rest) (hle : e ≤ t) :
    Keeps (shiftToExponent m e accuracy t).1 ((m + rest) * 2 ^ e / 2 ^ t) ∧
      (shiftToExponent m e accuracy t).2 = t := by
  obtain ⟨count, rfl⟩ := Int.exists_add_of_le hle
  have hcount : (e + count - e).toNat = count := by omega
  simp only [shiftToExponent, hcount, and_true]
  have hquotient : (m + rest) * (2 : ℚ) ^ e / 2 ^ (e + count : ℤ) = (m + rest) / 2 ^ count := by
    rw [zpow_add₀ two_ne_zero, zpow_natCast, mul_comm, mul_div_mul_left _ _ (by positivity)]
  rw [hquotient]
  exact (keeps_ofMantissaAndAccuracy h).shiftRight count

/-- A rounded mantissa that fits stays. -/
theorem shiftToTargetExponent_of_lt {s j : ℕ} (hs : s < 2 ^ 24) :
    shiftToTargetExponent binary32 s (-149 + j : ℤ) .exact =
      (⟨s, false, false⟩, -149 + (j : ℤ)) := by
  have hcount : (binary32.targetExponent (totalExponent s (-149 + j)) - (-149 + j)).toNat = 0 := by
    have hlog : s.log2 < 24 := by
      rcases Nat.eq_zero_or_pos s with rfl | hpos
      · decide
      · exact (Nat.log2_lt hpos.ne').mpr hs
    rw [targetExponent_eq]
    omega
  rw [shiftToTargetExponent, shiftToExponent, hcount]
  simp only [Nat.cast_zero, add_zero]
  rfl

/-- A rounded mantissa of one bit more is a power of two, and loses a zero. -/
theorem shiftToTargetExponent_carry (j : ℕ) :
    shiftToTargetExponent binary32 (2 ^ 24) (-149 + j : ℤ) .exact =
      (⟨2 ^ 23, false, false⟩, -149 + ((j + 1 : ℕ) : ℤ)) := by
  have hcount : (binary32.targetExponent (totalExponent (2 ^ 24) (-149 + j)) -
      (-149 + j)).toNat = 1 := by
    rw [targetExponent_eq, Nat.log2_two_pow]
    omega
  rw [shiftToTargetExponent, shiftToExponent, hcount]
  push_cast
  rw [add_assoc]
  rfl

/-- A number that was brought to a unit is rounded in this unit. -/
theorem packed_roundWithAccuracy_eq {sign : Sign} {m j s : ℕ} {e : ℤ} {accuracy : Accuracy}
    {em : ExtendedMantissa}
    (hshift : shiftToTargetExponent binary32 m e accuracy = (em, -149 + (j : ℤ)))
    (hs : em.roundedMantissa = s) (hlow : j = 0 ∨ 2 ^ 23 ≤ s) (hhigh : s ≤ 2 ^ 24) :
    Single.packed (roundWithAccuracy binary32 sign m e accuracy) =
      .signed (isMinus sign) (min (j * 2 ^ 23 + s) Format.single.infinity) := by
  rw [roundWithAccuracy, hshift]
  simp only [hs]
  rcases hhigh.lt_or_eq with hlt | rfl
  · simp only [shiftToTargetExponent_of_lt hlt]
    split_ifs with hzero
    · obtain rfl : j = 0 := by omega
      rw [packed_zero, hzero]
      rfl
    · exact packed_finite _ hlt hlow rfl
  · have hcarry : (j + 1) * 2 ^ 23 + 2 ^ 23 = j * 2 ^ 23 + 2 ^ 24 := by omega
    simp only [shiftToTargetExponent_carry]
    rw [dif_neg (by decide), packed_finite _ (by decide) (.inr le_rfl) rfl, hcarry]

/-- A number of as many bits as fit, in a unit of the format, is rounded to the multiple of the unit
that is nearest to it. -/
theorem roundsTo_single {q : ℚ} {j s : ℕ} (hbound : q < 2 ^ 24 * 2 ^ (-149 + j : ℤ))
    (hnormal : j = 0 ∨ 2 ^ 23 * 2 ^ (-149 + j : ℤ) ≤ q)
    (habove : (s : ℚ) - 1 / 2 < q / 2 ^ (-149 + j : ℤ) ∨
      (s : ℚ) - 1 / 2 = q / 2 ^ (-149 + j : ℤ) ∧ s % 2 = 0)
    (hbelow : q / 2 ^ (-149 + j : ℤ) < s + 1 / 2 ∨
      q / 2 ^ (-149 + j : ℤ) = s + 1 / 2 ∧ s % 2 = 0) : Format.single.RoundsTo q j s := by
  have hleast : Format.single.leastExponent = -149 := by decide
  have hfraction : power 2 Format.single.fractionBits = 2 ^ 23 := by decide
  have hcarry : power 2 (Format.single.fractionBits + 1) = 2 ^ 24 := by decide
  apply Format.RoundsTo.of_nearest
  · rw [hleast, hcarry]
    exact_mod_cast hbound
  · rw [hleast, hfraction]
    exact_mod_cast hnormal
  · rw [hleast]
    exact habove
  · rw [hleast]
    exact hbelow

/-- An unpacked number is rounded to the nearest single, whatever its accuracy has left out. -/
theorem rounds_roundWithAccuracy (sign : Sign) {m : ℕ} {e : ℤ} {accuracy : Accuracy} {rest : ℚ}
    (h : Measures accuracy rest) (hroom : e ≤ -149 ∨ 2 ^ 23 ≤ m) :
    (Single.packed (roundWithAccuracy binary32 sign m e accuracy)).Rounds
      (withSign sign ((m + rest) * 2 ^ e)) := by
  obtain ⟨j, htarget, hle, hbound, hnormal⟩ := targetExponent_spec hroom h.bounds
  obtain ⟨hkeeps, hexponent⟩ := keeps_shiftToExponent (m := m) h hle
  have hshift : shiftToTargetExponent binary32 m e accuracy =
      ((shiftToExponent m e accuracy (-149 + j)).1, -149 + (j : ℤ)) := by
    rw [shiftToTargetExponent, htarget]
    exact Prod.ext rfl hexponent
  obtain ⟨habove, hbelow⟩ := hkeeps.roundedMantissa
  have hrounds := roundsTo_single hbound hnormal habove hbelow
  have hnonneg : (0 : ℚ) ≤ (m + rest) * 2 ^ e := by
    have := h.bounds.1
    positivity
  rw [packed_roundWithAccuracy_eq hshift rfl hrounds.low hrounds.high]
  exact Single.rounds_signed _ (hrounds.placeOf_eq (by decide) hnonneg).symm

end DspHost
