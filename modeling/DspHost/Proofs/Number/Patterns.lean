import DspHost.Number.Single
import DspHost.Proofs.Number.Whole
import Mathlib

/-!
# Singles as numbers

The pattern of a single is its sign and its magnitude. The magnitude counts the values below it, so
that the place of a single in the order of numbers is the count with the sign in front, and
comparing places is comparing values. Rounding with a sign is rounding the magnitude; the place that
is found keeps the order, and every finite single is at the place that its own value is rounded to.

## Main definitions

* `Single.value` — the exact value of a finite single
* `Format.placeOf` — the place of the value that is nearest to a number
* `Single.Rounds` — a single is what a number is rounded to
* `Single.Between` — a number lies in a range

## Main results

* `Single.value_le_value_iff` — places are ordered as values are
* `Format.placeOf_mono` — rounding keeps the order
* `Single.placeOf_value` — values of singles are not changed
* `Single.Rounds.between` — what is rounded stays in its range
-/

namespace DspHost

/-! ### Signs and magnitudes -/

namespace Single

/-- A pattern is put together from its sign and its magnitude. -/
theorem signed_magnitude (x : Single) : signed x.isNegative x.magnitude.toNat = x := by
  have hsign : x.bits &&& 0x80000000 = 0 ∨ x.bits &&& 0x80000000 = 0x80000000 := by
    have hbit := BitVec.and_twoPow x.bits.toBitVec 31
    rw [← UInt32.toBitVec_inj, ← UInt32.toBitVec_inj]
    split_ifs at hbit
    · exact .inr hbit
    · exact .inl hbit
  have hsplit : (x.bits &&& 0x80000000) ||| x.magnitude = x.bits := by
    rw [← UInt32.toBitVec_inj]
    exact BitVec.and_or_distrib_left.symm.trans BitVec.and_allOnes
  apply Single.ext
  rw [signed, isNegative]
  rcases hsign with hzero | hone
  · rw [hzero] at hsplit ⊢
    simpa using hsplit
  · rw [hone] at hsplit ⊢
    simpa using hsplit

/-- The sign is the highest bit of a pattern. -/
theorem toNat_bits_signed (negative : Bool) {pattern : ℕ} (h : pattern < 2 ^ 31) :
    (signed negative pattern).bits.toNat = (if negative then 2 ^ 31 else 0) + pattern := by
  have hpattern : pattern.toUInt32.toNat = pattern :=
    UInt32.toNat_ofNat_of_lt' (h.trans (by decide))
  cases negative with
  | false => simp [signed, hpattern]
  | true =>
    have hor := Nat.shiftLeft_add_eq_or_of_lt h 1
    rw [signed, if_pos rfl, UInt32.toNat_or, hpattern]
    exact hor.symm

theorem toNat_magnitude (x : Single) : x.magnitude.toNat = x.bits.toNat % 2 ^ 31 :=
  Nat.and_two_pow_sub_one_eq_mod x.bits.toNat 31

theorem toNat_magnitude_lt (x : Single) : x.magnitude.toNat < 2 ^ 31 := by
  rw [toNat_magnitude]
  exact Nat.mod_lt _ (by decide)

/-- The bits of a single, with its sign in front. -/
theorem toNat_bits (x : Single) :
    x.bits.toNat = (if x.isNegative then 2 ^ 31 else 0) + x.magnitude.toNat := by
  conv_lhs => rw [← signed_magnitude x]
  exact toNat_bits_signed _ x.toNat_magnitude_lt

variable {x y : Single} {negative : Bool} {pattern : ℕ}

@[simp] theorem toNat_magnitude_signed (h : pattern < 2 ^ 31) :
    (signed negative pattern).magnitude.toNat = pattern := by
  rw [toNat_magnitude, toNat_bits_signed _ h]
  split <;> omega

@[simp] theorem isNegative_signed (h : pattern < 2 ^ 31) :
    (signed negative pattern).isNegative = negative := by
  have hbits := toNat_bits (signed negative pattern)
  rw [toNat_bits_signed _ h, toNat_magnitude_signed h] at hbits
  cases negative <;> cases hnegative : (signed _ pattern).isNegative <;> simp_all

theorem isFinite_iff : x.isFinite = true ↔ x.magnitude.toNat < Format.single.infinity := by
  rw [isFinite, decide_eq_true_iff, UInt32.lt_iff_toNat_lt]
  rfl

theorem isNaN_eq_false_iff : x.isNaN = false ↔ x.magnitude.toNat ≤ Format.single.infinity := by
  rw [isNaN, decide_eq_false_iff_not, UInt32.lt_iff_toNat_lt, Nat.not_lt]
  rfl

theorem isNaN_of_isFinite (h : x.isFinite = true) : x.isNaN = false :=
  isNaN_eq_false_iff.mpr (isFinite_iff.mp h).le

/-- A single is finite if its place is between the infinities. -/
theorem isFinite_iff_abs_rank_lt : x.isFinite = true ↔ |x.rank| < Format.single.infinity := by
  rw [isFinite_iff, rank]
  split <;> simp

theorem rank_signed (h : pattern < 2 ^ 31) :
    (signed negative pattern).rank = if negative then -(pattern : ℤ) else pattern := by
  rw [rank, isNegative_signed h, toNat_magnitude_signed h]

/-- A number that is not finite and not negative is infinity. -/
theorem eq_infinity (hnumber : x.isNaN = false) (hinfinite : x.isFinite = false)
    (hpos : 0 ≤ x.rank) : x = infinity := by
  have hmagnitude : x.magnitude.toNat = Format.single.infinity := by
    refine le_antisymm (isNaN_eq_false_iff.mp hnumber) (Nat.not_lt.mp fun hlt => ?_)
    rw [isFinite_iff.mpr hlt] at hinfinite
    cases hinfinite
  have hsign : x.isNegative = false := by
    by_contra hnegative
    rw [rank, if_pos (Bool.not_eq_false _ ▸ hnegative), hmagnitude] at hpos
    exact absurd hpos (by decide)
  rw [← signed_magnitude x, hmagnitude, hsign]
  decide

theorem same_iff : x.same y = true ↔ x.isNaN = false ∧ y.isNaN = false ∧ x.rank = y.rank := by
  simp [same, and_assoc]

end Single

/-! ### Places -/

namespace Format

variable {f : Format} {q : ℚ}

@[simp] theorem value_zero (f : Format) : f.value 0 = 0 := by
  have h := f.value_eq (j := 0) (s := 0) (.inl rfl) (Nat.zero_le _)
  simpa using h

/-- The exact value at a place in the order of numbers. -/
def valueAt (f : Format) : ℤ → ℚ
  | .ofNat pattern => f.value pattern
  | .negSucc pattern => -f.value (pattern + 1)

@[simp] theorem valueAt_neg (f : Format) (place : ℤ) : f.valueAt (-place) = -f.valueAt place := by
  rcases place with (_ | pattern) | pattern
  · simp [valueAt]
  · rfl
  · exact (neg_neg _).symm

/-- Places are ordered as their values are. -/
theorem valueAt_strictMono (f : Format) : StrictMono f.valueAt := by
  refine strictMono_int_of_lt_succ fun place => ?_
  rcases place with pattern | _ | pattern
  · exact f.value_lt_succ pattern
  · have h := f.value_lt_succ 0
    rw [value_zero] at h
    simpa [valueAt] using h
  · exact neg_lt_neg (f.value_lt_succ (pattern + 1))

/-- The place of the value that is nearest to a number, that of an infinity if it is past the
greatest finite value. -/
def placeOf (f : Format) (q : ℚ) : ℤ :=
  if q < 0 then -(f.nearest q.num.natAbs q.den : ℤ) else f.nearest q.num.natAbs q.den

theorem placeOf_of_nonneg (h : 0 ≤ q) : f.placeOf q = f.nearest q.num.natAbs q.den := by
  rw [placeOf, if_neg h.not_gt]

@[simp] theorem placeOf_zero (f : Format) : f.placeOf 0 = 0 := by
  simp [placeOf]

theorem placeOf_neg (f : Format) (q : ℚ) : f.placeOf (-q) = -f.placeOf q := by
  rcases lt_trichotomy q 0 with hneg | rfl | hpos
  · rw [placeOf_of_nonneg (by linarith), placeOf, if_pos hneg]
    simp
  · simp
  · rw [placeOf_of_nonneg hpos.le, placeOf, if_pos (by linarith)]
    simp

theorem quotient_eq (h : 0 ≤ q) : (q.num.natAbs : ℚ) / q.den = q := by
  conv_rhs => rw [← Rat.num_div_den q]
  rw [Nat.cast_natAbs, abs_of_nonneg (Rat.num_nonneg.mpr h)]

theorem placeOf_nonneg (h : 0 ≤ q) : 0 ≤ f.placeOf q := by
  rw [placeOf_of_nonneg h]
  exact Int.natCast_nonneg _

/-- Rounding keeps the order. -/
theorem placeOf_mono (hf : 0 < f.fractionBits) : Monotone f.placeOf := by
  have hpositive : ∀ {q q' : ℚ}, 0 ≤ q → q ≤ q' → f.placeOf q ≤ f.placeOf q' := by
    intro q q' hq h
    have hq' : 0 ≤ q' := hq.trans h
    rw [placeOf_of_nonneg hq, placeOf_of_nonneg hq', Nat.cast_le]
    refine nearest_mono hf q.den_pos q'.den_pos ?_
    rwa [quotient_eq hq, quotient_eq hq']
  intro q q' h
  rcases le_total 0 q with hq | hq
  · exact hpositive hq h
  · rcases le_total 0 q' with hq' | hq'
    · have hlow : 0 ≤ f.placeOf (-q) := placeOf_nonneg (neg_nonneg.mpr hq)
      rw [placeOf_neg] at hlow
      exact (neg_nonneg.mp hlow).trans (placeOf_nonneg hq')
    · have hflip := hpositive (neg_nonneg.mpr hq') (neg_le_neg h)
      rw [placeOf_neg, placeOf_neg] at hflip
      exact neg_le_neg_iff.mp hflip

/-- Finite values of the format are not changed. -/
theorem placeOf_valueAt (hf : 0 < f.fractionBits) {place : ℤ} (h : |place| < f.infinity) :
    f.placeOf (f.valueAt place) = place := by
  have hpositive : ∀ pattern : ℕ, pattern < f.infinity → f.placeOf (f.value pattern) = pattern := by
    intro pattern hpattern
    have hvalue := f.value_nonneg pattern
    rw [placeOf_of_nonneg hvalue, Nat.cast_inj]
    exact nearest_of_eq_value hf (Rat.den_pos _) hpattern (quotient_eq hvalue)
  obtain ⟨pattern, rfl | rfl⟩ := place.eq_nat_or_neg
  · exact hpositive pattern (by simpa using h)
  · rw [valueAt_neg, placeOf_neg]
    exact congrArg _ (hpositive pattern (by simpa using h))

theorem abs_placeOf_le (f : Format) (q : ℚ) : |f.placeOf q| ≤ f.infinity := by
  have hle := f.nearest_le_infinity q.num.natAbs q.den
  rw [placeOf]
  split <;> simpa using hle

/-- What is rounded to a multiple of a unit is at the place of that multiple. -/
theorem RoundsTo.placeOf_eq (hf : 0 < f.fractionBits) {j s : ℕ} (h : f.RoundsTo q j s)
    (hq : 0 ≤ q) :
    f.placeOf q = (min (j * power 2 f.fractionBits + s) f.infinity : ℕ) := by
  rw [placeOf_of_nonneg hq, Nat.cast_inj]
  rcases Nat.eq_zero_or_pos q.num.natAbs with hzero | hpos
  · have hlow : j * power 2 f.fractionBits + s ≤ 0 := by
      refine (h.le_iff hf 0).mpr (.inl ?_)
      rw [← quotient_eq hq, hzero, Nat.cast_zero, zero_div]
      exact f.midpoint_pos 0
    rw [hzero, nearest_zero]
    omega
  · obtain ⟨j', s', hnearest, h'⟩ := f.exists_roundsTo hpos q.den_pos
    rw [quotient_eq hq] at h'
    have hsame : j' * power 2 f.fractionBits + s' = j * power 2 f.fractionBits + s :=
      le_antisymm ((h'.le_iff hf _).mpr ((h.le_iff hf _).mp le_rfl))
        ((h.le_iff hf _).mpr ((h'.le_iff hf _).mp le_rfl))
    rw [hnearest, hsame]

end Format

theorem value_single_infinity : Format.single.value Format.single.infinity = 2 ^ 128 := by
  have hdecode : Format.single.decode Format.single.infinity = ⟨8388608, 105⟩ := by decide +kernel
  rw [Format.value, hdecode, Scaled.value]
  norm_num

/-! ### Values of singles -/

namespace Single

variable {x y low high : Single} {p q r : ℚ} {n : ℕ}

/-- The exact value of a finite single. -/
def value (x : Single) : ℚ := Format.single.valueAt x.rank

theorem value_eq_of_rank_eq (h : x.rank = y.rank) : x.value = y.value :=
  congrArg Format.single.valueAt h

theorem value_zero : zero.value = 0 := Format.single.value_zero

theorem value_le_value_iff : x.value ≤ y.value ↔ x.rank ≤ y.rank :=
  Format.single.valueAt_strictMono.le_iff_le

/-- A finite single is at the place that its own value is rounded to. -/
theorem placeOf_value (h : x.isFinite = true) : Format.single.placeOf x.value = x.rank :=
  Format.placeOf_valueAt (by decide) (isFinite_iff_abs_rank_lt.mp h)

/-- A single is what a number is rounded to. -/
structure Rounds (x : Single) (q : ℚ) : Prop where
  isNumber : x.isNaN = false
  place : x.rank = Format.single.placeOf q

/-- A finite single is what its own value is rounded to. -/
theorem rounds_self (h : x.isFinite = true) : x.Rounds x.value :=
  ⟨isNaN_of_isFinite h, (placeOf_value h).symm⟩

/-- The greater number is rounded to the greater place. -/
theorem Rounds.rank_le_rank (hx : x.Rounds p) (hy : y.Rounds q) (h : p ≤ q) :
    x.rank ≤ y.rank := by
  rw [hx.place, hy.place]
  exact Format.placeOf_mono (by decide) h

theorem Rounds.rank_eq_rank (hx : x.Rounds p) (hy : y.Rounds q) (h : p = q) :
    x.rank = y.rank := by
  rw [hx.place, hy.place, h]

theorem infinity_lt : Format.single.infinity < 2 ^ 31 := by decide

/-- A number is rounded by rounding its magnitude. -/
theorem rounds_signed (negative : Bool) {pattern : ℕ}
    (h : (pattern : ℤ) = Format.single.placeOf q) :
    (signed negative pattern).Rounds (if negative then -q else q) := by
  have hle : pattern ≤ Format.single.infinity := by
    have := Format.single.abs_placeOf_le q
    rw [← h, Nat.abs_cast] at this
    exact_mod_cast this
  have hlt : pattern < 2 ^ 31 := hle.trans_lt infinity_lt
  constructor
  · rw [isNaN_eq_false_iff, toNat_magnitude_signed hlt]
    exact hle
  · rw [rank_signed hlt, h]
    cases negative with
    | false => rfl
    | true => exact (Format.single.placeOf_neg q).symm

/-! ### Ranges -/

/-- A number lies in a range. -/
structure Between (x low high : Single) : Prop where
  isNumber : x.isNaN = false
  above : low.rank ≤ x.rank
  below : x.rank ≤ high.rank

/-- Between finite numbers there are only finite ones. -/
theorem Between.isFinite (h : x.Between low high) (hlow : low.isFinite = true)
    (hhigh : high.isFinite = true) : x.isFinite = true := by
  have hleast := (abs_lt.mp (isFinite_iff_abs_rank_lt.mp hlow)).1
  have hgreatest := (abs_lt.mp (isFinite_iff_abs_rank_lt.mp hhigh)).2
  exact isFinite_iff_abs_rank_lt.mpr
    (abs_lt.mpr ⟨hleast.trans_le h.above, h.below.trans_lt hgreatest⟩)

/-- What is rounded from a number of a range stays in the range. -/
theorem Rounds.between (h : x.Rounds q) (hlow : low.Rounds p) (hhigh : high.Rounds r) (hp : p ≤ q)
    (hr : q ≤ r) : x.Between low high :=
  ⟨h.isNumber, hlow.rank_le_rank h hp, h.rank_le_rank hhigh hr⟩

/-! ### Whole numbers -/

theorem rounds_ofNat (n : ℕ) : (ofNat n).Rounds n := by
  have hplace : (Format.single.nearest n 1 : ℤ) = Format.single.placeOf n := by
    rw [Format.placeOf_of_nonneg (Nat.cast_nonneg n)]
    simp
  exact rounds_signed false hplace

theorem rounds_zero : zero.Rounds 0 := by
  have h := rounds_ofNat 0
  rw [Nat.cast_zero, show ofNat 0 = zero by decide] at h
  exact h

theorem rounds_one : one.Rounds 1 := by
  have h := rounds_ofNat 1
  rw [Nat.cast_one, show ofNat 1 = one by decide +kernel] at h
  exact h

/-- A whole number of as many bits as fit is a single. -/
theorem value_ofNat (hn : n < 2 ^ 24) : (ofNat n).isFinite = true ∧ (ofNat n).value = n := by
  have hless : (n : ℚ) < 2 ^ 128 := by
    have hnq : (n : ℚ) < 2 ^ 24 := by exact_mod_cast hn
    exact hnq.trans (by norm_num)
  have hfits : Format.single.Fits n := ⟨n, 0, hn, (Nat.mul_one n).symm⟩
  have hexact : Format.single.value (Format.single.nearest n 1) = n :=
    hfits.value_ofNat (by decide) (by decide) (value_single_infinity ▸ hless)
  have hfinite : Format.single.nearest n 1 < Format.single.infinity := by
    rw [← Format.single.value_strictMono.lt_iff_lt, hexact, value_single_infinity]
    exact hless
  have hrank : (ofNat n).rank = Format.single.nearest n 1 := rank_signed (hfinite.trans infinity_lt)
  constructor
  · rw [isFinite_iff_abs_rank_lt, hrank, Nat.abs_cast]
    exact_mod_cast hfinite
  · rw [value, hrank]
    exact hexact

theorem value_one : one.value = 1 := by
  have h := (value_ofNat (n := 1) (by decide)).2
  rw [Nat.cast_one, show ofNat 1 = one by decide +kernel] at h
  exact h

end Single

end DspHost
