import DspHost.Proofs.Number.Nearest
import Mathlib.Algebra.Order.Floor.Semifield
import Mathlib.Data.Rat.Floor

/-!
# Whole numbers in a binary format

A whole number is rounded to a whole number, and it is kept exactly if all its bits but zeros at the
end fit the format. Below the greatest finite value these are the only numbers that are kept.

## Main definitions

* `Format.Fits` — whole numbers that have a pattern
* `Format.rounded` — what becomes of a whole number

## Main results

* `Scaled.isWhole_iff`, `Scaled.floor_eq` — whole values and whole parts
* `Format.exists_fits_value_ofNat` — a whole number is rounded to one that fits
* `Format.ofNat_mono`, `Format.rounded_mono` — greater numbers are rounded to greater ones
* `Format.rounded_eq_self_iff` — which whole numbers are kept
-/

namespace DspHost

namespace Scaled

/-- A value is whole if it is the value of a natural number. -/
theorem isWhole_iff (s : Scaled) : s.isWhole = true ↔ ∃ k : ℕ, s.value = k := by
  have hpos : (0 : ℚ) < s.denominator := by exact_mod_cast s.denominator_pos
  rw [isWhole, beq_iff_eq, value_eq]
  constructor
  · intro hmod
    obtain ⟨k, hk⟩ := Nat.dvd_of_mod_eq_zero hmod
    refine ⟨k, ?_⟩
    rw [hk, Nat.cast_mul, mul_div_cancel_left₀ _ hpos.ne']
  · rintro ⟨k, hk⟩
    rw [div_eq_iff hpos.ne'] at hk
    have hdvd : s.numerator = k * s.denominator := by exact_mod_cast hk
    rw [hdvd, Nat.mul_mod_left]

/-- The whole part of a value. -/
theorem floor_eq (s : Scaled) : s.floor = ⌊s.value⌋₊ := by
  rw [floor, value_eq, Nat.floor_div_eq_div]

end Scaled

namespace Format

variable {f : Format} {n : ℕ}

/-- A whole number whose bits, but for zeros at the end, fit the format. -/
def Fits (f : Format) (n : ℕ) : Prop :=
  ∃ m i, m < power 2 (f.fractionBits + 1) ∧ n = m * power 2 i

/-- The whole part of the value that a whole number is rounded to. -/
def rounded (f : Format) (n : ℕ) : ℕ := (f.decode (f.ofNat n)).floor

theorem rounded_le_value (f : Format) (n : ℕ) : (f.rounded n : ℚ) ≤ f.value (f.ofNat n) := by
  rw [rounded, Scaled.floor_eq]
  exact Nat.floor_le (f.value_nonneg _)

/-- A whole number that fits is a value of the format. -/
theorem Fits.value_ofNat (h : f.Fits n) (hf : 0 < f.fractionBits) (hleast : f.leastExponent ≤ 0)
    (hn : (n : ℚ) < f.value f.infinity) : f.value (f.ofNat n) = n := by
  obtain ⟨m, i, hm, rfl⟩ := h
  obtain ⟨pattern, hvalue⟩ := f.exists_value_eq hm ((-f.leastExponent).toNat + i)
  have hunit : f.leastExponent + (((-f.leastExponent).toNat + i : ℕ) : ℤ) = i := by
    push_cast
    omega
  rw [hunit, zpow_natCast] at hvalue
  have hsame : ((m * power 2 i : ℕ) : ℚ) = f.value pattern := by
    rw [hvalue]
    push_cast
    rfl
  have hfinite : pattern < f.infinity := f.value_strictMono.lt_iff_lt.mp (hsame ▸ hn)
  rw [ofNat, nearest_of_eq_value hf one_pos hfinite (by rw [Nat.cast_one, div_one, hsame]), hsame]

/-- A whole number does not reach the value behind the one that it is rounded to. -/
theorem lt_value_ofNat_succ (hf : 0 < f.fractionBits) (hn : f.ofNat n < f.infinity) :
    (n : ℚ) < f.value (f.ofNat n + 1) := by
  have hle := (nearest_le_iff (n := n) hf one_pos hn).mp (le_refl _)
  rw [Nat.cast_one, div_one] at hle
  exact (hle.elim le_of_lt (·.1.le)).trans_lt (f.midpoint_lt_value _)

/-- A whole number is rounded to a whole number that fits. -/
theorem exists_fits_value_ofNat (hf : 0 < f.fractionBits) (hleast : f.leastExponent ≤ 0)
    (hn : f.ofNat n < f.infinity) : ∃ k : ℕ, f.value (f.ofNat n) = k ∧ f.Fits k := by
  have hnext := lt_value_ofNat_succ hf hn
  obtain ⟨j, s, hparts, hlow, hhigh⟩ := f.exists_parts (f.ofNat n)
  rcases le_or_gt 0 (f.leastExponent + j) with hwhole | hfraction
  · obtain ⟨i, hi⟩ := Int.eq_ofNat_of_zero_le hwhole
    refine ⟨s * power 2 i, ?_, s, i, hhigh, rfl⟩
    rw [hparts, f.value_eq hlow hhigh.le, hi, zpow_natCast]
    push_cast
    rfl
  · -- The unit is a fraction, so the number is small enough to be kept.
    have hsmall : (n : ℚ) < power 2 (f.fractionBits + 1) := by
      refine hnext.trans_le ?_
      rw [hparts, Nat.add_assoc, f.value_eq (hlow.imp_right (le_trans · (Nat.le_succ s))) hhigh]
      calc ((s + 1 : ℕ) : ℚ) * 2 ^ (f.leastExponent + j)
          ≤ (s + 1 : ℕ) * 1 :=
            mul_le_mul_of_nonneg_left (zpow_le_one_of_nonpos₀ one_le_two hfraction.le)
              (Nat.cast_nonneg _)
        _ ≤ power 2 (f.fractionBits + 1) := by
            rw [mul_one]
            exact_mod_cast hhigh
    have hfits : f.Fits n := ⟨n, 0, by exact_mod_cast hsmall, (Nat.mul_one n).symm⟩
    refine ⟨n, hfits.value_ofNat hf hleast ?_, hfits⟩
    exact hnext.trans_le (f.value_strictMono.monotone hn)

/-- Greater whole numbers have greater patterns. -/
theorem ofNat_mono (hf : 0 < f.fractionBits) : Monotone f.ofNat := fun m n hmn =>
  nearest_mono hf one_pos one_pos (by
    rw [Nat.cast_one, div_one, div_one]
    exact_mod_cast hmn)

/-- Greater whole numbers are rounded to greater ones. -/
theorem rounded_mono (hf : 0 < f.fractionBits) : Monotone f.rounded := fun m n hmn => by
  rw [rounded, rounded, Scaled.floor_eq, Scaled.floor_eq]
  exact Nat.floor_mono (f.value_strictMono.monotone (ofNat_mono hf hmn))

/-- A whole number is kept exactly if it fits. -/
theorem rounded_eq_self_iff (hf : 0 < f.fractionBits) (hleast : f.leastExponent ≤ 0)
    (hn : f.ofNat n < f.infinity) : f.rounded n = n ↔ f.Fits n := by
  rw [rounded, Scaled.floor_eq]
  constructor
  · intro h
    obtain ⟨k, hvalue, hfits⟩ := f.exists_fits_value_ofNat hf hleast hn
    change (f.decode (f.ofNat n)).value = k at hvalue
    rw [hvalue, Nat.floor_natCast] at h
    exact h ▸ hfits
  · intro h
    have hvalue : (f.decode (f.ofNat n)).value = n := h.value_ofNat hf hleast
      ((lt_value_ofNat_succ hf hn).trans_le (f.value_strictMono.monotone hn))
    rw [hvalue, Nat.floor_natCast]

end Format

end DspHost
