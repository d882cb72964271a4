import DspHost.Proofs.Number.Layouts

/-!
# How exact the reader of numbers is

The digits of a literal are scaled by a power of ten, which is rounded itself, and the result is
rounded once more. So for literals of few digits the double that is read is off by little more than
one unit of its last bit, and where the power of ten is a double it is the nearest one.

## Main definitions

* `Literal.Reads` — a double that is close to a decimal, or the same

## Main results

* `Literal.numeral?_of_spells` — the digits and the power of ten that are taken from a literal
* `Literal.exists_rescale?_eq` — a scaled value is rounded once
* `Literal.exists_reads` — how far what is read is from what is spelled
-/

namespace DspHost

open Format

/-! ### Doubles -/

theorem value_double_infinity : double.value double.infinity = 2 ^ 1024 := by
  have hdecode : double.decode double.infinity = ⟨power 2 52, 972⟩ := by decide +kernel
  rw [Format.value, hdecode, Scaled.value, Nat.cast_pow, Nat.cast_ofNat, ← zpow_natCast,
    ← zpow_natCast, ← zpow_add₀ two_ne_zero]
  rfl

/-- The least value that is not rounded to fewer bits. -/
theorem least_double : ((power 2 double.fractionBits : ℕ) : ℚ) * 2 ^ double.leastExponent =
    2 ^ (-1022 : ℤ) := by
  rw [Nat.cast_pow, Nat.cast_ofNat, ← zpow_natCast, ← zpow_add₀ two_ne_zero]
  rfl

/-- A whole number of few bits is a double. -/
theorem value_double_ofNat {n : ℕ} (hfits : double.Fits n) (hn : (n : ℚ) < 2 ^ 1024) :
    double.value (double.ofNat n) = n :=
  hfits.value_ofNat (by decide) (by decide) (by rwa [value_double_infinity])

namespace Literal

theorem numeral?_of_spells {l : Literal} {negative : Bool} {d : Decimal}
    (h : l.Spells negative d) :
    l.numeral? = (scale? 8 (double.decode (double.ofNat l.decimal.coefficient))
      l.decimal.exponent).map (.real negative) := by
  have hfew : digitsValue (l.whole ++ l.fraction) < wordLimit := h.few.trans (by decide +kernel)
  have hwhole : digitsValue l.whole ≤ digitsValue (l.whole ++ l.fraction) := by
    rw [digitsValue_append]
    exact (Nat.le_mul_of_pos_right _ (power_pos (by decide) _)).trans (Nat.le_add_right _ _)
  have hfirst : gather 0 l.whole = (digitsValue l.whole, 0) :=
    gather_eq_of_lt h.canonical.whole (hwhole.trans_lt hfew)
  have hsecond : gather (digitsValue l.whole) l.fraction =
      (digitsValue (l.whole ++ l.fraction), 0) := by
    have hvalue : l.fraction.foldl (fun n d => 10 * n + d) (digitsValue l.whole) =
        digitsValue (l.whole ++ l.fraction) := List.foldl_append.symm
    rw [gather_eq_of_lt h.canonical.fraction (by rwa [hvalue]), hvalue]
  have hsignificand : l.significand = (l.decimal.coefficient, -(l.fraction.length : ℤ)) := by
    simp [significand, hfirst, hsecond, decimal]
  have hdouble : l.double? =
      scale? 8 (double.decode (double.ofNat l.decimal.coefficient)) l.decimal.exponent := by
    unfold double?
    rw [hsignificand]
    cases hexponent : l.exponent with
    | none => simp [decimal, hexponent]
    | some e =>
      have hshort := h.short e hexponent
      simp only [decimal, hexponent, Option.map_some, Option.getD_some, if_neg hshort.not_ge]
      rw [neg_add_eq_sub]
  rw [numeral?, hdouble, h.sign]
  simp [h.broken]

/-- A scaled value is rounded once, if it is neither too small nor too large. -/
theorem exists_rescale?_eq {numerator denominator : ℕ} (hn : 0 < numerator) (hd : 0 < denominator)
    (hlow : (2 : ℚ) ^ (-1022 : ℤ) ≤ numerator / denominator)
    (hhigh : (numerator : ℚ) / denominator ≤ 2 ^ 255) :
    rescale? numerator denominator = some (double.decode (double.nearest numerator denominator)) ∧
      2 ^ 53 * |double.value (double.nearest numerator denominator) - numerator / denominator| ≤
        (numerator : ℚ) / denominator := by
  have hfinite : double.nearest numerator denominator < double.infinity := by
    have hbound : double.nearest (power 2 255) 1 < double.infinity := by decide +kernel
    refine (nearest_mono (by decide) hd one_pos (hhigh.trans_eq ?_)).trans_lt hbound
    norm_num
  refine ⟨by rw [rescale?, if_pos hfinite], ?_⟩
  have hmoved := double.abs_value_nearest_sub_le hn hd (least_double.trans_le hlow) hfinite
  rw [mul_comm]
  exact_mod_cast hmoved

/-- A power of ten is rounded by half of the last bit at most, and small ones are doubles. -/
theorem value_powerOfTen {n : ℕ} (hn : n ≤ 60) :
    2 ^ 53 * |(powerOfTen n).value - 10 ^ n| ≤ 10 ^ n ∧
      (n ≤ 22 → (powerOfTen n).value = 10 ^ n) := by
  have hbound : power 10 n ≤ power 10 60 := Nat.pow_le_pow_right (by decide) hn
  constructor
  · have hfinite : double.nearest (power 10 n) 1 < double.infinity :=
      (ofNat_mono (by decide) hbound).trans_lt (by decide +kernel)
    have hnormal : (2 : ℚ) ^ (-1022 : ℤ) ≤ (power 10 n : ℕ) / (1 : ℕ) := by
      rw [Nat.cast_one, div_one]
      exact (zpow_le_one_of_nonpos₀ one_le_two (by decide)).trans
        (by exact_mod_cast power_pos (by decide) n)
    have hmoved := double.abs_value_nearest_sub_le (power_pos (by decide) n) one_pos
      (least_double.trans_le hnormal) hfinite
    rw [Nat.cast_one, div_one, mul_comm] at hmoved
    exact_mod_cast hmoved
  · intro hsmall
    have hfits : double.Fits (power 10 n) := by
      refine ⟨power 5 n, n, ?_, by rw [← Nat.mul_pow]⟩
      exact (Nat.pow_le_pow_right (by decide) hsmall).trans_lt (by decide +kernel)
    have hlarge : ((power 10 n : ℕ) : ℚ) < 2 ^ 1024 := by
      calc ((power 10 n : ℕ) : ℚ) ≤ (power 10 60 : ℕ) := Nat.cast_le.mpr hbound
        _ < 2 ^ 200 := by norm_num
        _ < 2 ^ 1024 := pow_lt_pow_right₀ one_lt_two (by decide)
    have hvalue := value_double_ofNat hfits hlarge
    rw [powerOfTen]
    exact_mod_cast hvalue

/-! ### Errors -/

variable {f x d p t : ℚ}

/-- Two roundings, each by half of the last bit, move a value by little more than the last bit. -/
theorem close_of_steps (hd : 0 < d) (hlast : 2 ^ 53 * |f - x| ≤ x)
    (hfirst : 2 ^ 53 * |x - d| ≤ (1 + 2⁻¹ ^ 10) * d) : 2 ^ 54 * |f - d| ≤ 5 * d := by
  have htriangle := abs_sub_le f x d
  have hx := (abs_le.mp (le_refl |x - d|)).2
  norm_num at *
  linarith

/-- A factor that is rounded. -/
theorem mul_close (s : ℕ) (hp : 2 ^ 53 * |p - t| ≤ t) (ht : 0 < t) :
    2 ^ 53 * |s * p - s * t| ≤ (1 + 2⁻¹ ^ 10) * (s * t) := by
  have hs : (0 : ℚ) ≤ s := Nat.cast_nonneg s
  rw [← mul_sub, abs_mul, abs_of_nonneg hs, mul_left_comm]
  have hscaled := mul_le_mul_of_nonneg_left hp hs
  have hst : 0 ≤ s * t := by positivity
  norm_num at *
  linarith

/-- A divisor that is rounded. -/
theorem div_close (s : ℕ) (hp : 2 ^ 53 * |p - t| ≤ t) (ht : 0 < t) :
    2 ^ 53 * |s / p - s / t| ≤ (1 + 2⁻¹ ^ 10) * (s / t) := by
  have hbounds := abs_le.mp (show |p - t| ≤ t / 2 ^ 53 by
    rw [le_div_iff₀ (by positivity)]
    linarith)
  have hpos : 0 < p := by
    norm_num at hbounds
    linarith
  have hs : (0 : ℚ) ≤ s := Nat.cast_nonneg s
  have hdifference : (s : ℚ) / p - s / t = s / t * ((t - p) / p) := by
    field_simp
  have hquotient : 2 ^ 53 * |(t - p) / p| ≤ 1 + 2⁻¹ ^ 10 := by
    rw [abs_div, abs_of_pos hpos, mul_div_assoc', div_le_iff₀ hpos, abs_sub_comm]
    norm_num at *
    linarith
  rw [hdifference, abs_mul, abs_of_nonneg (div_nonneg hs ht.le), mul_left_comm,
    mul_comm (1 + _)]
  exact mul_le_mul_of_nonneg_left hquotient (div_nonneg hs ht.le)

/-- A rounded power of ten is not far from the power of ten. -/
theorem powerOfTen_bounds {n : ℕ} (hn : n ≤ 60) :
    1 / 2 ≤ (powerOfTen n).value ∧ (powerOfTen n).value ≤ 2 ^ 201 := by
  have hbounds := abs_le.mp (show |(powerOfTen n).value - 10 ^ n| ≤ 10 ^ n / 2 ^ 53 by
    rw [le_div_iff₀ (by positivity), mul_comm]
    exact (value_powerOfTen hn).1)
  have hlow : (1 : ℚ) ≤ 10 ^ n := one_le_pow₀ (by norm_num)
  have hhigh : (10 : ℚ) ^ n ≤ 2 ^ 200 :=
    (pow_le_pow_right₀ (by norm_num) hn).trans (by norm_num)
  norm_num at *
  constructor <;> linarith

theorem numerator_pos {s : Scaled} (h : 0 < s.value) : 0 < s.numerator := by
  by_contra hzero
  rw [Scaled.value_eq, Nat.le_zero.mp (Nat.not_lt.mp hzero), Nat.cast_zero, zero_div] at h
  exact lt_irrefl _ h

/-- The double that is read for a decimal is close to it, and the decimal itself if that is a double
and the power of ten is small. -/
structure Reads (s : Scaled) (n : ℕ) (k : ℤ) : Prop where
  close : 2 ^ 54 * |s.value - n * 10 ^ k| ≤ 5 * (n * 10 ^ k)
  exact : k.natAbs ≤ 22 → ∀ pattern < double.infinity, (n * 10 ^ k : ℚ) = double.value pattern →
    s.value = n * 10 ^ k

/-- A quotient that is close to a decimal is rounded to what is read for it. -/
theorem exists_reads_of_rescale? {numerator denominator n : ℕ} {k : ℤ} (hpos : 0 < n)
    (hn : 0 < numerator) (hd : 0 < denominator) (hlow : 1 / 2 ^ 255 ≤ (numerator : ℚ) / denominator)
    (hhigh : (numerator : ℚ) / denominator ≤ 2 ^ 255)
    (hclose : 2 ^ 53 * |(numerator : ℚ) / denominator - n * 10 ^ k| ≤
      (1 + 2⁻¹ ^ 10) * (n * 10 ^ k))
    (hexact : k.natAbs ≤ 22 → (numerator : ℚ) / denominator = n * 10 ^ k) :
    ∃ s, rescale? numerator denominator = some s ∧ Reads s n k := by
  have hleast : (2 : ℚ) ^ (-1022 : ℤ) ≤ numerator / denominator := by
    refine le_trans ?_ hlow
    rw [one_div, ← zpow_natCast, ← zpow_neg]
    exact zpow_le_zpow_right₀ one_le_two (by decide)
  obtain ⟨hread, hmoved⟩ := exists_rescale?_eq hn hd hleast hhigh
  refine ⟨_, hread, close_of_steps (by positivity) hmoved hclose,
    fun hsmall pattern hfinite hsame => ?_⟩
  have hvalue : (numerator : ℚ) / denominator = double.value pattern := (hexact hsmall).trans hsame
  rw [hsame, nearest_of_eq_value (by decide) hd hfinite hvalue]
  rfl

/-- A number of few digits is scaled to a double that is close to what it spells. -/
theorem exists_reads {n : ℕ} {k : ℤ} (hpos : 0 < n) (hfew : n < power 2 53)
    (hk : k.natAbs ≤ 60) :
    ∃ s, scale? 8 (double.decode (double.ofNat n)) k = some s ∧ Reads s n k := by
  have hfits : double.Fits n := ⟨n, 0, hfew, (Nat.mul_one n).symm⟩
  have hone : (1 : ℚ) ≤ n := by exact_mod_cast hpos
  have hlimit : (n : ℚ) ≤ 2 ^ 53 := by exact_mod_cast hfew.le
  have hvalue : (double.decode (double.ofNat n)).value = n :=
    value_double_ofNat hfits (hlimit.trans_lt (pow_lt_pow_right₀ one_lt_two (by decide)))
  generalize double.decode (double.ofNat n) = v at hvalue ⊢
  have hv : 0 < v.numerator := numerator_pos (by rw [hvalue]; linarith)
  obtain ⟨i, hi⟩ := k.eq_nat_or_neg
  have hi60 : i ≤ 60 := by omega
  obtain ⟨hrounded, hsmall⟩ := value_powerOfTen hi60
  obtain ⟨hlow, hhigh⟩ := powerOfTen_bounds hi60
  have hp : 0 < (powerOfTen i).numerator := numerator_pos (by linarith)
  rcases lt_or_ge k 0 with hneg | hnonneg
  · obtain rfl : k = -i := by omega
    have hquotient := value_div_value v (powerOfTen i)
    rw [hvalue] at hquotient
    have hdecimal : (n : ℚ) * 10 ^ (-(i : ℤ)) = n / 10 ^ i := by
      rw [zpow_neg, zpow_natCast, div_eq_mul_inv]
    rw [scale?_of_neg 7 v hneg (by omega), neg_neg, Int.toNat_natCast]
    refine exists_reads_of_rescale? hpos (Nat.mul_pos hv (powerOfTen i).denominator_pos)
      (Nat.mul_pos v.denominator_pos hp) ?_ ?_ ?_ fun h => ?_ <;> rw [← hquotient]
    · calc (1 : ℚ) / 2 ^ 255 ≤ 1 / 2 ^ 201 := by norm_num
        _ ≤ n / (powerOfTen i).value := div_le_div₀ (by positivity) hone (by linarith) hhigh
    · calc (n : ℚ) / (powerOfTen i).value ≤ 2 ^ 53 / (1 / 2) :=
            div_le_div₀ (by positivity) hlimit (by norm_num) hlow
        _ ≤ 2 ^ 255 := by norm_num
    · rw [hdecimal]
      exact div_close n hrounded (by positivity)
    · rw [hdecimal, hsmall (by omega)]
  · obtain rfl : k = i := by omega
    have hquotient := value_mul_value v (powerOfTen i)
    rw [hvalue] at hquotient
    rw [scale?_of_nonneg 7 v hnonneg, if_pos (by omega), Int.toNat_natCast]
    refine exists_reads_of_rescale? hpos (Nat.mul_pos hv hp)
      (Nat.mul_pos v.denominator_pos (powerOfTen i).denominator_pos) ?_ ?_ ?_ fun h => ?_ <;>
        rw [← hquotient]
    · calc (1 : ℚ) / 2 ^ 255 ≤ 1 * (1 / 2) := by norm_num
        _ ≤ n * (powerOfTen i).value := mul_le_mul hone hlow (by norm_num) (by positivity)
    · calc (n : ℚ) * (powerOfTen i).value ≤ 2 ^ 53 * 2 ^ 201 :=
            mul_le_mul hlimit hhigh (by linarith) (by positivity)
        _ ≤ 2 ^ 255 := by norm_num
    · rw [zpow_natCast]
      exact mul_close n hrounded (by positivity)
    · rw [zpow_natCast, hsmall (by omega)]

end Literal

end DspHost
