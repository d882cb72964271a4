import DspHost.Json.Numeral
import DspHost.Proofs.Json.RoundTrip
import DspHost.Proofs.Number.Whole

/-!
# The digits that a number literal keeps

A literal that is no word is a double. Its digits are taken as long as they fit a word, and the
double nearest to them is scaled by the double nearest to a power of ten. So a literal of few digits
keeps them all, and of a longer one what is dropped is less than one unit of the last digit kept.

## Main results

* `Literal.gather_eq_of_lt`, `Literal.gather_spec` — the digits that are taken
* `Literal.le_value_of_rescale?` — a scaled value is rounded once, and rounding keeps the order
* `Literal.numeral?_ofNat` — the value of a whole number that is no word
-/

namespace DspHost

theorem wordLimit_pos : 0 < wordLimit := power_pos two_pos 64

/-! ### Digits -/

/-- Digits behind a number shift it, and the next number is not reached. -/
theorem foldl_digits_bounds {digits : List ℕ} (h : ∀ d ∈ digits, d < 10) (n : ℕ) :
    n * power 10 digits.length ≤ digits.foldl (fun n d => 10 * n + d) n ∧
      digits.foldl (fun n d => 10 * n + d) n < (n + 1) * power 10 digits.length := by
  induction digits generalizing n with
  | nil => simp
  | cons d digits ih =>
    obtain ⟨hd, hdigits⟩ := List.forall_mem_cons.mp h
    obtain ⟨hlow, hhigh⟩ := ih hdigits (10 * n + d)
    rw [List.foldl_cons, List.length_cons, power_succ]
    have hpos := power_pos (show 0 < 10 by decide) digits.length
    constructor <;> nlinarith

namespace Literal

/-- Digits that fit a word are all taken. -/
theorem gather_eq_of_lt {digits : List ℕ} (h : ∀ d ∈ digits, d < 10) {n : ℕ}
    (hfits : digits.foldl (fun n d => 10 * n + d) n < wordLimit) :
    gather n digits = (digits.foldl (fun n d => 10 * n + d) n, 0) := by
  induction digits generalizing n with
  | nil => rfl
  | cons d digits ih =>
    obtain ⟨-, hdigits⟩ := List.forall_mem_cons.mp h
    rw [List.foldl_cons] at hfits ⊢
    have hnext : 10 * n + d < wordLimit :=
      (Nat.le_mul_of_pos_right _ (power_pos (by decide) _)).trans
        (foldl_digits_bounds hdigits _).1 |>.trans_lt hfits
    rw [gather, if_pos hnext, ih hdigits hfits]

/-- As many digits are taken as fit a word. -/
theorem gather_spec {digits : List ℕ} (h : ∀ d ∈ digits, d < 10) {n : ℕ} (hn : n < wordLimit) :
    ∃ kept dropped, gather n digits = (kept, dropped) ∧ kept < wordLimit ∧
      kept * power 10 dropped ≤ digits.foldl (fun n d => 10 * n + d) n ∧
      digits.foldl (fun n d => 10 * n + d) n < (kept + 1) * power 10 dropped ∧
      (dropped = 0 ∨ wordLimit ≤ 10 * kept + 9) := by
  induction digits generalizing n with
  | nil => exact ⟨n, 0, rfl, hn, by simp, by simp, .inl rfl⟩
  | cons d digits ih =>
    obtain ⟨hd, hdigits⟩ := List.forall_mem_cons.mp h
    by_cases hnext : 10 * n + d < wordLimit
    · rw [gather, if_pos hnext]
      exact ih hdigits hnext
    · obtain ⟨hlow, hhigh⟩ := foldl_digits_bounds h n
      exact ⟨n, digits.length + 1, by rw [gather, if_neg hnext], hn, hlow, hhigh, .inr (by omega)⟩

/-! ### Scaling -/

variable {numerator denominator : ℕ} {s : Scaled}

/-- What is rescaled keeps its order with the whole numbers. -/
theorem le_value_of_rescale? (hd : 0 < denominator)
    (hs : rescale? numerator denominator = some s) {q : ℕ}
    (hq : (q : ℚ) ≤ numerator / denominator) :
    Format.double.value (Format.double.ofNat q) ≤ s.value := by
  simp only [rescale?] at hs
  split at hs
  · obtain rfl := Option.some.inj hs
    refine Format.double.value_strictMono.monotone ?_
    exact Format.nearest_mono (by decide) one_pos hd (by rwa [Nat.cast_one, div_one])
  · cases hs

/-- A quotient of values as a quotient of natural numbers. -/
theorem value_div_value (s t : Scaled) :
    s.value / t.value = (s.numerator * t.denominator : ℕ) / (s.denominator * t.numerator : ℕ) := by
  rw [Scaled.value_eq, Scaled.value_eq, div_div_div_eq]
  push_cast
  rfl

/-- A product of values as a quotient of natural numbers. -/
theorem value_mul_value (s t : Scaled) :
    s.value * t.value = (s.numerator * t.numerator : ℕ) / (s.denominator * t.denominator : ℕ) := by
  rw [Scaled.value_eq, Scaled.value_eq, div_mul_div_comm]
  push_cast
  rfl

/-- A value is scaled up in one step. -/
theorem scale?_of_nonneg (fuel : ℕ) (value : Scaled) {exponent : ℤ} (h : 0 ≤ exponent) :
    scale? (fuel + 1) value exponent =
      if exponent ≤ 308 then
        rescale? (value.numerator * (powerOfTen exponent.toNat).numerator)
          (value.denominator * (powerOfTen exponent.toNat).denominator)
      else if value.mantissa = 0 then some value else none :=
  if_pos h

/-- A value is scaled down in one step, if that is not too far. -/
theorem scale?_of_neg (fuel : ℕ) (value : Scaled) {exponent : ℤ} (h : exponent < 0)
    (hlow : -308 ≤ exponent) :
    scale? (fuel + 1) value exponent =
      rescale? (value.numerator * (powerOfTen (-exponent).toNat).denominator)
        (value.denominator * (powerOfTen (-exponent).toNat).numerator) :=
  (if_neg h.not_ge).trans (if_pos hlow)

/-- The value of a whole number that is no word: the digits that fit, scaled. -/
theorem numeral?_ofNat {n : ℕ} (hn : wordLimit ≤ n) : ∃ kept dropped : ℕ,
    (ofNat n).numeral? = ((scale? 8 (Format.double.decode (Format.double.ofNat kept)) dropped).map
      (.real false)) ∧
    0 < dropped ∧ wordLimit ≤ 10 * kept + 9 ∧ kept * power 10 dropped ≤ n ∧
      n < (kept + 1) * power 10 dropped := by
  obtain ⟨hdigits, -⟩ := decimalDigitsWithin_spec (le_refl n)
  have hvalue : (decimalDigits n).foldl (fun n d => 10 * n + d) 0 = n := digitsValue_decimalDigits n
  obtain ⟨kept, dropped, hgather, hword, hlow, hhigh, hkept⟩ := gather_spec hdigits wordLimit_pos
  change gather 0 (decimalDigits n) = _ at hgather
  change kept * _ ≤ (decimalDigits n).foldl _ 0 at hlow
  change (decimalDigits n).foldl _ 0 < _ at hhigh
  rw [hvalue] at hlow hhigh
  have hdropped : dropped ≠ 0 := by
    rintro rfl
    rw [power_zero, Nat.mul_one] at hlow hhigh
    omega
  have hsignificand : (ofNat n).significand = (kept, (dropped : ℤ)) := by
    simp [significand, ofNat, gather, hgather]
  refine ⟨kept, dropped, ?_, Nat.pos_of_ne_zero hdropped, hkept.resolve_left hdropped, hlow, hhigh⟩
  have hnone : ¬ digitsValue (ofNat n).whole < wordLimit := by
    rw [ofNat, digitsValue_decimalDigits]
    exact hn.not_gt
  rw [numeral?, double?, hsignificand]
  simp only
  rw [if_neg fun h => hnone h.2.2, if_neg (by simp [ofNat])]
  rfl

end Literal

end DspHost
