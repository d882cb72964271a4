import DspHost.Number.Shortest
import DspHost.Proofs.Json.Numerals
import DspHost.Proofs.Number.Gaps

/-!
# What a laid out number spells

Digits are laid out around a point, with zeros that are filled in, or with an exponent behind them.
However they are laid out, they spell the number that they were given for. The layout of documents
always has a point or an exponent, and it fills in few zeros.

## Main definitions

* `Decimal.value` — the exact value of a decimal
* `Literal.Spells` — what a literal in a document looks like and is worth

## Main results

* `Decimal.normalize_spec` — zeros at the end are moved into the exponent
* `Layout.value_positional` — digits around a point are worth what they were laid out for
* `Layout.spells_literal` — the literals of documents
-/

namespace DspHost

/-! ### Digits and their number -/

theorem foldl_digits_eq (digits : List ℕ) (n : ℕ) :
    digits.foldl (fun n d => 10 * n + d) n = n * power 10 digits.length + digitsValue digits := by
  induction digits generalizing n with
  | nil => simp [digitsValue]
  | cons d digits ih =>
    have hvalue : digitsValue (d :: digits) = d * power 10 digits.length + digitsValue digits := by
      rw [digitsValue, List.foldl_cons, ih, Nat.mul_zero, Nat.zero_add]
    rw [List.foldl_cons, ih, hvalue, List.length_cons, power_succ]
    ring

theorem digitsValue_append (digits digits' : List ℕ) :
    digitsValue (digits ++ digits') =
      digitsValue digits * power 10 digits'.length + digitsValue digits' := by
  rw [digitsValue, List.foldl_append, foldl_digits_eq]
  rfl

theorem digitsValue_replicate_zero (n : ℕ) : digitsValue (List.replicate n 0) = 0 := by
  induction n with
  | zero => rfl
  | succ n ih => rw [List.replicate_succ', digitsValue_concat, ih]

/-- The digits of a number: there are as many as its size asks for. -/
theorem decimalDigits_spec {n : ℕ} (hn : 0 < n) :
    (∀ d ∈ decimalDigits n, d < 10) ∧ (∃ d ds, decimalDigits n = d :: ds ∧ d ≠ 0) ∧
      n < power 10 (decimalDigits n).length ∧ power 10 ((decimalDigits n).length - 1) ≤ n := by
  obtain ⟨hdigits, d, ds, hds, hfirst⟩ := decimalDigitsWithin_spec (le_refl n)
  have hvalue := digitsValue_decimalDigits n
  change decimalDigits n = d :: ds at hds
  have hd : d ≠ 0 := by
    rintro rfl
    rw [hds, hfirst rfl] at hvalue
    exact absurd hvalue (Nat.ne_of_lt hn)
  refine ⟨hdigits, ⟨d, ds, hds, hd⟩, ?_, ?_⟩
  · have hbound := (foldl_digits_bounds hdigits 0).2
    change digitsValue (decimalDigits n) < (0 + 1) * power 10 (decimalDigits n).length at hbound
    rwa [hvalue, Nat.zero_add, Nat.one_mul] at hbound
  · have hrest : ∀ e ∈ ds, e < 10 := fun e he => hdigits e (by
      rw [← decimalDigits, hds]
      exact List.mem_cons_of_mem d he)
    have hlow := (foldl_digits_bounds hrest d).1
    rw [hds] at hvalue ⊢
    rw [← hvalue, digitsValue, List.foldl_cons, Nat.mul_zero, Nat.zero_add]
    exact (Nat.le_mul_of_pos_left _ (Nat.pos_of_ne_zero hd)).trans hlow

/-! ### Exact values -/

namespace Decimal

/-- The exact value as a rational number. -/
def value (d : Decimal) : ℚ := d.coefficient * 10 ^ d.exponent

/-- Zeros at the end of a coefficient are moved into the exponent. -/
theorem normalize_spec (fuel : ℕ) (d : Decimal) :
    (normalize fuel d).value = d.value ∧ (normalize fuel d).coefficient ≤ d.coefficient ∧
      (0 < d.coefficient → 0 < (normalize fuel d).coefficient) ∧
        d.exponent ≤ (normalize fuel d).exponent ∧
          (normalize fuel d).exponent ≤ d.exponent + fuel := by
  induction fuel generalizing d with
  | zero => exact ⟨rfl, le_refl _, id, le_refl _, by simp [normalize]⟩
  | succ fuel ih =>
    rw [normalize]
    split_ifs with hzero
    · obtain ⟨hvalue, hcoefficient, hpos, hlow, hhigh⟩ := ih ⟨d.coefficient / 10, d.exponent + 1⟩
      dsimp only at hcoefficient hpos hlow hhigh
      refine ⟨?_, by omega, fun h => hpos (by omega), by omega, by push_cast; omega⟩
      have hsplit : d.coefficient = d.coefficient / 10 * 10 := by omega
      rw [hvalue, value, value, zpow_add_one₀ (by norm_num)]
      nth_rewrite 2 [hsplit]
      push_cast
      ring
    · exact ⟨rfl, le_refl _, id, le_refl _, by push_cast; omega⟩

end Decimal

namespace Layout

/-- The digits of a whole number around a point: zeros are filled in behind them. -/
theorem positional_of_nonneg (l : Layout) (negative : Bool) (coefficient e : ℕ) :
    l.positional negative ⟨coefficient, e⟩ =
      ⟨negative, decimalDigits coefficient ++ List.replicate e 0,
        if l.pointZero then [0] else [], none⟩ := by
  simp [positional]

/-- Digits around a point are worth the decimal that they were laid out for. -/
theorem value_positional (l : Layout) (negative : Bool) (d : Decimal) :
    (l.positional negative d).decimal.value = d.value := by
  obtain ⟨coefficient, exponent⟩ := d
  rcases lt_or_ge exponent 0 with hfraction | hwhole
  · obtain ⟨places, rfl⟩ : ∃ places : ℕ, exponent = -places := ⟨(-exponent).toNat, by omega⟩
    have hlength : places ≤ (List.replicate (places + 1 - (decimalDigits coefficient).length) 0 ++
        decimalDigits coefficient).length := by
      rw [List.length_append, List.length_replicate]
      omega
    simp only [positional, hfraction.not_ge, if_false, Literal.decimal, List.take_append_drop,
      List.length_drop, neg_neg, Int.toNat_natCast, Nat.sub_sub_self hlength,
      digitsValue_append, digitsValue_replicate_zero, digitsValue_decimalDigits, Decimal.value]
    simp
  · obtain ⟨e, rfl⟩ := Int.eq_ofNat_of_zero_le hwhole
    rw [positional_of_nonneg]
    simp only [Literal.decimal, digitsValue_append, digitsValue_replicate_zero,
      digitsValue_decimalDigits, List.length_replicate, Decimal.value, zpow_natCast]
    cases l.pointZero <;> simp [digitsValue, zpow_neg]

/-- Digits with an exponent behind them are the decimal that they were laid out for. -/
theorem decimal_scientific (negative : Bool) (d : Decimal) :
    (scientific negative d).decimal = d := by
  have hsign (p : ℤ) : Exponent.value ⟨decide (p < 0), p.natAbs⟩ = p := by
    simp only [Exponent.value, decide_eq_true_eq]
    split_ifs <;> omega
  simp only [scientific, Literal.decimal, List.take_append_drop, digitsValue_decimalDigits,
    Option.map_some, Option.getD_some, hsign, List.length_drop, add_sub_cancel_right]

end Layout

/-! ### Literals of documents -/

/-- What the literal of a number in a document looks like and is worth: it has a point or an
exponent, its digits fit a double, and it is worth the decimal that it spells. -/
structure Literal.Spells (l : Literal) (negative : Bool) (d : Decimal) : Prop where
  canonical : l.Canonical
  sign : l.negative = negative
  broken : l.isInteger = false
  value : l.decimal.value = d.value
  few : l.decimal.coefficient < power 2 53
  place : l.decimal.exponent = d.exponent ∨ l.decimal.exponent = -1
  short : ∀ e ∈ l.exponent, e.magnitude < power 2 31

namespace Layout

variable {negative : Bool} {coefficient : ℕ}

/-- A whole number in a document ends in a zero behind the point. -/
theorem spells_positional_of_nonneg {e : ℕ} (hpos : 0 < coefficient)
    (hplain : (e : ℤ) + ((decimalDigits coefficient).length - 1 : ℕ) ≤ 12) :
    (document.positional negative ⟨coefficient, e⟩).Spells negative ⟨coefficient, e⟩ := by
  obtain ⟨hdigits, ⟨d, ds, hds, hd⟩, hlength, -⟩ := decimalDigits_spec hpos
  have hvalue := document.value_positional negative ⟨coefficient, e⟩
  rw [positional_of_nonneg] at hvalue ⊢
  refine ⟨⟨?_, ⟨d, ds ++ List.replicate e 0, by rw [hds]; rfl, fun h => absurd h hd⟩, ?_⟩, rfl, rfl,
    hvalue, ?_, .inr rfl, by simp⟩
  · intro c hc
    rcases List.mem_append.mp hc with hc | hc
    · exact hdigits c hc
    · rw [List.eq_of_mem_replicate hc]
      decide
  · simp [document]
  · have hzeros : (decimalDigits coefficient).length + e + 1 ≤ 14 := by
      rw [hds] at hplain ⊢
      simp only [List.length_cons] at hplain ⊢
      omega
    calc _ = coefficient * power 10 e * 10 := by
          simp only [Literal.decimal, document, if_true, digitsValue_append,
            digitsValue_replicate_zero, digitsValue_decimalDigits, List.length_replicate]
          simp [digitsValue]
      _ < power 10 (decimalDigits coefficient).length * power 10 e * 10 := by
          have := power_pos (show 0 < 10 by decide) e
          gcongr
      _ = power 10 ((decimalDigits coefficient).length + e + 1) := by
          rw [power_succ]
          exact congrArg (· * 10) (Nat.pow_add 10 _ e).symm
      _ ≤ power 10 14 := Nat.pow_le_pow_right (by decide) hzeros
      _ < power 2 53 := by decide +kernel

/-- A fraction in a document has at least one digit before the point. -/
theorem spells_positional_of_neg {places : ℕ} (hpos : 0 < coefficient) (hplaces : 0 < places)
    (hfew : coefficient < power 2 53) :
    (document.positional negative ⟨coefficient, -places⟩).Spells negative
      ⟨coefficient, -places⟩ := by
  obtain ⟨hdigits, ⟨d, ds, hds, hd⟩, -, -⟩ := decimalDigits_spec hpos
  have hvalue := document.value_positional negative ⟨coefficient, -places⟩
  have hfraction : ¬(0 : ℤ) ≤ -places := by omega
  simp only [positional, hfraction, if_false, neg_neg, Int.toNat_natCast] at hvalue ⊢
  generalize hpadded : List.replicate (places + 1 - (decimalDigits coefficient).length) 0 ++
    decimalDigits coefficient = padded at hvalue ⊢
  have hlow : ∀ c ∈ padded, c < 10 := by
    intro c hc
    rcases List.mem_append.mp (hpadded ▸ hc) with hc | hc
    · rw [List.eq_of_mem_replicate hc]
      decide
    · exact hdigits c hc
  have hlength : padded.length = places + 1 - (decimalDigits coefficient).length +
      (decimalDigits coefficient).length := by
    rw [← hpadded, List.length_append, List.length_replicate]
  have hcoefficient : digitsValue padded = coefficient := by
    rw [← hpadded, digitsValue_append, digitsValue_replicate_zero, digitsValue_decimalDigits,
      Nat.zero_mul, Nat.zero_add]
  have hfirst : ∃ c cs, padded.take (padded.length - places) = c :: cs ∧ (c = 0 → cs = []) := by
    rcases Nat.eq_zero_or_pos (places + 1 - (decimalDigits coefficient).length) with hnone | hsome
    · -- No zeros are filled in, so the first digit is that of the number.
      rw [hnone, List.replicate_zero, List.nil_append, hds] at hpadded
      obtain ⟨n, hn⟩ := Nat.exists_eq_succ_of_ne_zero (show padded.length - places ≠ 0 by omega)
      exact ⟨d, ds.take n, by rw [hn, ← hpadded]; rfl, fun h => absurd h hd⟩
    · have hone : padded.length - places = 1 := by omega
      obtain ⟨n, hn⟩ := Nat.exists_eq_succ_of_ne_zero hsome.ne'
      rw [hn, List.replicate_succ, List.cons_append] at hpadded
      exact ⟨0, [], by rw [hone, ← hpadded]; rfl, fun _ => rfl⟩
  have hdrop : (padded.drop (padded.length - places)).length = places := by
    rw [List.length_drop]
    omega
  refine ⟨⟨fun c hc => hlow c (List.mem_of_mem_take hc), hfirst,
    fun c hc => hlow c (List.mem_of_mem_drop hc)⟩, rfl, ?_, hvalue, ?_, .inl ?_, by simp⟩
  · have hne : padded.drop (padded.length - places) ≠ [] := by
      intro h
      rw [h] at hdrop
      exact absurd hdrop hplaces.ne
    simp [Literal.isInteger, hne]
  · rwa [Literal.decimal, List.take_append_drop, hcoefficient]
  · simp [Literal.decimal, hdrop]

/-- Other numbers have an exponent. -/
theorem spells_scientific {exponent : ℤ} (hpos : 0 < coefficient) (hfew : coefficient < power 2 53)
    (hexponent : exponent.natAbs ≤ 100) :
    (scientific negative ⟨coefficient, exponent⟩).Spells negative ⟨coefficient, exponent⟩ := by
  obtain ⟨hdigits, ⟨d, ds, hds, hd⟩, -, hlength⟩ := decimalDigits_spec hpos
  have hdecimal := decimal_scientific negative ⟨coefficient, exponent⟩
  have hshort : (decimalDigits coefficient).length - 1 < 16 := by
    by_contra hlong
    have hlarge : power 10 16 ≤ power 10 ((decimalDigits coefficient).length - 1) :=
      Nat.pow_le_pow_right (by decide) (Nat.not_lt.mp hlong)
    have hbound : power 2 53 < power 10 16 := by decide +kernel
    omega
  refine ⟨⟨fun c hc => hdigits c (List.mem_of_mem_take hc), ⟨d, [], ?_, fun h => absurd h hd⟩,
    fun c hc => hdigits c (List.mem_of_mem_drop hc)⟩, rfl, ?_, by rw [hdecimal], by rwa [hdecimal],
    .inl (by rw [hdecimal]), ?_⟩
  · simp only [scientific, hds]
    rfl
  · simp [scientific, Literal.isInteger]
  · intro e he
    obtain rfl := Option.some.inj he
    dsimp only
    have h31 : power 2 31 = 2147483648 := rfl
    omega

/-- The literal of a number in a document. -/
theorem spells_literal {exponent : ℤ} (hpos : 0 < coefficient) (hfew : coefficient < power 2 53)
    (hexponent : exponent.natAbs ≤ 100) :
    (document.literal negative ⟨coefficient, exponent⟩).Spells negative
      ⟨coefficient, exponent⟩ := by
  simp only [literal, document]
  split_ifs with hplain
  · obtain ⟨-, hmost⟩ := hplain.resolve_left hpos.ne'
    rcases lt_or_ge exponent 0 with hfraction | hwhole
    · obtain ⟨places, rfl⟩ : ∃ places : ℕ, exponent = -places := ⟨(-exponent).toNat, by omega⟩
      exact spells_positional_of_neg hpos (by omega) hfew
    · obtain ⟨e, rfl⟩ := Int.eq_ofNat_of_zero_le hwhole
      exact spells_positional_of_nonneg hpos hmost
  · exact spells_scientific hpos hfew hexponent

end Layout

end DspHost
