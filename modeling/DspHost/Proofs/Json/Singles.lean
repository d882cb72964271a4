import DspHost.Metadata.Document
import DspHost.Proofs.Number.Patterns
import DspHost.Proofs.Number.Scaling
import DspHost.Proofs.Number.Shortest

/-!
# Singles are read back

A finite single is written with the fewest digits that round to it. It is read through a double
that is not quite the nearest one to these digits, and then rounded again. Still it is read back:
the digits would have to come closer to a midpoint of two singles than the double is off, and they
do not, but for a few decimals that are read right.

## Main results

* `nearest_eq_of_close` — the double that is read for the digits rounds to the single
* `Json.lenientSingle?_ofSingle` — a finite single is read back, and no other
-/

namespace DspHost

open Format

variable {pattern n m : ℕ} {k q : ℤ} {s : Scaled}

/-- A double on the other side of a midpoint than the digits, which it is read for, can only be on
the midpoint, and so can the digits. -/
theorem eq_midpoint_of_close
    (hread : 2 ^ 54 * |s.value - n * 10 ^ k| ≤ 5 * (n * 10 ^ k : ℚ)) (hchosen : Chosen pattern n k)
    (hnone : ⟨n, k⟩ ∉ closeDecimals) (hm : m < power 2 25)
    (hway : 4 * |(n * 10 ^ k - m * 2 ^ q : ℚ)| ≤ 2 ^ q → (2 : ℚ) ^ q ≤ 10 ^ k)
    (hpast : |(n * 10 ^ k - m * 2 ^ q : ℚ)| ≤ |s.value - n * 10 ^ k|) :
    k.natAbs ≤ 10 ∧ (n * 10 ^ k : ℚ) = m * 2 ^ q := by
  have hclose : 2 ^ 54 * |(n * 10 ^ k - m * 2 ^ q : ℚ)| ≤ 5 * (n * 10 ^ k) :=
    (mul_le_mul_of_nonneg_left hpast (by positivity)).trans hread
  have hunit : (0 : ℚ) < 2 ^ q := by positivity
  have hm' : (m : ℚ) * 2 ^ q ≤ 2 ^ 25 * 2 ^ q :=
    mul_le_mul_of_nonneg_right (by exact_mod_cast hm.le) hunit.le
  have hdecimal := (abs_le.mp (le_refl |(n * 10 ^ k - m * 2 ^ q : ℚ)|)).2
  refine (eq_or_mem_of_close hchosen.low hchosen.high hchosen.pos hm (hway ?_) hclose).resolve_right
    hnone
  norm_num at *
  linarith

/-- A midpoint between two singles is a double. -/
theorem exists_midpoint_eq_value (hpattern : pattern < single.infinity) :
    ∃ p < double.infinity, single.midpoint pattern = double.value p := by
  obtain ⟨m, q, hleast, hm, hmidpoint, -, -⟩ := single.exists_midpoint_eq pattern
  obtain ⟨i, hi⟩ : ∃ i : ℕ, double.leastExponent + i = q := by
    have hsingle : single.leastExponent = -149 := by decide
    have hdouble : double.leastExponent = -1074 := by decide
    exact ⟨(q + 1074).toNat, by omega⟩
  obtain ⟨p, hp⟩ := double.exists_value_eq (hm.trans (by decide +kernel)) i
  rw [hi, ← hmidpoint] at hp
  refine ⟨p, double.value_strictMono.lt_iff_lt.mp ?_, hp.symm⟩
  calc double.value p < single.value (pattern + 1) := hp ▸ single.midpoint_lt_value pattern
    _ ≤ single.value single.infinity := single.value_strictMono.monotone hpattern
    _ = 2 ^ 128 := value_single_infinity
    _ < 2 ^ 1024 := pow_lt_pow_right₀ one_lt_two (by decide)
    _ = double.value double.infinity := value_double_infinity.symm

/-- The double that is read for the digits of a single rounds to the single. -/
theorem nearest_eq_of_close
    (hread : 2 ^ 54 * |s.value - n * 10 ^ k| ≤ 5 * (n * 10 ^ k : ℚ))
    (hexact : k.natAbs ≤ 10 → ∀ p < double.infinity, (n * 10 ^ k : ℚ) = double.value p →
      s.value = n * 10 ^ k)
    (hpattern : pattern + 1 < single.infinity) (hchosen : Chosen pattern n k)
    (hnone : ⟨n, k⟩ ∉ closeDecimals) : single.nearest s.numerator s.denominator = pattern + 1 := by
  have hquotient : (s.numerator : ℚ) / s.denominator = s.value := s.value_eq.symm
  -- If the digits and the double are the same midpoint, then they round to the same pattern.
  have hsame {p : ℕ} (hp : p < single.infinity)
      (heq : k.natAbs ≤ 10 ∧ (n * 10 ^ k : ℚ) = single.midpoint p) :
      single.nearest s.numerator s.denominator = pattern + 1 := by
    obtain ⟨p', hp', hdouble⟩ := exists_midpoint_eq_value hp
    have hvalue := hexact heq.1 p' hp' (heq.2.trans hdouble)
    rw [← hchosen.nearest]
    refine nearest_congr (by decide) s.denominator_pos (power_pos (by decide) _) ?_
    rw [hquotient, hvalue, ten_zpow_eq, Nat.cast_mul, mul_div_assoc]
  obtain ⟨hlow, hhigh⟩ := hchosen.ends
  apply le_antisymm
  · by_contra hgreater
    have hpast : single.midpoint (pattern + 1) ≤ s.value := by
      rw [← hquotient]
      exact ((lt_nearest_iff (by decide) s.denominator_pos hpattern).mp
        (Nat.not_le.mp hgreater)).elim le_of_lt (·.1.ge)
    obtain ⟨m, q, -, hm, hmidpoint, hway, -⟩ := single.exists_midpoint_eq (pattern + 1)
    have heq := eq_midpoint_of_close (q := q) hread hchosen hnone hm ?_ ?_
    · rw [← hmidpoint] at heq
      exact hgreater (hsame hpattern heq).le
    · rw [← hmidpoint, abs_sub_comm, abs_of_nonneg (sub_nonneg.mpr hhigh), ← hway]
      exact hchosen.behind
    · rw [← hmidpoint, abs_sub_comm, abs_of_nonneg (sub_nonneg.mpr hhigh)]
      exact (sub_le_sub_right hpast _).trans (le_abs_self _)
  · by_contra hless
    have hfinite : pattern < single.infinity := Nat.lt_of_succ_lt hpattern
    have hpast : s.value ≤ single.midpoint pattern := by
      rw [← hquotient]
      exact ((nearest_le_iff (by decide) s.denominator_pos hfinite).mp
        (Nat.lt_succ_iff.mp (Nat.not_le.mp hless))).elim le_of_lt (·.1.le)
    obtain ⟨m, q, -, hm, hmidpoint, -, hway⟩ := single.exists_midpoint_eq pattern
    have heq := eq_midpoint_of_close (q := q) hread hchosen hnone hm ?_ ?_
    · rw [← hmidpoint] at heq
      exact hless (hsame hfinite heq).ge
    · rw [← hmidpoint, abs_of_nonneg (sub_nonneg.mpr hlow), ← hway]
      exact hchosen.before
    · rw [← hmidpoint, abs_of_nonneg (sub_nonneg.mpr hlow), abs_sub_comm]
      exact (sub_le_sub_left hpast _).trans (le_abs_self _)

/-! ### Reading singles back -/

namespace Json

/-- What is read for a literal with a point or an exponent. -/
theorem lenientSingle?_of_numeral? {l : Literal} {negative : Bool} {s : Scaled}
    (h : l.numeral? = some (.real negative s)) :
    (number l).lenientSingle? =
      some (.signed negative (single.nearest s.numerator s.denominator)) := by
  rw [lenientSingle?, h]
  rfl

/-- The decimals that come close to a midpoint are read as the singles that they round to. -/
theorem lenientSingle?_of_mem_closeDecimals : ∀ d ∈ closeDecimals, ∀ negative : Bool,
    (number (Layout.document.literal negative (d.normalize 10))).lenientSingle? =
      some (.ofQuotient negative (d.coefficient * power 10 d.exponent.toNat)
        (power 10 (-d.exponent).toNat)) := by
  decide +kernel

/-- The digits of a single are read as the single. -/
theorem lenientSingle?_of_chosen (hpattern : pattern + 1 < single.infinity)
    (hchosen : Chosen pattern n k) (negative : Bool) :
    (Layout.document.literal negative (Decimal.normalize 10 ⟨n, k⟩)).Canonical ∧
      (number (Layout.document.literal negative (Decimal.normalize 10 ⟨n, k⟩))).lenientSingle? =
        some (.signed negative (pattern + 1)) := by
  obtain ⟨hvalue, hless, hpos, hlow, hhigh⟩ := Decimal.normalize_spec 10 ⟨n, k⟩
  have hmember := lenientSingle?_of_mem_closeDecimals ⟨n, k⟩
  have hfirst := hchosen.low
  have hlast := hchosen.high
  generalize Decimal.normalize 10 ⟨n, k⟩ = d at *
  obtain ⟨coefficient, exponent⟩ := d
  dsimp only at hless hpos hlow hhigh
  have hfew : coefficient < power 2 53 :=
    (hless.trans_lt hchosen.few).trans (by decide +kernel)
  have hspells : (Layout.document.literal negative ⟨coefficient, exponent⟩).Spells negative
      ⟨coefficient, exponent⟩ :=
    Layout.spells_literal (hpos hchosen.pos) hfew (by omega)
  refine ⟨hspells.canonical, ?_⟩
  by_cases hmem : (⟨n, k⟩ : Decimal) ∈ closeDecimals
  · rw [hmember hmem, Single.ofQuotient, hchosen.nearest]
  -- The literal may be worth the digits times another power of ten.
  · generalize Layout.document.literal negative ⟨coefficient, exponent⟩ = l at *
    have hworth : (l.decimal.coefficient * 10 ^ l.decimal.exponent : ℚ) = n * 10 ^ k :=
      hspells.value.trans hvalue
    have hplace : l.decimal.exponent = exponent ∨ l.decimal.exponent = -1 := hspells.place
    have hcoefficient : 0 < l.decimal.coefficient := by
      have hn := hchosen.pos
      by_contra hzero
      rw [Nat.eq_zero_of_not_pos hzero, Nat.cast_zero, zero_mul] at hworth
      have : (0 : ℚ) < n * 10 ^ k := by positivity
      exact this.ne hworth
    obtain ⟨s, hs, hreads⟩ := Literal.exists_reads hcoefficient hspells.few
      (show l.decimal.exponent.natAbs ≤ 60 by omega)
    have hnumeral := Literal.numeral?_of_spells hspells
    rw [hs] at hnumeral
    have hnearest : single.nearest s.numerator s.denominator = pattern + 1 := by
      refine nearest_eq_of_close (hworth ▸ hreads.close) (fun hsmall p hp hsame => ?_) hpattern
        hchosen hmem
      rw [← hworth] at hsame ⊢
      exact hreads.exact (by omega) p hp hsame
    rw [lenientSingle?_of_numeral? hnumeral, hnearest]

/-- A zero is read as a zero of its sign. -/
theorem lenientSingle?_zero : ∀ negative : Bool,
    (number ⟨negative, [0], [0], none⟩).lenientSingle? = some (.signed negative 0) := by
  decide +kernel

/-- A finite single is written as a number of the format, which is read back as the same single. -/
theorem exists_ofSingle_eq {x : Single} (h : x.isFinite = true) :
    ∃ l : Literal, l.Canonical ∧ ofSingle x = number l ∧ (number l).lenientSingle? = some x := by
  have hliteral : ofSingle x =
      number (Layout.document.literal x.isNegative (x.shortest .toEven)) := by
    rw [ofSingle, Single.literal?, if_pos h]
    rfl
  have hsigned := x.signed_magnitude
  have hfinite : x.magnitude.toNat < single.infinity :=
    UInt32.lt_iff_toNat_lt.mp (of_decide_eq_true h)
  by_cases hzero : x.magnitude = 0
  · have hdigits : Layout.document.literal x.isNegative (x.shortest .toEven) =
        ⟨x.isNegative, [0], [0], none⟩ := by
      rw [Single.shortest, if_pos hzero]
      rfl
    rw [hdigits] at hliteral
    rw [hzero] at hsigned
    refine ⟨_, ⟨by simp, ⟨0, [], rfl, fun _ => rfl⟩, by simp⟩, hliteral, ?_⟩
    rw [lenientSingle?_zero]
    exact congrArg some hsigned
  · obtain ⟨pattern, hpattern⟩ : ∃ pattern, x.magnitude.toNat = pattern + 1 :=
      Nat.exists_eq_succ_of_ne_zero fun h => hzero (UInt32.toNat_inj.mp h)
    rw [hpattern] at hsigned hfinite
    obtain ⟨n, k, hsearch, hchosen⟩ := Rounding.exists_chosen hfinite .toEven
    obtain ⟨hcanonical, hread⟩ :=
      lenientSingle?_of_chosen hfinite hchosen x.isNegative
    refine ⟨_, ?_, hliteral, ?_⟩ <;>
      rw [Single.shortest, if_neg hzero, hpattern, hsearch]
    · exact hcanonical
    · rw [hread, hsigned]

/-- Infinities and what is no number are written as the absent value. -/
theorem ofSingle_eq_null {x : Single} (h : x.isFinite = false) : ofSingle x = null := by
  rw [ofSingle, Single.literal?, if_neg (by simp [h])]

/-- A single is read back if it is finite, and refused otherwise. -/
theorem lenientSingle?_ofSingle (x : Single) :
    (ofSingle x).lenientSingle? = if x.isFinite then some x else none := by
  split_ifs with h
  · obtain ⟨l, -, hl, hread⟩ := exists_ofSingle_eq h
    rw [hl, hread]
  · rw [ofSingle_eq_null (by simpa using h)]
    rfl

@[simp] theorem spelled_ofSingle (x : Single) : (ofSingle x).Spelled := by
  cases h : x.isFinite with
  | true =>
    obtain ⟨l, hcanonical, hl, -⟩ := exists_ofSingle_eq h
    exact hl ▸ .number hcanonical
  | false => exact ofSingle_eq_null h ▸ .null

@[simp] theorem sound_ofSingle (x : Single) (depth : ℕ) : (ofSingle x).sound depth = true := by
  cases h : x.isFinite with
  | true =>
    obtain ⟨l, -, hl, hread⟩ := exists_ofSingle_eq h
    rw [hl, sound]
    rw [lenientSingle?] at hread
    exact Option.isSome_iff_exists.mpr ((Option.map_eq_some_iff.mp hread).imp fun _ => And.left)
  | false =>
    rw [ofSingle_eq_null h]
    rfl

end Json

end DspHost
