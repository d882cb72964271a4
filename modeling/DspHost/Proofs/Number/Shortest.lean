import DspHost.Number.Shortest
import DspHost.Proofs.Number.Gaps

/-!
# What the search for the fewest digits finds

The search goes from coarse grids of decimals to finer ones and stops at the first that has a point
among the reals that round to the value. What it finds therefore rounds to the value. It also has
few digits, because the grid before was too coarse, and where it comes close to the end of the
interval, the grid is no finer than the way from the value to that end: otherwise there would have
been a point closer to the value.

## Main definitions

* `Rounding.Nearby` — a point of a grid that the search may choose
* `Chosen` — what is known of the digits that are found

## Main results

* `Rounding.contains_ofPattern_iff` — the interval has what rounds to the value
* `Rounding.search_spec` — the search stops at the first grid that has a point
* `Rounding.exists_chosen` — what is found for every single that is finite and not zero
-/

namespace DspHost

namespace Rounding

variable {r : Rounding} {tie : Tie} {k : ℤ} {n m : ℕ}

/-! ### Intervals and grids -/

/-- A multiple of the unit of an interval. -/
def point (r : Rounding) (m : ℕ) : ℚ := m * 2 ^ r.exponent

theorem gridScale_pos (r : Rounding) (k : ℤ) : 0 < r.gridScale k :=
  Nat.mul_pos (power_pos two_pos _) (power_pos (by decide) _)

/-- Points of the grid and of the interval are compared on a common scale. -/
theorem grid_le_iff : n * r.gridScale k ≤ m * r.ownScale k ↔ (n : ℚ) * 10 ^ k ≤ r.point m := by
  have hten : (0 : ℚ) < (power 10 (-k).toNat : ℕ) := by positivity
  have htwo : (0 : ℚ) < (power 2 (-r.exponent).toNat : ℕ) := by positivity
  rw [point, ten_zpow_eq, two_zpow_eq, mul_div_assoc', mul_div_assoc', div_le_div_iff₀ hten htwo,
    gridScale, ownScale]
  norm_cast
  rw [mul_assoc, mul_assoc, mul_comm (power 10 k.toNat)]

theorem own_le_iff : m * r.ownScale k ≤ n * r.gridScale k ↔ r.point m ≤ (n : ℚ) * 10 ^ k := by
  have hten : (0 : ℚ) < (power 10 (-k).toNat : ℕ) := by positivity
  have htwo : (0 : ℚ) < (power 2 (-r.exponent).toNat : ℕ) := by positivity
  rw [point, ten_zpow_eq, two_zpow_eq, mul_div_assoc', mul_div_assoc', div_le_div_iff₀ htwo hten,
    gridScale, ownScale]
  norm_cast
  rw [mul_assoc, mul_assoc, mul_comm (power 10 k.toNat)]

theorem grid_lt_iff : n * r.gridScale k < m * r.ownScale k ↔ (n : ℚ) * 10 ^ k < r.point m := by
  rw [← Nat.not_le, own_le_iff, not_le]

theorem own_lt_iff : m * r.ownScale k < n * r.gridScale k ↔ r.point m < (n : ℚ) * 10 ^ k := by
  rw [← Nat.not_le, grid_le_iff, not_le]

/-- A point lies in the interval if it lies between the ends, or on one of them and they belong to
it. -/
theorem contains_iff : r.contains k n = true ↔
    (r.point r.low < n * 10 ^ k ∨ (n : ℚ) * 10 ^ k = r.point r.low ∧ r.closed = true) ∧
      (n * 10 ^ k < r.point r.high ∨ (n : ℚ) * 10 ^ k = r.point r.high ∧ r.closed = true) := by
  unfold contains
  cases hclosed : r.closed
  · simp [grid_lt_iff, own_lt_iff]
  · simp only [if_true, Bool.and_eq_true, decide_eq_true_eq, own_le_iff, grid_le_iff, and_true]
    exact and_congr (le_iff_lt_or_eq.trans (or_congr_right eq_comm)) le_iff_lt_or_eq

/-! ### One grid -/

/-- A point of a grid that may be chosen: it lies in the interval, and where the next point on the
other side of the value lies in it too, it is not further from the value than that. -/
structure Nearby (r : Rounding) (k : ℤ) (n : ℕ) : Prop where
  inside : r.contains k n = true
  above : r.point r.value < n * 10 ^ k → ∃ b, n = b + 1 ∧ b * 10 ^ k ≤ r.point r.value ∧
    (r.contains k b = true → 2 * (n * 10 ^ k - r.point r.value) ≤ 10 ^ k)
  below : n * 10 ^ k ≤ r.point r.value → r.point r.value < (n + 1) * 10 ^ k ∧
    (r.contains k (n + 1) = true → 2 * (r.point r.value - n * 10 ^ k) ≤ 10 ^ k)

/-- The value lies between two points of every grid. -/
theorem value_between (r : Rounding) (k : ℤ) :
    (r.value * r.ownScale k / r.gridScale k : ℕ) * 10 ^ k ≤ r.point r.value ∧
      r.point r.value < (r.value * r.ownScale k / r.gridScale k + 1 : ℕ) * 10 ^ k := by
  refine ⟨grid_le_iff.mp (Nat.div_mul_le_self _ _), own_lt_iff.mp ?_⟩
  rw [mul_comm (_ + 1)]
  exact Nat.lt_mul_div_succ _ (r.gridScale_pos k)

/-- How the way from the point below compares with the way to the point above. -/
theorem compare_eq_iff (r : Rounding) (k : ℤ) {b : ℕ}
    (hb : b = r.value * r.ownScale k / r.gridScale k) :
    (2 * (r.value * r.ownScale k % r.gridScale k) ≤ r.gridScale k ↔
        2 * (r.point r.value - b * 10 ^ k) ≤ 10 ^ k) ∧
      (r.gridScale k ≤ 2 * (r.value * r.ownScale k % r.gridScale k) ↔
        10 ^ k ≤ 2 * (r.point r.value - b * 10 ^ k)) := by
  have hdiv := Nat.div_add_mod (r.value * r.ownScale k) (r.gridScale k)
  rw [← hb, mul_comm] at hdiv
  have hvalue : 2 * r.value * r.ownScale k = 2 * (r.value * r.ownScale k) := mul_assoc _ _ _
  have hmiddle : (2 * b + 1) * r.gridScale k = 2 * (b * r.gridScale k) + r.gridScale k := by ring
  have hbelow : 2 * (r.value * r.ownScale k % r.gridScale k) ≤ r.gridScale k ↔
      2 * r.value * r.ownScale k ≤ (2 * b + 1) * r.gridScale k := by
    rw [hvalue, hmiddle]
    omega
  have habove : r.gridScale k ≤ 2 * (r.value * r.ownScale k % r.gridScale k) ↔
      (2 * b + 1) * r.gridScale k ≤ 2 * r.value * r.ownScale k := by
    rw [hvalue, hmiddle]
    omega
  rw [hbelow, habove, own_le_iff, grid_le_iff]
  simp only [point]
  push_cast
  constructor <;> constructor <;> intro h <;> linarith

/-- What is found on a grid. -/
theorem nearby_of_onGrid? (h : r.onGrid? tie k = some n) : r.Nearby k n := by
  obtain ⟨hlow, hhigh⟩ := r.value_between k
  obtain ⟨hnear, hfar⟩ := r.compare_eq_iff k rfl
  unfold onGrid? at h
  simp only at h
  generalize r.value * r.ownScale k / r.gridScale k = b at *
  generalize r.value * r.ownScale k % r.gridScale k = rest at *
  have hnext : ((b + 1 : ℕ) : ℚ) * 10 ^ k = b * 10 ^ k + 10 ^ k := by
    push_cast
    ring
  -- The point below is no further than the one above, or the other way round.
  have hdown (hb : r.contains k b = true) (hone : r.contains k (b + 1) = true →
      2 * rest ≤ r.gridScale k) : r.Nearby k b :=
    ⟨hb, fun hlt => absurd hlow hlt.not_ge, fun _ => ⟨by exact_mod_cast hhigh,
      fun habove => hnear.mp (hone habove)⟩⟩
  have hup (ha : r.contains k (b + 1) = true) (hone : r.contains k b = true →
      r.gridScale k ≤ 2 * rest) : r.Nearby k (b + 1) := by
    refine ⟨ha, fun _ => ⟨b, rfl, hlow, fun hbelow => ?_⟩, fun hle => absurd hhigh hle.not_gt⟩
    have := hfar.mp (hone hbelow)
    linarith
  split at h
  · cases h
  · next hb ha =>
    obtain rfl := Option.some.inj h
    exact hdown hb fun habove => absurd habove (by simp [ha])
  · next hb ha =>
    obtain rfl := Option.some.inj h
    exact hup ha fun hbelow => absurd hbelow (by simp [hb])
  · next hb ha =>
    split at h
    · next hless =>
      obtain rfl := Option.some.inj h
      exact hdown hb fun _ => (Nat.compare_eq_lt.mp hless).le
    · next hgreater =>
      obtain rfl := Option.some.inj h
      exact hup ha fun _ => (Nat.compare_eq_gt.mp hgreater).le
    · next hequal =>
      obtain rfl := Option.some.inj h
      exact hup ha fun _ => (Nat.compare_eq_eq.mp hequal).ge
    · next hequal =>
      have heq := Nat.compare_eq_eq.mp hequal
      split_ifs at h <;> obtain rfl := Option.some.inj h
      · exact hdown hb fun _ => heq.le
      · exact hup ha fun _ => heq.ge

/-- Where nothing is found on a grid, neither of the two points next to the value lies in the
interval. -/
theorem exists_of_onGrid?_eq_none (h : r.onGrid? tie k = none) : ∃ b : ℕ,
    b * 10 ^ k ≤ r.point r.value ∧ r.point r.value < (b + 1 : ℕ) * 10 ^ k ∧
      r.contains k b = false ∧ r.contains k (b + 1) = false := by
  obtain ⟨hlow, hhigh⟩ := r.value_between k
  refine ⟨_, hlow, hhigh, ?_⟩
  unfold onGrid? at h
  simp only at h
  generalize r.value * r.ownScale k / r.gridScale k = b at *
  split at h
  · next hb ha => exact ⟨hb, ha⟩
  · cases h
  · cases h
  · split at h <;> cases h

/-! ### From grid to grid -/

/-- The search stops at the first grid on which something is found. -/
theorem search_spec {steps : ℕ} (hfound : ∃ i < steps, (r.onGrid? tie (k - i)).isSome) :
    ∃ n j, r.search tie steps k = ⟨n, j⟩ ∧ r.Nearby j n ∧ k - steps < j ∧ j ≤ k ∧
      (j < k → r.onGrid? tie (j + 1) = none) := by
  induction steps generalizing k with
  | zero =>
    obtain ⟨i, hi, -⟩ := hfound
    exact absurd hi (Nat.not_lt_zero i)
  | succ steps ih =>
    rw [search]
    cases hgrid : r.onGrid? tie k with
    | some n =>
      exact ⟨n, k, rfl, nearby_of_onGrid? hgrid, by omega, le_refl k,
        fun h => absurd h (lt_irrefl k)⟩
    | none =>
      have hlater : ∃ i < steps, (r.onGrid? tie (k - 1 - i)).isSome := by
        obtain ⟨i, hi, hsome⟩ := hfound
        cases i with
        | zero => simp [hgrid] at hsome
        | succ i =>
          refine ⟨i, by omega, ?_⟩
          rwa [Nat.cast_succ, add_comm, ← sub_sub] at hsome
      obtain ⟨n, j, hsearch, hnearby, hlow, hhigh, hbefore⟩ := ih hlater
      refine ⟨n, j, hsearch, hnearby, by omega, by omega, fun _ => ?_⟩
      rcases hhigh.lt_or_eq with hlt | rfl
      · exact hbefore hlt
      · rwa [sub_add_cancel]

end Rounding

/-! ### Patterns -/

namespace Format

variable {f : Format}

/-- A pattern counts multiples of the unit of its exponent, and this is how it is decoded. -/
theorem decode_eq (f : Format) {j s : ℕ} (hlow : j = 0 ∨ power 2 f.fractionBits ≤ s)
    (hhigh : s < power 2 (f.fractionBits + 1)) :
    f.decode (j * power 2 f.fractionBits + s) = ⟨s, f.leastExponent + j⟩ := by
  have hpos : 0 < power 2 f.fractionBits := power_pos two_pos _
  rw [power_succ] at hhigh
  unfold decode
  rcases Nat.lt_or_ge s (power 2 f.fractionBits) with hsmall | hlarge
  · obtain rfl : j = 0 := hlow.resolve_right (Nat.not_le.mpr hsmall)
    rw [Nat.zero_mul, Nat.zero_add, if_pos hsmall, Nat.cast_zero, add_zero]
  · obtain ⟨r, rfl⟩ := Nat.exists_eq_add_of_le hlarge
    have hpattern : j * power 2 f.fractionBits + (power 2 f.fractionBits + r) =
        r + power 2 f.fractionBits * (j + 1) := by ring
    rw [hpattern, if_neg (by nlinarith), Nat.add_mul_div_left _ _ hpos, Nat.add_mul_mod_self_left,
      Nat.div_eq_of_lt (by omega), Nat.mod_eq_of_lt (by omega)]
    congr 1
    push_cast
    ring

/-- A pattern and the next one count multiples of the unit of one exponent. -/
theorem exists_values (f : Format) (pattern : ℕ) : ∃ j s,
    pattern = j * power 2 f.fractionBits + s ∧ (j = 0 ∨ power 2 f.fractionBits ≤ s) ∧
      s < power 2 (f.fractionBits + 1) ∧
        f.value pattern = s * 2 ^ (f.leastExponent + j) ∧
          f.value (pattern + 1) = (s + 1) * 2 ^ (f.leastExponent + j) := by
  obtain ⟨j, s, hparts, hlow, hhigh⟩ := f.exists_parts pattern
  refine ⟨j, s, hparts, hlow, hhigh, ?_, ?_⟩
  · rw [hparts, f.value_eq hlow hhigh.le]
  · rw [hparts, Nat.add_assoc, f.value_eq (hlow.imp_right (le_trans · (Nat.le_succ s))) hhigh]
    push_cast
    rfl

/-- A midpoint is a multiple of the way to it, from the value before as from the one behind. -/
theorem exists_midpoint_eq (f : Format) (pattern : ℕ) : ∃ (m : ℕ) (q : ℤ),
    f.leastExponent - 1 ≤ q ∧ m < power 2 (f.fractionBits + 2) ∧ f.midpoint pattern = m * 2 ^ q ∧
      f.midpoint pattern - f.value pattern = 2 ^ q ∧
        f.value (pattern + 1) - f.midpoint pattern = 2 ^ q := by
  obtain ⟨j, s, -, -, hhigh, hvalue, hnext⟩ := f.exists_values pattern
  have hunit : (2 : ℚ) ^ (f.leastExponent + j) = 2 * 2 ^ (f.leastExponent + j - 1) := by
    rw [zpow_sub_one₀ two_ne_zero]
    ring
  refine ⟨2 * s + 1, f.leastExponent + j - 1, by omega, ?_, ?_, ?_, ?_⟩
  · rw [power_succ] at hhigh ⊢
    rw [power_succ]
    omega
  all_goals
    rw [midpoint, hvalue, hnext, hunit]
    push_cast
    ring

/-- From a value to the next one it is as far as from the value before, or twice as far. -/
theorem value_succ_sub (f : Format) (pattern : ℕ) :
    f.value (pattern + 2) - f.value (pattern + 1) = f.value (pattern + 1) - f.value pattern ∨
      f.value (pattern + 2) - f.value (pattern + 1) =
        2 * (f.value (pattern + 1) - f.value pattern) := by
  obtain ⟨j, s, hparts, hlow, hhigh, hvalue, hnext⟩ := f.exists_values pattern
  have hpos : 0 < power 2 f.fractionBits := power_pos two_pos _
  rcases (Nat.succ_le_of_lt hhigh).lt_or_eq with hroom | hfull
  · left
    have hparts' : pattern + 2 = j * power 2 f.fractionBits + (s + 2) := by omega
    rw [hnext, hvalue, hparts', f.value_eq (hlow.imp_right fun h => by omega) hroom]
    push_cast
    ring
  · right
    have hparts' : pattern + 2 =
        (j + 1) * power 2 f.fractionBits + (power 2 f.fractionBits + 1) := by
      rw [power_succ] at hfull
      rw [add_mul]
      omega
    have hs : (s : ℚ) + 1 = 2 * power 2 f.fractionBits := by
      rw [power_succ, mul_comm] at hfull
      exact_mod_cast hfull
    rw [hnext, hvalue, hparts', f.value_eq (.inr (by omega)) (by rw [power_succ]; omega),
      two_zpow_succ]
    push_cast at hs ⊢
    linear_combination -(2 ^ (f.leastExponent + j)) * hs

end Format

/-! ### The interval of a pattern -/

namespace Rounding

variable {f : Format} {k : ℤ} {n pattern : ℕ}

/-- The value of an interval is that of its pattern. -/
theorem point_value (f : Format) (pattern : ℕ) :
    (ofPattern f pattern).point (ofPattern f pattern).value = f.value pattern := by
  simp only [ofPattern, point, Format.value, Scaled.value]
  rw [zpow_sub₀ two_ne_zero]
  push_cast
  ring

/-- The upper end of an interval is the midpoint behind its pattern. -/
theorem point_high (f : Format) (pattern : ℕ) :
    (ofPattern f pattern).point (ofPattern f pattern).high = f.midpoint pattern := by
  obtain ⟨j, s, hparts, hlow, hhigh, hvalue, hnext⟩ := f.exists_values pattern
  have hdecode := f.decode_eq hlow hhigh
  rw [← hparts] at hdecode
  simp only [ofPattern, hdecode, point, Format.midpoint, hvalue, hnext]
  rw [zpow_sub₀ two_ne_zero]
  push_cast
  ring

/-- The lower end of an interval is the midpoint in front of its pattern. -/
theorem point_low (f : Format) (pattern : ℕ) :
    (ofPattern f (pattern + 1)).point (ofPattern f (pattern + 1)).low = f.midpoint pattern := by
  obtain ⟨j, s, hparts, hlow, hhigh, hvalue, -⟩ := f.exists_values (pattern + 1)
  have hdecode := f.decode_eq hlow hhigh
  have hpos : 0 < power 2 f.fractionBits := power_pos two_pos _
  rw [← hparts] at hdecode
  rw [power_succ] at hhigh
  simp only [ofPattern, hdecode, point, Format.midpoint, hvalue]
  rw [zpow_sub₀ two_ne_zero, hparts, Nat.mul_add_mod_self_right]
  by_cases hstart : j ≠ 0 ∧ s = power 2 f.fractionBits
  · -- The pattern before belongs to the exponent before.
    obtain ⟨hj, rfl⟩ := hstart
    obtain ⟨j, rfl⟩ := Nat.exists_eq_succ_of_ne_zero hj
    have hbefore : pattern = j * power 2 f.fractionBits + (2 * power 2 f.fractionBits - 1) := by
      rw [Nat.succ_mul] at hparts
      omega
    rw [hbefore, f.value_eq (.inr (by omega)) (by rw [power_succ]; omega), Nat.mod_self,
      if_pos ⟨rfl, by rw [Nat.succ_mul]; omega⟩, Nat.succ_eq_add_one, two_zpow_succ]
    have hone : 1 ≤ 2 * power 2 f.fractionBits := by omega
    have hfour : 1 ≤ 4 * power 2 f.fractionBits := by omega
    rw [Nat.cast_sub hone, Nat.cast_sub hfour]
    push_cast
    ring
  · have hroom : j = 0 ∨ power 2 f.fractionBits ≤ s - 1 := by
      by_cases hj : j = 0
      · exact .inl hj
      · have := hlow.resolve_left hj
        have := (not_and.mp hstart) hj
        omega
    have hs : 1 ≤ s := by
      rcases hroom with rfl | hroom <;> omega
    have hbefore : pattern = j * power 2 f.fractionBits + (s - 1) := by omega
    have hwide : ¬(s % power 2 f.fractionBits = 0 ∧
        power 2 f.fractionBits < j * power 2 f.fractionBits + s) := by
      rintro ⟨hmod, hless⟩
      have hsame : s = power 2 f.fractionBits := by
        rcases Nat.lt_or_ge s (power 2 f.fractionBits) with hsmall | hlarge
        · rw [Nat.mod_eq_of_lt hsmall] at hmod
          omega
        · rw [Nat.mod_eq_sub_mod hlarge, Nat.mod_eq_of_lt (by omega)] at hmod
          omega
      have hj : j = 0 := by
        by_contra hj
        exact hstart ⟨hj, hsame⟩
      rw [hj, hsame, Nat.zero_mul, Nat.zero_add] at hless
      exact lt_irrefl _ hless
    rw [hbefore, f.value_eq hroom (by rw [power_succ]; omega), if_neg hwide]
    rw [Nat.cast_sub hs, Nat.cast_sub (show 2 ≤ 4 * s by omega)]
    push_cast
    ring

/-- A point lies in the interval of a finite pattern exactly if it is rounded to it. -/
theorem contains_ofPattern_iff (hf : 0 < f.fractionBits) (hpattern : pattern + 1 < f.infinity) :
    (ofPattern f (pattern + 1)).contains k n = true ↔
      f.nearest (n * power 10 k.toNat) (power 10 (-k).toNat) = pattern + 1 := by
  have hlow := point_low f pattern
  have hhigh := point_high f (pattern + 1)
  have hten : 0 < power 10 (-k).toNat := power_pos (by decide) _
  have hquotient : ((n * power 10 k.toNat : ℕ) : ℚ) / (power 10 (-k).toNat : ℕ) = n * 10 ^ k := by
    rw [ten_zpow_eq, Nat.cast_mul, mul_div_assoc]
  have hclosed : (ofPattern f (pattern + 1)).closed = true ↔ (pattern + 1) % 2 = 0 := by
    simp [ofPattern]
  rw [contains_iff, hlow, hhigh, hclosed, ← hquotient,
    ← Format.nearest_le_iff hf hten hpattern]
  have hodd : (pattern + 1) % 2 = 0 ↔ pattern % 2 = 1 := by omega
  rw [hodd, ← Format.lt_nearest_iff hf hten (Nat.lt_of_succ_lt hpattern)]
  omega

end Rounding

/-! ### The digits of a single -/

open Format

/-- What is known of the digits that are found for a positive pattern of a finite single: they round
to the pattern, they are few, and where they come close to an end of the interval, the last of them
is worth as much as the way from the value to that end. -/
structure Chosen (pattern n : ℕ) (k : ℤ) : Prop where
  low : -50 ≤ k
  high : k ≤ 39
  pos : 0 < n
  few : n < power 2 29
  nearest : single.nearest (n * power 10 k.toNat) (power 10 (-k).toNat) = pattern + 1
  ends : single.midpoint pattern ≤ n * 10 ^ k ∧ n * 10 ^ k ≤ single.midpoint (pattern + 1)
  behind : 4 * (single.midpoint (pattern + 1) - n * 10 ^ k) ≤
      single.midpoint (pattern + 1) - single.value (pattern + 1) →
    single.midpoint (pattern + 1) - single.value (pattern + 1) ≤ 10 ^ k
  before : 4 * (n * 10 ^ k - single.midpoint pattern) ≤
      single.value (pattern + 1) - single.midpoint pattern →
    single.value (pattern + 1) - single.midpoint pattern ≤ 10 ^ k

namespace Rounding

variable {k : ℤ} {n pattern : ℕ}

/-- A point between the ends lies in the interval. -/
theorem contains_of_between (hlow : single.midpoint pattern < n * 10 ^ k)
    (hhigh : n * 10 ^ k < single.midpoint (pattern + 1)) :
    (ofPattern single (pattern + 1)).contains k n = true := by
  rw [contains_iff, point_low, point_high]
  exact ⟨.inl hlow, .inl hhigh⟩

/-- The ways from a value to the ends of its interval. -/
theorem ways (pattern : ℕ) :
    single.value (pattern + 1) - single.midpoint pattern ≤
        single.midpoint (pattern + 1) - single.value (pattern + 1) ∧
      single.midpoint (pattern + 1) - single.value (pattern + 1) ≤
        2 * (single.value (pattern + 1) - single.midpoint pattern) := by
  have hbelow : single.value pattern < single.value (pattern + 1) := single.value_lt_succ pattern
  simp only [Format.midpoint]
  rcases single.value_succ_sub pattern with h | h <;> constructor <;> linarith

/-- A chosen point that comes close to the upper end. -/
theorem Nearby.way_le_behind (h : (ofPattern single (pattern + 1)).Nearby k n)
    (hclose : 4 * (single.midpoint (pattern + 1) - n * 10 ^ k) ≤
      single.midpoint (pattern + 1) - single.value (pattern + 1)) :
    single.midpoint (pattern + 1) - single.value (pattern + 1) ≤ 10 ^ k := by
  have hvalue := single.value_lt_midpoint (pattern + 1)
  obtain ⟨hways, hways'⟩ := ways pattern
  have habove := h.above
  rw [point_value] at habove
  obtain ⟨b, rfl, hb, hfar⟩ := habove (by linarith)
  by_contra hless
  push_cast at hclose hfar
  have hinside : (ofPattern single (pattern + 1)).contains k b = true :=
    contains_of_between (by linarith) (by linarith)
  have := hfar hinside
  linarith

/-- A chosen point that comes close to the lower end. -/
theorem Nearby.way_le_before (h : (ofPattern single (pattern + 1)).Nearby k n)
    (hclose : 4 * (n * 10 ^ k - single.midpoint pattern) ≤
      single.value (pattern + 1) - single.midpoint pattern) :
    single.value (pattern + 1) - single.midpoint pattern ≤ 10 ^ k := by
  have hvalue := single.midpoint_lt_value pattern
  obtain ⟨hways, -⟩ := ways pattern
  have hbelow := h.below
  rw [point_value] at hbelow
  obtain ⟨hnext, hfar⟩ := hbelow (by linarith)
  by_contra hless
  have hinside : (ofPattern single (pattern + 1)).contains k (n + 1) = true := by
    refine contains_of_between ?_ ?_ <;> push_cast <;> linarith
  have := hfar hinside
  linarith

/-- On the finest grids something is found for every pattern. -/
theorem onGrid?_isSome (tie : Tie) (pattern : ℕ) :
    ((ofPattern single (pattern + 1)).onGrid? tie (-46)).isSome := by
  rw [Option.isSome_iff_ne_none]
  intro hnone
  obtain ⟨b, hlow, hhigh, hbelow, -⟩ := exists_of_onGrid?_eq_none hnone
  rw [point_value] at hlow hhigh
  obtain ⟨m, q, hleast, -, -, -, hway⟩ := single.exists_midpoint_eq pattern
  have hgrid : (10 : ℚ) ^ (-46 : ℤ) ≤ 2 ^ q :=
    calc (10 : ℚ) ^ (-46 : ℤ) ≤ 2 ^ (-150 : ℤ) := by norm_num
      _ ≤ 2 ^ q := zpow_le_zpow_right₀ one_le_two hleast
  have hvalue := single.value_lt_midpoint (pattern + 1)
  have hinside : (ofPattern single (pattern + 1)).contains (-46) b = true := by
    refine contains_of_between ?_ ?_ <;> push_cast at hhigh <;> linarith
  rw [hinside] at hbelow
  cases hbelow

/-- The digits that are found are few, because there are none on the grid before. -/
theorem Nearby.few (h : (ofPattern single (pattern + 1)).Nearby k n)
    (hpattern : pattern + 1 < single.infinity) {tie : Tie} (hhigh : k ≤ 39)
    (hbefore : k < 39 → (ofPattern single (pattern + 1)).onGrid? tie (k + 1) = none) :
    n < power 2 29 := by
  have hgrid : (0 : ℚ) < 10 ^ k := by positivity
  have hnear : (n : ℚ) * 10 ^ k ≤ single.value (pattern + 1) + 10 ^ k := by
    rcases lt_or_ge (single.value (pattern + 1)) (n * 10 ^ k) with hlt | hle
    · have habove := h.above
      rw [point_value] at habove
      obtain ⟨b, rfl, hb, -⟩ := habove hlt
      push_cast
      linarith
    · linarith
  have hvalue : single.value (pattern + 1) ≤ 335544320 * 10 ^ k := by
    rcases hhigh.lt_or_eq with hlt | rfl
    · obtain ⟨b, hlow, hup, hbelow, -⟩ := exists_of_onGrid?_eq_none (hbefore hlt)
      rw [point_value] at hlow hup
      obtain ⟨m, q, -, hm, hmidpoint, -, hway⟩ := single.exists_midpoint_eq pattern
      have hm' : (m : ℚ) + 1 ≤ 33554432 := by exact_mod_cast (show m + 1 ≤ 33554432 from hm)
      have hless : (2 : ℚ) ^ q < 10 ^ (k + 1) := by
        by_contra hge
        have hend := single.value_lt_midpoint (pattern + 1)
        have hinside : (ofPattern single (pattern + 1)).contains (k + 1) b = true := by
          refine contains_of_between ?_ ?_ <;> push_cast at hup <;> linarith
        rw [hinside] at hbelow
        cases hbelow
      rw [zpow_add_one₀ (by norm_num)] at hless
      calc single.value (pattern + 1) = (m + 1) * 2 ^ q := by rw [← sub_add_cancel
            (single.value (pattern + 1)) (single.midpoint pattern), hway, hmidpoint]; ring
        _ ≤ 33554432 * 2 ^ q := mul_le_mul_of_nonneg_right hm' (by positivity)
        _ ≤ 335544320 * 10 ^ k := by linarith
    · calc single.value (pattern + 1) ≤ single.value single.infinity :=
            single.value_strictMono.monotone hpattern.le
        _ = 2 ^ 128 := by
            have hdecode : single.decode single.infinity = ⟨8388608, 105⟩ := by decide +kernel
            rw [Format.value, hdecode, Scaled.value]
            norm_num
        _ ≤ 335544320 * 10 ^ (39 : ℤ) := by norm_num
  have hn : (n : ℚ) ≤ 335544321 := le_of_mul_le_mul_right (by linarith) hgrid
  have hn' : n ≤ 335544321 := by exact_mod_cast hn
  exact hn'.trans_lt (by decide +kernel)

/-- For every positive pattern of a finite single the search finds digits. -/
theorem exists_chosen (hpattern : pattern + 1 < single.infinity) (tie : Tie) :
    ∃ n k, (ofPattern single (pattern + 1)).search tie 90 39 = ⟨n, k⟩ ∧ Chosen pattern n k := by
  have hfinest : (39 : ℤ) - (85 : ℕ) = -46 := by norm_num
  have hfound : ∃ i < 90, ((ofPattern single (pattern + 1)).onGrid? tie (39 - (i : ℕ))).isSome :=
    ⟨85, by omega, by rw [hfinest]; exact onGrid?_isSome tie pattern⟩
  obtain ⟨n, k, hsearch, hnearby, hlow, hhigh, hbefore⟩ := search_spec hfound
  have hends := contains_iff.mp hnearby.inside
  rw [point_low, point_high] at hends
  have hlower : single.midpoint pattern ≤ n * 10 ^ k := hends.1.elim le_of_lt (·.1.ge)
  refine ⟨n, k, hsearch, by omega, hhigh, ?_, hnearby.few hpattern hhigh hbefore,
    (contains_ofPattern_iff (by decide) hpattern).mp hnearby.inside,
    ⟨hlower, hends.2.elim le_of_lt (·.1.le)⟩, hnearby.way_le_behind, hnearby.way_le_before⟩
  have hpos := (single.midpoint_pos pattern).trans_le hlower
  by_contra hzero
  obtain rfl : n = 0 := by omega
  simp at hpos

end Rounding

end DspHost
