import DspHost.Number.Format
import Mathlib.Algebra.Order.Field.Power
import Mathlib.Data.Rat.Cast.Order
import Mathlib.Tactic.FieldSimp
import Mathlib.Tactic.Linarith
import Mathlib.Tactic.NormNum
import Mathlib.Tactic.Positivity
import Mathlib.Tactic.Ring

/-!
# Rounding to the nearest value

The patterns of a format are ordered as their values are, so rounding is described by the points
between two neighbours: a quotient is rounded to a pattern or below it exactly if it lies below the
midpoint behind the pattern, or on it and the pattern is even. Everything else that is said about
rounding follows from this: greater quotients have greater patterns, a value of the format is its
own pattern, and what is rounded moves by half of the last bit at most.

## Main definitions

* `Scaled.value`, `Format.value` — the exact values of a scaled number and of a pattern
* `Format.midpoint` — the point halfway from a pattern to the next one

## Main results

* `Format.value_strictMono` — patterns are ordered as their values are
* `Format.nearest_le_iff` — which quotients are rounded to a pattern or below it
* `Format.nearest_mono` — rounding keeps the order
* `Format.nearest_of_eq_value` — values of the format are not changed
* `Format.abs_value_nearest_sub_le` — how far a quotient is moved
-/

namespace DspHost

/-! ### Exact values -/

theorem two_zpow_eq (e : ℤ) :
    (2 : ℚ) ^ e = (power 2 e.toNat : ℕ) / (power 2 (-e).toNat : ℕ) := by
  cases e with
  | ofNat k => simp
  | negSucc k => simp [zpow_negSucc]

theorem two_zpow_succ (e : ℤ) (i : ℕ) : (2 : ℚ) ^ (e + (i + 1 : ℕ)) = 2 ^ (e + i) * 2 := by
  rw [Nat.cast_succ, ← add_assoc, zpow_add_one₀ two_ne_zero]

namespace Scaled

/-- The exact value as a rational number. -/
def value (s : Scaled) : ℚ := s.mantissa * 2 ^ s.exponent

theorem value_eq (s : Scaled) : s.value = s.numerator / s.denominator := by
  rw [value, two_zpow_eq, numerator, denominator, Nat.cast_mul, mul_div_assoc]

theorem value_nonneg (s : Scaled) : 0 ≤ s.value := by
  unfold value
  positivity

end Scaled

namespace Format

variable {f : Format}

/-- The exact value of a pattern. -/
def value (f : Format) (pattern : ℕ) : ℚ := (f.decode pattern).value

/-- The point halfway from a pattern to the next one. -/
def midpoint (f : Format) (pattern : ℕ) : ℚ := (f.value pattern + f.value (pattern + 1)) / 2

/-- A pattern counts multiples of the unit of its exponent. The greatest multiple is counted by the
next exponent as well. -/
theorem value_eq (f : Format) {j s : ℕ} (hlow : j = 0 ∨ power 2 f.fractionBits ≤ s)
    (hhigh : s ≤ power 2 (f.fractionBits + 1)) :
    f.value (j * power 2 f.fractionBits + s) = s * 2 ^ (f.leastExponent + j) := by
  have hpos : 0 < power 2 f.fractionBits := power_pos two_pos _
  rw [power_succ] at hhigh
  unfold value decode
  rcases Nat.lt_or_ge s (power 2 f.fractionBits) with hsmall | hlarge
  · obtain rfl : j = 0 := hlow.resolve_right (Nat.not_le.mpr hsmall)
    rw [Nat.zero_mul, Nat.zero_add, if_pos hsmall]
    simp [Scaled.value]
  · obtain ⟨r, rfl⟩ := Nat.exists_eq_add_of_le hlarge
    have hpattern : j * power 2 f.fractionBits + (power 2 f.fractionBits + r) =
        r + power 2 f.fractionBits * (j + 1) := by ring
    rw [hpattern, if_neg (by nlinarith), Nat.add_mul_div_left _ _ hpos, Nat.add_mul_mod_self_left]
    rcases Nat.lt_or_ge r (power 2 f.fractionBits) with hfits | hcarry
    · rw [Nat.div_eq_of_lt hfits, Nat.mod_eq_of_lt hfits, Nat.zero_add]
      simp only [Scaled.value, Nat.cast_add, Nat.cast_one]
      congr 2
      ring
    · obtain rfl : r = power 2 f.fractionBits := by omega
      rw [Nat.div_self hpos, Nat.mod_self, Nat.add_zero]
      have hexponent : f.leastExponent + ((1 + (j + 1) : ℕ) : ℤ) - 1 = f.leastExponent + j + 1 := by
        push_cast
        ring
      simp only [Scaled.value]
      rw [hexponent, zpow_add_one₀ two_ne_zero]
      push_cast
      ring

/-- Every pattern counts multiples of some unit, as many as fit one exponent. -/
theorem exists_parts (f : Format) (pattern : ℕ) : ∃ j s,
    pattern = j * power 2 f.fractionBits + s ∧ (j = 0 ∨ power 2 f.fractionBits ≤ s) ∧
      s < power 2 (f.fractionBits + 1) := by
  have hpos : 0 < power 2 f.fractionBits := power_pos two_pos _
  have hdiv := Nat.div_add_mod pattern (power 2 f.fractionBits)
  have hmod := Nat.mod_lt pattern hpos
  rw [power_succ]
  generalize pattern / power 2 f.fractionBits = d at hdiv
  cases d with
  | zero => exact ⟨0, pattern, by omega, .inl rfl, by omega⟩
  | succ j =>
    refine ⟨j, power 2 f.fractionBits + pattern % power 2 f.fractionBits, ?_, .inr (by omega),
      by omega⟩
    rw [← hdiv, Nat.mul_add_mod_self_left, Nat.mod_mod]
    ring

theorem value_lt_succ (f : Format) (pattern : ℕ) : f.value pattern < f.value (pattern + 1) := by
  obtain ⟨j, s, rfl, hlow, hhigh⟩ := f.exists_parts pattern
  rw [Nat.add_assoc, f.value_eq hlow hhigh.le,
    f.value_eq (hlow.imp_right (le_trans · (Nat.le_succ s))) hhigh]
  have hunit : (0 : ℚ) < 2 ^ (f.leastExponent + j) := by positivity
  push_cast
  linarith

/-- Patterns are ordered as their values are. -/
theorem value_strictMono (f : Format) : StrictMono f.value :=
  strictMono_nat_of_lt_succ f.value_lt_succ

theorem value_lt_midpoint (f : Format) (pattern : ℕ) : f.value pattern < f.midpoint pattern := by
  have := f.value_lt_succ pattern
  unfold midpoint
  linarith

theorem midpoint_lt_value (f : Format) (pattern : ℕ) :
    f.midpoint pattern < f.value (pattern + 1) := by
  have := f.value_lt_succ pattern
  unfold midpoint
  linarith

theorem midpoint_strictMono (f : Format) : StrictMono f.midpoint :=
  strictMono_nat_of_lt_succ fun pattern =>
    (f.midpoint_lt_value pattern).trans (f.value_lt_midpoint (pattern + 1))

theorem value_nonneg (f : Format) (pattern : ℕ) : 0 ≤ f.value pattern := Scaled.value_nonneg _

/-! ### One rounded quotient -/

/-- A quotient in units is rounded by half a unit at most, and by half a unit to an even number. -/
theorem divideToEven_spec {n d : ℕ} (hd : 0 < d) :
    ((divideToEven n d : ℚ) - 1 / 2 < n / d ∨
      ((divideToEven n d : ℚ) - 1 / 2 = n / d ∧ divideToEven n d % 2 = 0)) ∧
    ((n / d : ℚ) < divideToEven n d + 1 / 2 ∨
      ((n / d : ℚ) = divideToEven n d + 1 / 2 ∧ divideToEven n d % 2 = 0)) := by
  have hdq : (0 : ℚ) < d := by exact_mod_cast hd
  have hmod := Nat.mod_lt n hd
  have hdiv := Nat.div_add_mod n d
  set q := n / d with hq
  set r := n % d with hr
  have hquotient : (n : ℚ) / d = q + r / d := by
    rw [← hdiv]
    push_cast
    field_simp
  have hrest : (0 : ℚ) ≤ r / d := by positivity
  rw [hquotient]
  unfold divideToEven
  simp only [← hq, ← hr]
  split_ifs with hbelow habove
  · have hhalf : (r : ℚ) / d < 1 / 2 := by
      rw [div_lt_div_iff₀ hdq two_pos]
      have : (2 * r : ℚ) < d := by exact_mod_cast hbelow
      linarith
    exact ⟨.inl (by linarith), .inl (by linarith)⟩
  · have hhalf : (1 : ℚ) / 2 < r / d := by
      rw [div_lt_div_iff₀ two_pos hdq]
      have : (d : ℚ) < 2 * r := by exact_mod_cast habove
      linarith
    have hone : (r : ℚ) / d < 1 := by
      rw [div_lt_one hdq]
      exact_mod_cast hmod
    push_cast
    exact ⟨.inl (by linarith), .inl (by linarith)⟩
  · have hhalf : (r : ℚ) / d = 1 / 2 := by
      rw [div_eq_div_iff hdq.ne' two_ne_zero]
      have : (2 * r : ℚ) = d := by exact_mod_cast (show 2 * r = d by omega)
      linarith
    rw [hhalf]
    rcases Nat.mod_two_eq_zero_or_one q with heven | hodd
    · rw [heven, Nat.add_zero]
      exact ⟨.inl (by linarith), .inr ⟨rfl, heven⟩⟩
    · rw [hodd]
      push_cast
      exact ⟨.inr ⟨by ring, by omega⟩, .inl (by linarith)⟩

/-- The unit of a quotient is small enough to leave room for all its bits, and no smaller unless it
is the smallest of the format. -/
theorem unitExponent_spec (f : Format) {n d : ℕ} (hn : 0 < n) (hd : 0 < d) :
    f.leastExponent ≤ f.unitExponent n d ∧
    (n : ℚ) / d < 2 ^ (f.unitExponent n d + f.fractionBits + 1) ∧
    (f.unitExponent n d = f.leastExponent ∨
      (2 : ℚ) ^ (f.unitExponent n d + f.fractionBits) ≤ n / d) := by
  have hdq : (0 : ℚ) < d := by exact_mod_cast hd
  have hone : (1 : ℚ) ≤ 2 := one_le_two
  -- The quotient lies between the powers of two around the difference of the two logarithms.
  have hlow : (2 : ℚ) ^ ((n.log2 : ℤ) - d.log2 - 1) < n / d := by
    rw [lt_div_iff₀ hdq]
    have hnlog : (2 : ℚ) ^ (n.log2 : ℤ) ≤ n := by
      rw [zpow_natCast]
      exact_mod_cast Nat.log2_self_le hn.ne'
    have hdlog : (d : ℚ) < 2 ^ ((d.log2 : ℤ) + 1) := by
      have := Nat.lt_log2_self (n := d)
      rw [← Nat.cast_succ, zpow_natCast]
      exact_mod_cast this
    calc (2 : ℚ) ^ ((n.log2 : ℤ) - d.log2 - 1) * d
        < 2 ^ ((n.log2 : ℤ) - d.log2 - 1) * 2 ^ ((d.log2 : ℤ) + 1) :=
          mul_lt_mul_of_pos_left hdlog (by positivity)
      _ = 2 ^ (n.log2 : ℤ) := by rw [← zpow_add₀ two_ne_zero]; congr 1; ring
      _ ≤ n := hnlog
  have hhigh : (n : ℚ) / d < 2 ^ ((n.log2 : ℤ) - d.log2 + 1) := by
    rw [div_lt_iff₀ hdq]
    have hnlog : (n : ℚ) < 2 ^ ((n.log2 : ℤ) + 1) := by
      have := Nat.lt_log2_self (n := n)
      rw [← Nat.cast_succ, zpow_natCast]
      exact_mod_cast this
    have hdlog : (2 : ℚ) ^ (d.log2 : ℤ) ≤ d := by
      rw [zpow_natCast]
      exact_mod_cast Nat.log2_self_le hd.ne'
    calc (n : ℚ) < 2 ^ ((n.log2 : ℤ) + 1) := hnlog
      _ = 2 ^ ((n.log2 : ℤ) - d.log2 + 1) * 2 ^ (d.log2 : ℤ) := by
          rw [← zpow_add₀ two_ne_zero]; congr 1; ring
      _ ≤ 2 ^ ((n.log2 : ℤ) - d.log2 + 1) * d := mul_le_mul_of_nonneg_left hdlog (by positivity)
  have hcompare (top : ℤ) : n * power 2 (-top).toNat < d * power 2 top.toNat ↔
      (n : ℚ) / d < 2 ^ top := by
    have hpos : (0 : ℚ) < (power 2 (-top).toNat : ℕ) := by exact_mod_cast power_pos two_pos _
    rw [two_zpow_eq, div_lt_div_iff₀ hdq hpos, mul_comm ((power 2 top.toNat : ℕ) : ℚ)]
    exact_mod_cast Iff.rfl
  unfold unitExponent
  simp only [hcompare]
  generalize (n.log2 : ℤ) - d.log2 = top at hlow hhigh
  generalize hmagnitude : (if (n : ℚ) / d < 2 ^ top then top - 1 else top) = magnitude
  have hbounds : (2 : ℚ) ^ magnitude ≤ n / d ∧ (n : ℚ) / d < 2 ^ (magnitude + 1) := by
    subst hmagnitude
    split_ifs with hless
    · exact ⟨hlow.le, by rwa [sub_add_cancel]⟩
    · exact ⟨le_of_not_gt hless, hhigh⟩
  refine ⟨le_max_left _ _, hbounds.2.trans_le (zpow_le_zpow_right₀ hone ?_), ?_⟩
  · have := le_max_right f.leastExponent (magnitude - f.fractionBits)
    omega
  · rcases le_total (magnitude - f.fractionBits) f.leastExponent with hsmall | hlarge
    · exact .inl (max_eq_left hsmall)
    · rw [max_eq_right hlarge, sub_add_cancel]
      exact .inr hbounds.1

theorem le_of_units_le {m s : ℕ} {q unit : ℚ} (hunit : 0 < unit) (hq : m * unit ≤ q)
    (hs : q ≤ ((s : ℚ) + 1 / 2) * unit) : m ≤ s := by
  have hle : (m : ℚ) ≤ s + 1 / 2 := le_of_mul_le_mul_right (hq.trans hs) hunit
  have hlt : (m : ℚ) < (s + 1 : ℕ) := by
    push_cast
    linarith
  exact Nat.lt_succ_iff.mp (by exact_mod_cast hlt)

theorem le_of_lt_units {m s : ℕ} {q unit : ℚ} (hunit : 0 < unit) (hq : q < m * unit)
    (hs : ((s : ℚ) - 1 / 2) * unit ≤ q) : s ≤ m := by
  have hlt : (s : ℚ) - 1 / 2 < m := lt_of_mul_lt_mul_right (hs.trans_lt hq) hunit.le
  have hlt' : (s : ℚ) < (m + 1 : ℕ) := by
    push_cast
    linarith
  exact Nat.lt_succ_iff.mp (by exact_mod_cast hlt')

/-- A quotient is rounded to a multiple of the unit of an exponent. -/
structure RoundsTo (f : Format) (q : ℚ) (j s : ℕ) : Prop where
  low : j = 0 ∨ power 2 f.fractionBits ≤ s
  high : s ≤ power 2 (f.fractionBits + 1)
  above : ((s : ℚ) - 1 / 2) * 2 ^ (f.leastExponent + j) < q ∨
    ((s : ℚ) - 1 / 2) * 2 ^ (f.leastExponent + j) = q ∧ s % 2 = 0
  below : q < ((s : ℚ) + 1 / 2) * 2 ^ (f.leastExponent + j) ∨
    q = ((s : ℚ) + 1 / 2) * 2 ^ (f.leastExponent + j) ∧ s % 2 = 0
  normal : j = 0 ∨ (power 2 f.fractionBits : ℕ) * 2 ^ (f.leastExponent + j) ≤ q

/-- The multiple that is nearest in a unit, if the unit leaves room for all bits of the quotient and
is the smallest one or no smaller than it has to be. -/
theorem RoundsTo.of_nearest {q : ℚ} {j s : ℕ}
    (hbound : q < (power 2 (f.fractionBits + 1) : ℕ) * 2 ^ (f.leastExponent + j))
    (hnormal : j = 0 ∨ (power 2 f.fractionBits : ℕ) * 2 ^ (f.leastExponent + j) ≤ q)
    (habove : (s : ℚ) - 1 / 2 < q / 2 ^ (f.leastExponent + j) ∨
      (s : ℚ) - 1 / 2 = q / 2 ^ (f.leastExponent + j) ∧ s % 2 = 0)
    (hbelow : q / 2 ^ (f.leastExponent + j) < s + 1 / 2 ∨
      q / 2 ^ (f.leastExponent + j) = s + 1 / 2 ∧ s % 2 = 0) : f.RoundsTo q j s := by
  have hunit : (0 : ℚ) < 2 ^ (f.leastExponent + j) := by positivity
  rw [lt_div_iff₀ hunit, eq_div_iff hunit.ne'] at habove
  rw [div_lt_iff₀ hunit, div_eq_iff hunit.ne'] at hbelow
  constructor
  · exact hnormal.imp_right fun h => le_of_units_le hunit h (hbelow.elim le_of_lt (·.1.le))
  · exact le_of_lt_units hunit hbound (habove.elim le_of_lt (·.1.le))
  · exact habove
  · exact hbelow
  · exact hnormal

/-- A positive quotient is rounded to the pattern of some multiple, or to infinity. -/
theorem exists_roundsTo (f : Format) {n d : ℕ} (hn : 0 < n) (hd : 0 < d) : ∃ j s,
    f.nearest n d = min (j * power 2 f.fractionBits + s) f.infinity ∧ f.RoundsTo (n / d) j s := by
  obtain ⟨hleast, hbound, hnormal⟩ := f.unitExponent_spec hn hd
  obtain ⟨j, hj⟩ := Int.exists_add_of_le hleast
  have hrounded : f.nearest n d = min (j * power 2 f.fractionBits +
      divideToEven (n * power 2 (-f.unitExponent n d).toNat)
        (d * power 2 (f.unitExponent n d).toNat)) f.infinity := by
    have hcount : (f.unitExponent n d - f.leastExponent).toNat = j := by omega
    simp only [nearest, if_neg hn.ne', hcount]
  rw [hj] at hrounded hbound hnormal
  have hdpos : 0 < d * power 2 (f.leastExponent + j).toNat := Nat.mul_pos hd (power_pos two_pos _)
  have hspec := divideToEven_spec (n := n * power 2 (-(f.leastExponent + j)).toNat) hdpos
  have hquotient : ((n * power 2 (-(f.leastExponent + j)).toNat : ℕ) : ℚ) /
      (d * power 2 (f.leastExponent + j).toNat : ℕ) = n / d / 2 ^ (f.leastExponent + j) := by
    rw [two_zpow_eq, Nat.cast_mul, Nat.cast_mul, div_div_div_eq]
  rw [hquotient] at hspec
  refine ⟨j, _, hrounded, .of_nearest ?_ ?_ hspec.1 hspec.2⟩
  · rw [add_assoc, zpow_add₀ two_ne_zero, mul_comm] at hbound
    exact_mod_cast hbound
  · refine hnormal.imp (fun h => by omega) fun h => ?_
    rwa [zpow_add₀ two_ne_zero, zpow_natCast, mul_comm, ← Nat.cast_ofNat, ← Nat.cast_pow] at h

/-! ### Patterns and midpoints -/

namespace RoundsTo

variable {q : ℚ} {j s : ℕ}

theorem value_eq (h : f.RoundsTo q j s) :
    f.value (j * power 2 f.fractionBits + s) = s * 2 ^ (f.leastExponent + j) :=
  f.value_eq h.low h.high

theorem even_iff (hf : 0 < f.fractionBits) :
    (j * power 2 f.fractionBits + s) % 2 = 0 ↔ s % 2 = 0 := by
  obtain ⟨k, hk⟩ := Nat.exists_eq_succ_of_ne_zero hf.ne'
  rw [hk, power_succ, ← mul_assoc, Nat.mul_add_mod_self_right]

/-- The quotient does not pass the midpoint behind its pattern. -/
theorem below_midpoint (h : f.RoundsTo q j s) (hf : 0 < f.fractionBits) :
    q < f.midpoint (j * power 2 f.fractionBits + s) ∨
      q = f.midpoint (j * power 2 f.fractionBits + s) ∧
        (j * power 2 f.fractionBits + s) % 2 = 0 := by
  have hunit : (0 : ℚ) < 2 ^ (f.leastExponent + j) := by positivity
  -- The next pattern is one unit ahead, and two units where the exponent ends.
  have hnext : ((s : ℚ) + 1) * 2 ^ (f.leastExponent + j) ≤
      f.value (j * power 2 f.fractionBits + s + 1) := by
    rcases h.high.lt_or_eq with hlt | heq
    · rw [Nat.add_assoc, f.value_eq (h.low.imp_right (le_trans · (Nat.le_succ s))) hlt]
      push_cast
      exact le_refl _
    · have hpattern : j * power 2 f.fractionBits + s + 1 =
          (j + 1) * power 2 f.fractionBits + (power 2 f.fractionBits + 1) := by
        rw [heq, power_succ]
        ring
      have hpos := power_pos two_pos f.fractionBits
      rw [hpattern, f.value_eq (.inr (Nat.le_succ _)) (by rw [power_succ]; omega), heq, power_succ,
        two_zpow_succ]
      push_cast
      linarith
  have hmidpoint : ((s : ℚ) + 1 / 2) * 2 ^ (f.leastExponent + j) ≤
      f.midpoint (j * power 2 f.fractionBits + s) := by
    rw [midpoint, h.value_eq]
    linarith
  rw [even_iff hf]
  rcases h.below with hlt | ⟨heq, heven⟩
  · exact .inl (hlt.trans_le hmidpoint)
  · exact (heq ▸ hmidpoint).lt_or_eq.imp_right fun hq => ⟨hq, heven⟩

/-- The quotient does not fall short of the midpoint in front of its pattern. -/
theorem above_midpoint (h : f.RoundsTo q j s) (hf : 0 < f.fractionBits) {pattern : ℕ}
    (hpattern : pattern + 1 = j * power 2 f.fractionBits + s) :
    f.midpoint pattern < q ∨
      f.midpoint pattern = q ∧ (j * power 2 f.fractionBits + s) % 2 = 0 := by
  have hunit : (0 : ℚ) < 2 ^ (f.leastExponent + j) := by positivity
  rw [even_iff hf]
  by_cases hstart : j = 0 ∨ power 2 f.fractionBits + 1 ≤ s
  · -- The pattern before is one unit behind.
    have hs : 0 < s := by
      rcases hstart with rfl | hs
      · omega
      · omega
    obtain ⟨t, rfl⟩ := Nat.exists_eq_succ_of_ne_zero hs.ne'
    obtain rfl : pattern = j * power 2 f.fractionBits + t := by omega
    have hmidpoint : f.midpoint (j * power 2 f.fractionBits + t) =
        (((t + 1 : ℕ) : ℚ) - 1 / 2) * 2 ^ (f.leastExponent + j) := by
      rw [midpoint, hpattern, h.value_eq,
        f.value_eq (hstart.imp_right Nat.le_of_succ_le_succ) (Nat.le_of_succ_le h.high)]
      push_cast
      ring
    rw [hmidpoint]
    exact h.above
  · -- At the beginning of an exponent the quotient is not below the value of its pattern.
    obtain ⟨hj, hs⟩ := not_or.mp hstart
    obtain rfl : s = power 2 f.fractionBits := by have := h.low.resolve_left hj; omega
    refine .inl ((f.midpoint_lt_value pattern).trans_le ?_)
    rw [hpattern, h.value_eq]
    exact h.normal.resolve_left hj

/-- A quotient is rounded to a pattern or below it exactly if it lies below the midpoint behind the
pattern, or on it and the pattern is even. -/
theorem le_iff (h : f.RoundsTo q j s) (hf : 0 < f.fractionBits) (pattern : ℕ) :
    j * power 2 f.fractionBits + s ≤ pattern ↔
      q < f.midpoint pattern ∨ q = f.midpoint pattern ∧ pattern % 2 = 0 := by
  have hbelow := h.below_midpoint hf
  have habove {t : ℕ} (ht : t + 1 = j * power 2 f.fractionBits + s) := h.above_midpoint hf ht
  generalize j * power 2 f.fractionBits + s = r at hbelow habove
  constructor
  · intro hle
    rcases hle.lt_or_eq with hlt | rfl
    · have hmidpoint := f.midpoint_strictMono hlt
      exact .inl (hbelow.elim (·.trans hmidpoint) fun heq => heq.1 ▸ hmidpoint)
    · exact hbelow
  · intro hq
    by_contra hgt
    obtain ⟨t, rfl⟩ := Nat.exists_eq_succ_of_ne_zero (n := r) (by omega)
    rcases (Nat.lt_succ_iff.mp (Nat.not_le.mp hgt)).lt_or_eq with hlt | rfl
    · have hmidpoint := f.midpoint_strictMono hlt
      have hle : f.midpoint t ≤ q := (habove rfl).elim le_of_lt (·.1.le)
      have hge : q ≤ f.midpoint pattern := hq.elim le_of_lt (·.1.le)
      exact absurd (hmidpoint.trans_le (hle.trans hge)) (lt_irrefl _)
    · rcases habove rfl with hlt | ⟨heq, heven⟩
      · rcases hq with hlt' | ⟨heq', -⟩
        · exact absurd (hlt.trans hlt') (lt_irrefl _)
        · exact absurd heq' hlt.ne'
      · rcases hq with hlt' | ⟨-, heven'⟩
        · exact absurd heq hlt'.ne'
        · omega

end RoundsTo

theorem midpoint_pos (f : Format) (pattern : ℕ) : 0 < f.midpoint pattern :=
  (f.value_nonneg pattern).trans_lt (f.value_lt_midpoint pattern)

/-- Which quotients are rounded to a finite pattern or below it. -/
theorem nearest_le_iff (hf : 0 < f.fractionBits) {n d pattern : ℕ} (hd : 0 < d)
    (hpattern : pattern < f.infinity) :
    f.nearest n d ≤ pattern ↔
      (n : ℚ) / d < f.midpoint pattern ∨
        (n : ℚ) / d = f.midpoint pattern ∧ pattern % 2 = 0 := by
  rcases Nat.eq_zero_or_pos n with rfl | hn
  · rw [nearest_zero, Nat.cast_zero, zero_div]
    exact iff_of_true (Nat.zero_le _) (.inl (f.midpoint_pos pattern))
  · obtain ⟨j, s, hnearest, hrounds⟩ := f.exists_roundsTo hn hd
    rw [hnearest, min_le_iff, ← hrounds.le_iff hf]
    exact or_iff_left (Nat.not_le.mpr hpattern)

/-- Which quotients are rounded to a finite pattern behind another one. -/
theorem lt_nearest_iff (hf : 0 < f.fractionBits) {n d pattern : ℕ} (hd : 0 < d)
    (hpattern : pattern < f.infinity) :
    pattern < f.nearest n d ↔
      f.midpoint pattern < (n : ℚ) / d ∨
        (n : ℚ) / d = f.midpoint pattern ∧ pattern % 2 = 1 := by
  rw [← Nat.not_le, nearest_le_iff hf hd hpattern]
  rcases lt_trichotomy ((n : ℚ) / d) (f.midpoint pattern) with hlt | heq | hgt
  · simp [hlt, hlt.not_gt, hlt.ne]
  · simp [heq]
  · simp [hgt, hgt.not_gt, hgt.ne']

/-- Greater quotients are rounded to greater patterns. -/
theorem nearest_mono (hf : 0 < f.fractionBits) {n d n' d' : ℕ} (hd : 0 < d) (hd' : 0 < d')
    (h : (n : ℚ) / d ≤ n' / d') : f.nearest n d ≤ f.nearest n' d' := by
  rcases (f.nearest_le_infinity n' d').lt_or_eq with hfinite | hinfinite
  · rw [nearest_le_iff hf hd hfinite]
    rcases (nearest_le_iff hf hd' hfinite).mp (le_refl _) with hlt | ⟨heq, heven⟩
    · exact .inl (h.trans_lt hlt)
    · exact (h.trans_eq heq).lt_or_eq.imp_right fun heq' => ⟨heq', heven⟩
  · rw [hinfinite]
    exact f.nearest_le_infinity n d

/-- What is rounded depends on the quotient only. -/
theorem nearest_congr (hf : 0 < f.fractionBits) {n d n' d' : ℕ} (hd : 0 < d) (hd' : 0 < d')
    (h : (n : ℚ) / d = n' / d') : f.nearest n d = f.nearest n' d' :=
  (nearest_mono hf hd hd' h.le).antisymm (nearest_mono hf hd' hd h.ge)

/-- Finite values of the format are not changed. -/
theorem nearest_of_eq_value (hf : 0 < f.fractionBits) {n d pattern : ℕ} (hd : 0 < d)
    (hpattern : pattern < f.infinity) (h : (n : ℚ) / d = f.value pattern) :
    f.nearest n d = pattern := by
  refine le_antisymm ((nearest_le_iff hf hd hpattern).mpr (.inl ?_)) ?_
  · exact h ▸ f.value_lt_midpoint pattern
  · cases pattern with
    | zero => exact Nat.zero_le _
    | succ pattern =>
      refine (lt_nearest_iff hf hd (Nat.lt_of_succ_lt hpattern)).mpr (.inl ?_)
      exact h ▸ f.midpoint_lt_value pattern

/-- Every number of as many bits as the format keeps, in a unit that it has, is the value of a
pattern. -/
theorem exists_value_eq (f : Format) {m : ℕ} (hm : m < power 2 (f.fractionBits + 1)) (i : ℕ) :
    ∃ pattern, f.value pattern = m * 2 ^ (f.leastExponent + i) := by
  induction i generalizing m with
  | zero => exact ⟨0 * power 2 f.fractionBits + m, f.value_eq (.inl rfl) hm.le⟩
  | succ i ih =>
    rcases Nat.lt_or_ge m (power 2 f.fractionBits) with hsmall | hlarge
    · -- There is room for another bit, so the unit can be halved.
      obtain ⟨pattern, hvalue⟩ := ih (m := 2 * m) (by rw [power_succ]; omega)
      refine ⟨pattern, hvalue.trans ?_⟩
      rw [two_zpow_succ]
      push_cast
      ring
    · exact ⟨(i + 1) * power 2 f.fractionBits + m, f.value_eq (.inr hlarge) hm.le⟩

/-- What is rounded to a finite value moves by half of the unit at most. -/
theorem abs_value_nearest_sub_le (f : Format) {n d : ℕ} (hn : 0 < n) (hd : 0 < d)
    (hnormal : (power 2 f.fractionBits : ℕ) * (2 : ℚ) ^ f.leastExponent ≤ n / d)
    (hfinite : f.nearest n d < f.infinity) :
    |f.value (f.nearest n d) - n / d| * power 2 (f.fractionBits + 1) ≤ n / d := by
  obtain ⟨j, s, hnearest, h⟩ := f.exists_roundsTo hn hd
  have hpattern : f.nearest n d = j * power 2 f.fractionBits + s := by omega
  rw [hpattern, h.value_eq]
  generalize (n : ℚ) / d = q at *
  have hunit : (0 : ℚ) < 2 ^ (f.leastExponent + j) := by positivity
  have hlarge : (power 2 f.fractionBits : ℕ) * (2 : ℚ) ^ (f.leastExponent + j) ≤ q := by
    rcases h.normal with rfl | hlarge
    · simpa using hnormal
    · exact hlarge
  have hhalf : |s * 2 ^ (f.leastExponent + j) - q| ≤ 2 ^ (f.leastExponent + j) / 2 := by
    have habove := h.above.elim le_of_lt (·.1.le)
    have hbelow := h.below.elim le_of_lt (·.1.le)
    rw [abs_le]
    constructor <;> linarith
  calc |s * 2 ^ (f.leastExponent + j) - q| * power 2 (f.fractionBits + 1)
      ≤ 2 ^ (f.leastExponent + j) / 2 * (power 2 (f.fractionBits + 1) : ℕ) :=
        mul_le_mul_of_nonneg_right hhalf (Nat.cast_nonneg _)
    _ = (power 2 f.fractionBits : ℕ) * 2 ^ (f.leastExponent + j) := by
        rw [power_succ]
        push_cast
        ring
    _ ≤ q := hlarge

end Format

end DspHost
