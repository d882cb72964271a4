import DspHost.Proofs.Number.Nearest
import DspHost.Number.Decimal
import Mathlib.Algebra.Order.Ring.Abs
import Mathlib.Tactic.LinearCombination

/-!
# How close a decimal comes to a binary number

A decimal of few digits can come close to a binary number of few bits, without being the same, only
as far as the power of ten allows. Divided by powers of two, the question is how close fractions of
small numbers come to one number between one and two. Two neighbours in the Stern–Brocot tree
answer it: a fraction between them has a numerator not smaller than the sum of theirs. Where a
neighbour itself comes close, it is the only fraction that does.

The bounds are those of singles that are read through doubles: binary numbers of 25 bits, and a
distance of five quarters of the last of 53 bits.

## Main definitions

* `Bracket`, `Bracket.narrow` — two neighbouring fractions, narrowed by mediants
* `Close` — fractions that differ by little
* `Bracket.Keeps`, `Stands` — why no fraction comes close to a number, and why only one does
* `tenNumerator`, `tenDenominator` — a power of ten as a fraction between one and two
* `closeDecimals` — the decimals that come close without being the same

## Main results

* `Bracket.Keeps.not_close`, `Stands.eq_of_close` — no small fraction comes close, or only one does
* `separated` — which of the two it is, for each power of ten in the range of the singles
* `eq_or_mem_of_close` — the same for decimals and binary numbers
-/

namespace DspHost

/-! ### Fractions -/

/-- Two fractions `a / b` and `c / d`. -/
structure Bracket where
  /-- The lower numerator. -/
  a : ℕ
  /-- The lower denominator. -/
  b : ℕ
  /-- The upper numerator. -/
  c : ℕ
  /-- The upper denominator. -/
  d : ℕ
  deriving DecidableEq

namespace Bracket

/-- The brackets of `u / v` among fractions of greater and greater numerators, up to `2 ^ 25`. -/
def narrow (u v : ℕ) : ℕ → Bracket → Bracket
  | 0, x => x
  | steps + 1, x =>
    if power 2 25 ≤ x.a + x.c then x
    else if (x.a + x.c) * v < u * (x.b + x.d) then narrow u v steps ⟨x.a + x.c, x.b + x.d, x.c, x.d⟩
    else narrow u v steps ⟨x.a, x.b, x.a + x.c, x.b + x.d⟩

/-- Two fractions between which all have large numerators, and neither of which comes close to
`u / v`. -/
structure Keeps (x : Bracket) (u v : ℕ) : Prop where
  neighbours : x.b * x.c = x.a * x.d + 1
  large : power 2 25 ≤ x.a + x.c
  below : power 2 54 * (x.a * v) + 5 * (u * x.b) < power 2 54 * (u * x.b)
  above : power 2 54 * (u * x.d) + 5 * (u * x.d) < power 2 54 * (x.c * v)

instance (x : Bracket) (u v : ℕ) : Decidable (x.Keeps u v) :=
  decidable_of_iff
    (x.b * x.c = x.a * x.d + 1 ∧ power 2 25 ≤ x.a + x.c ∧
      power 2 54 * (x.a * v) + 5 * (u * x.b) < power 2 54 * (u * x.b) ∧
      power 2 54 * (u * x.d) + 5 * (u * x.d) < power 2 54 * (x.c * v))
    ⟨fun ⟨h, h', h'', h'''⟩ => ⟨h, h', h'', h'''⟩, fun ⟨h, h', h'', h'''⟩ => ⟨h, h', h'', h'''⟩⟩

end Bracket

/-- The fractions `m / n` and `u / v` differ by five quarters of the last of 53 bits at most. -/
def Close (m n u v : ℕ) : Prop :=
  power 2 54 * (n * u) ≤ power 2 54 * (m * v) + 5 * (n * u) ∧
    power 2 54 * (m * v) ≤ power 2 54 * (n * u) + 5 * (n * u)

variable {m n u v : ℕ}

/-- A fraction between two neighbours has a numerator not smaller than the sum of theirs. So one
with a small numerator is not closer than the neighbours are. -/
theorem Bracket.Keeps.not_close {x : Bracket} (h : x.Keeps u v) (hm : m < power 2 25) (hn : 0 < n) :
    ¬Close m n u v := by
  rintro ⟨hlow, hhigh⟩
  obtain ⟨a, b, c, d⟩ := x
  obtain ⟨hneighbours, hlarge, hbelow, habove⟩ := h
  dsimp only at *
  rcases Nat.lt_or_ge (a * n) (m * b) with hgreater | hbelow'
  · rcases Nat.lt_or_ge (m * d) (c * n) with hless | habove'
    · -- The numerator is a combination of the two with positive coefficients.
      have hsum : a * (c * n) + c * (m * b) = m + a * (m * d) + c * (a * n) := by
        linear_combination m * hneighbours
      have hfirst := Nat.mul_le_mul_left a (Nat.succ_le_of_lt hless)
      have hsecond := Nat.mul_le_mul_left c (Nat.succ_le_of_lt hgreater)
      rw [Nat.mul_succ] at hfirst hsecond
      omega
    · have h1 := Nat.mul_le_mul_left (power 2 54 * v) habove'
      have h2 := Nat.mul_le_mul_left d hhigh
      have h3 := Nat.mul_lt_mul_of_pos_left habove hn
      nlinarith
  · have h1 := Nat.mul_le_mul_left (power 2 54 * v) hbelow'
    have h2 := Nat.mul_le_mul_left b hlow
    have h3 := Nat.mul_lt_mul_of_pos_left hbelow hn
    nlinarith

/-- The fraction `a / b` stands so close to `u / v` that every other one with a small numerator and
denominator is further away. -/
def Stands (a b u v : ℕ) : Prop :=
  power 2 25 * (power 2 54 * ((u * b : ℤ) - a * v).natAbs + 5 * (u * b)) < power 2 54 * v

instance (a b u v : ℕ) : Decidable (Stands a b u v) := inferInstanceAs (Decidable (_ < _))

/-- A fraction with a small numerator that is close to one between one and two has a small
denominator. -/
theorem Close.lt (h : Close m n u v) (hm : m < power 2 25) (huv : v ≤ u) (hv : 0 < v) :
    n < power 2 25 := by
  by_contra hlarge
  have h1 := Nat.mul_le_mul_right u (Nat.not_lt.mp hlarge)
  have h2 := Nat.mul_le_mul (Nat.le_sub_one_of_lt hm) huv
  have hlow := h.1
  norm_num at *
  omega

/-- What comes close is the fraction that stands alone. -/
theorem Stands.eq_of_close {a b : ℕ} (h : Stands a b u v) (hn : n < power 2 25)
    (hclose : Close m n u v) : m * b = a * n := by
  by_contra hne
  have hone : (1 : ℤ) ≤ |(m * b : ℤ) - a * n| := by
    refine Int.one_le_abs (sub_ne_zero.mpr ?_)
    exact_mod_cast hne
  have hdistance : 2 ^ 54 * |(m * v : ℤ) - n * u| ≤ 5 * (n * u) := by
    obtain ⟨hlow, hhigh⟩ := hclose
    zify at hlow hhigh
    have habs : |(m * v : ℤ) - n * u| * 2 ^ 54 = |((m * v : ℤ) - n * u) * 2 ^ 54| := by
      rw [abs_mul, abs_of_nonneg (show (0 : ℤ) ≤ 2 ^ 54 by positivity)]
    rw [mul_comm, habs, abs_le]
    constructor <;> linarith
  have hsplit : v * ((m * b : ℤ) - a * n) = b * ((m * v : ℤ) - n * u) + n * (u * b - a * v) := by
    ring
  have htriangle := abs_add_le (b * ((m * v : ℤ) - n * u)) (n * (u * b - a * v))
  rw [← hsplit, abs_mul, abs_mul, abs_mul, Nat.abs_cast, Nat.abs_cast, Nat.abs_cast] at htriangle
  have hstands : 2 ^ 25 * (2 ^ 54 * |(u * b : ℤ) - a * v| + 5 * (u * b)) < 2 ^ 54 * v := by
    have hnat := h
    unfold Stands at hnat
    zify at hnat
    exact hnat
  have hn' : (n : ℤ) ≤ 2 ^ 25 := by exact_mod_cast hn.le
  have hv : (v : ℤ) * 1 ≤ v * |(m * b : ℤ) - a * n| :=
    mul_le_mul_of_nonneg_left hone (Nat.cast_nonneg v)
  have hb := mul_le_mul_of_nonneg_left hdistance (Nat.cast_nonneg b)
  have hn'' : (n : ℤ) * (2 ^ 54 * |(u * b : ℤ) - a * v| + 5 * (u * b)) ≤
      2 ^ 25 * (2 ^ 54 * |(u * b : ℤ) - a * v| + 5 * (u * b)) :=
    mul_le_mul_of_nonneg_right hn' (by positivity)
  linarith

/-! ### Powers of ten -/

theorem ten_zpow_eq (k : ℤ) :
    (10 : ℚ) ^ k = (power 10 k.toNat : ℕ) / (power 10 (-k).toNat : ℕ) := by
  cases k with
  | ofNat k => simp
  | negSucc k => simp [zpow_negSucc]

/-- The exponent of the greatest power of two that is not greater than a power of ten. -/
def tenExponent (k : ℤ) : ℤ :=
  if 0 ≤ k then (power 10 k.toNat).log2 else -((power 10 (-k).toNat).log2 + 1)

/-- A power of ten, divided by a power of two: the numerator. -/
def tenNumerator (k : ℤ) : ℕ := power 10 k.toNat * power 2 (-tenExponent k).toNat

/-- A power of ten, divided by a power of two: the denominator. -/
def tenDenominator (k : ℤ) : ℕ := power 10 (-k).toNat * power 2 (tenExponent k).toNat

theorem ten_zpow_mul (k : ℤ) :
    (10 : ℚ) ^ k * tenDenominator k = 2 ^ tenExponent k * tenNumerator k := by
  have hten : ((power 10 (-k).toNat : ℕ) : ℚ) ≠ 0 := by positivity
  have htwo : ((power 2 (-tenExponent k).toNat : ℕ) : ℚ) ≠ 0 := by positivity
  rw [ten_zpow_eq, two_zpow_eq, tenNumerator, tenDenominator, Nat.cast_mul, Nat.cast_mul]
  field_simp

/-- The fraction that comes close to a power of ten divided by a power of two: itself, where it has
few bits, and three others. -/
def closest? (k : ℤ) : Option (ℕ × ℕ) :=
  if k.natAbs ≤ 10 then
    let divisor := (tenNumerator k).gcd (tenDenominator k)
    some (tenNumerator k / divisor, tenDenominator k / divisor)
  else if k = -32 then some (22841339, 14077062)
  else if k = -15 then some (28874659, 25645849)
  else if k = 32 then some (28154124, 22841339)
  else none

/-- Why no fraction but one comes close to `u / v`, or none at all. -/
def Separated (u v : ℕ) : Option (ℕ × ℕ) → Prop
  | some (a, b) => Stands a b u v
  | none => (Bracket.narrow u v 800 ⟨1, 1, 2, 1⟩).Keeps u v

instance (u v : ℕ) : (closest : Option (ℕ × ℕ)) → Decidable (Separated u v closest)
  | some (a, b) => inferInstanceAs (Decidable (Stands a b u v))
  | none => inferInstanceAs (Decidable (Bracket.Keeps _ u v))

/-- The powers of ten in the range of the singles, divided by powers of two, lie between one and two
and are separated from the fractions that come close. -/
theorem separated : ∀ i : ℕ, i < 90 →
    tenDenominator (39 - i) ≤ tenNumerator (39 - i) ∧
      tenNumerator (39 - i) < 2 * tenDenominator (39 - i) ∧
        Separated (tenNumerator (39 - i)) (tenDenominator (39 - i)) (closest? (39 - i)) := by
  decide +kernel

theorem tenDenominator_pos (k : ℤ) : 0 < tenDenominator k :=
  Nat.mul_pos (power_pos (by decide) _) (power_pos two_pos _)

/-- Multiples of a power of ten and of a power of two that is not greater are a fraction apart. -/
theorem exists_scaled {k q : ℤ} (hq : (2 : ℚ) ^ q ≤ 10 ^ k)
    (hbelow : tenNumerator k < 2 * tenDenominator k) : ∃ i : ℕ, ∀ n m : ℕ,
      (n * 10 ^ k - m * 2 ^ q : ℚ) * tenDenominator k =
        2 ^ q * ((n * power 2 i : ℕ) * tenNumerator k - m * tenDenominator k) ∧
      (n * 10 ^ k : ℚ) * tenDenominator k = 2 ^ q * ((n * power 2 i : ℕ) * tenNumerator k) := by
  have hv : (0 : ℚ) < tenDenominator k := by exact_mod_cast tenDenominator_pos k
  have hpower := ten_zpow_mul k
  have hexponent : q ≤ tenExponent k := by
    have hlt : (2 : ℚ) ^ q < 2 ^ (tenExponent k + 1) := by
      refine lt_of_mul_lt_mul_right ?_ hv.le
      calc (2 : ℚ) ^ q * tenDenominator k
          ≤ 10 ^ k * tenDenominator k := mul_le_mul_of_nonneg_right hq hv.le
        _ = 2 ^ tenExponent k * tenNumerator k := hpower
        _ < 2 ^ tenExponent k * (2 * tenDenominator k) :=
            mul_lt_mul_of_pos_left (by exact_mod_cast hbelow) (by positivity)
        _ = 2 ^ (tenExponent k + 1) * tenDenominator k := by
            rw [zpow_add_one₀ two_ne_zero]
            ring
    exact Int.lt_add_one_iff.mp ((zpow_lt_zpow_iff_right₀ one_lt_two).mp hlt)
  obtain ⟨i, hi⟩ := Int.exists_add_of_le hexponent
  rw [hi, zpow_add₀ two_ne_zero, zpow_natCast] at hpower
  refine ⟨i, fun n m => ?_⟩
  have hten : (n * 10 ^ k : ℚ) * tenDenominator k =
      2 ^ q * ((n * power 2 i : ℕ) * tenNumerator k) := by
    rw [mul_assoc, hpower]
    push_cast
    ring
  refine ⟨?_, hten⟩
  rw [sub_mul, hten]
  ring

theorem distance_le_of_close {x y x' y' v unit : ℚ} (hx : x * v = unit * x') (hy : y * v = unit * y')
    (hv : 0 < v) (hunit : 0 < unit) (hclose : 2 ^ 54 * |x| ≤ 5 * y) : |2 ^ 54 * x'| ≤ 5 * y' := by
  refine le_of_mul_le_mul_left ?_ hunit
  calc unit * |2 ^ 54 * x'| = 2 ^ 54 * |x| * v := by
        rw [abs_mul, ← abs_of_pos hunit, mul_left_comm, ← abs_mul, ← hx, abs_mul, abs_of_pos hv,
          abs_of_pos (show (0 : ℚ) < 2 ^ 54 by positivity), mul_assoc]
    _ ≤ 5 * y * v := mul_le_mul_of_nonneg_right hclose hv.le
    _ = unit * (5 * y') := by rw [mul_assoc, hy]; ring

/-- The only multiple of a fraction in lowest terms that is small is the fraction. -/
theorem eq_denominator {a b : ℕ} (hcoprime : a.gcd b = 1) (heq : m * b = a * n) (hn : 0 < n)
    (hm : m < 2 * a) : n = b := by
  have hdvd : b ∣ n := (Nat.Coprime.symm hcoprime).dvd_of_dvd_mul_left ⟨m, by rw [← heq, mul_comm]⟩
  obtain ⟨t, rfl⟩ := hdvd
  have hb : 0 < b := Nat.pos_of_mul_pos_right hn
  have ht : m = a * t := by
    refine Nat.eq_of_mul_eq_mul_right hb ?_
    rw [heq, mul_comm b t, mul_assoc]
  have hone : t = 1 := by
    have hpos : 0 < t := Nat.pos_of_mul_pos_left hn
    have htwo : t < 2 := by
      by_contra hmore
      have := Nat.mul_le_mul_left a (Nat.not_lt.mp hmore)
      omega
    omega
  rw [hone, mul_one]

theorem eq_of_mul_power_two {n i odd : ℕ} (hodd : odd % 2 = 1) (h : n * power 2 i = odd) :
    n = odd := by
  cases i with
  | zero => simpa using h
  | succ i =>
    rw [power_succ, ← mul_assoc] at h
    omega

/-- The decimals of few digits that come close to a number of few bits without being the same. -/
def closeDecimals : List Decimal :=
  [⟨14077062, -32⟩, ⟨7038531, -32⟩, ⟨25645849, -15⟩, ⟨22841339, 32⟩]

/-- A decimal whose last digit is not worth less than the last bit of a number of few bits does not
come close to it, but for the same number and few others. -/
theorem eq_or_mem_of_close {k q : ℤ} {n m : ℕ} (hlow : -50 ≤ k) (hhigh : k ≤ 39) (hn : 0 < n)
    (hm : m < power 2 25) (hq : (2 : ℚ) ^ q ≤ 10 ^ k)
    (hclose : 2 ^ 54 * |(n * 10 ^ k - m * 2 ^ q : ℚ)| ≤ 5 * (n * 10 ^ k)) :
    (k.natAbs ≤ 10 ∧ (n * 10 ^ k : ℚ) = m * 2 ^ q) ∨ ⟨n, k⟩ ∈ closeDecimals := by
  obtain ⟨habove, hbelow, hseparated⟩ := separated (39 - k).toNat (by omega)
  have hk : 39 - (((39 - k).toNat : ℕ) : ℤ) = k := by omega
  rw [hk] at habove hbelow hseparated
  have hv := tenDenominator_pos k
  obtain ⟨i, hscaled⟩ := exists_scaled hq hbelow
  obtain ⟨hdifference, hten⟩ := hscaled n m
  have hn' : 0 < n * power 2 i := Nat.mul_pos hn (power_pos two_pos _)
  have hclose' : Close m (n * power 2 i) (tenNumerator k) (tenDenominator k) := by
    have hbounds := abs_le.mp (distance_le_of_close hdifference hten (by exact_mod_cast hv)
      (by positivity) hclose)
    constructor
    · have hle : (2 ^ 54 * ((n * power 2 i : ℕ) * tenNumerator k) : ℚ) ≤
          2 ^ 54 * (m * tenDenominator k) + 5 * ((n * power 2 i : ℕ) * tenNumerator k) := by
        linarith [hbounds.2]
      exact_mod_cast hle
    · have hle : (2 ^ 54 * (m * tenDenominator k) : ℚ) ≤
          2 ^ 54 * ((n * power 2 i : ℕ) * tenNumerator k) +
            5 * ((n * power 2 i : ℕ) * tenNumerator k) := by
        linarith [hbounds.1]
      exact_mod_cast hle
  have hsmall := hclose'.lt hm habove hv
  -- Where one fraction stands alone, the decimal is its denominator.
  have hone {a b : ℕ} (hstands : Stands a b (tenNumerator k) (tenDenominator k))
      (hcoprime : a.gcd b = 1) (ha : power 2 25 ≤ 2 * a) : n * power 2 i = b :=
    eq_denominator hcoprime (hstands.eq_of_close hsmall hclose') hn' (hm.trans_le ha)
  unfold closest? at hseparated
  split_ifs at hseparated with hten' h32 h15 h32'
  · -- The power of ten is such a fraction itself.
    have heq := Stands.eq_of_close hseparated hsmall hclose'
    refine .inl ⟨hten', ?_⟩
    have hcross : m * tenDenominator k = n * power 2 i * tenNumerator k := by
      have hu := Nat.div_mul_cancel (Nat.gcd_dvd_left (tenNumerator k) (tenDenominator k))
      have hv := Nat.div_mul_cancel (Nat.gcd_dvd_right (tenNumerator k) (tenDenominator k))
      calc m * tenDenominator k
          = m * (tenDenominator k / (tenNumerator k).gcd (tenDenominator k)) *
              (tenNumerator k).gcd (tenDenominator k) := by rw [mul_assoc, hv]
        _ = n * power 2 i * tenNumerator k := by rw [heq, mul_right_comm, hu, mul_comm]
    have hzero : (n * 10 ^ k - m * 2 ^ q : ℚ) * tenDenominator k = 0 := by
      rw [hdifference, sub_eq_zero.mpr (by exact_mod_cast hcross.symm), mul_zero]
    exact sub_eq_zero.mp ((mul_eq_zero.mp hzero).resolve_right (by exact_mod_cast hv.ne'))
  · have hvalue := hone hseparated (by decide +kernel) (by decide +kernel)
    have hcases : n = 14077062 ∨ n = 7038531 := by
      match i with
      | 0 => exact .inl (by simpa using hvalue)
      | 1 =>
        rw [power_succ, power_zero] at hvalue
        exact .inr (by omega)
      | i + 2 =>
        rw [power_succ, power_succ, ← mul_assoc, ← mul_assoc] at hvalue
        omega
    rcases hcases with hn | hn <;> simp [closeDecimals, hn, h32]
  · have hvalue := hone hseparated (by decide +kernel) (by decide +kernel)
    simp [closeDecimals, eq_of_mul_power_two (by decide) hvalue, h15]
  · have hvalue := hone hseparated (by decide +kernel) (by decide +kernel)
    simp [closeDecimals, eq_of_mul_power_two (by decide) hvalue, h32']
  · exact absurd hclose' (hseparated.not_close hm hn')

end DspHost
