import DspHost.Number.Power

/-!
# Binary interchange formats

A binary floating-point format keeps a fixed number of fraction bits and of exponent bits. Read as a
number, the pattern of a non-negative finite value counts the values below it, so the patterns of a
format are ordered as the values are, and rounding is a computation on natural numbers only: the
exact quotient `numerator / denominator` goes in, the pattern of the nearest value comes out.

## Main definitions

* `Scaled` — an exact binary value `mantissa * 2 ^ exponent`
* `Format` — the two widths; `Format.single` and `Format.double` are the two formats in use
* `Format.decode` — the exact value of a pattern
* `Format.nearest` — the pattern nearest to a quotient, ties to even, past the greatest finite value
  the pattern of infinity
-/

namespace DspHost

/-- The exact value `mantissa * 2 ^ exponent`. -/
structure Scaled where
  /-- The integer factor. -/
  mantissa : Nat
  /-- The power of two it is scaled by. -/
  exponent : Int
  deriving DecidableEq, Repr

namespace Scaled

/-- The numerator of the value as a quotient of natural numbers. -/
def numerator (s : Scaled) : Nat := s.mantissa * power 2 s.exponent.toNat

/-- The denominator of the value as a quotient of natural numbers. -/
def denominator (s : Scaled) : Nat := power 2 (-s.exponent).toNat

theorem denominator_pos (s : Scaled) : 0 < s.denominator := Nat.two_pow_pos _

/-- Whether the value is a whole number. -/
def isWhole (s : Scaled) : Bool := s.numerator % s.denominator == 0

/-- The value without its fraction. -/
def floor (s : Scaled) : Nat := s.numerator / s.denominator

end Scaled

/-- The quotient rounded to the nearest integer, a half to the even neighbour. -/
def divideToEven (numerator denominator : Nat) : Nat :=
  let quotient := numerator / denominator
  let remainder := numerator % denominator
  if 2 * remainder < denominator then quotient
  else if denominator < 2 * remainder then quotient + 1
  else quotient + quotient % 2

/-- The widths of a binary floating-point format. -/
structure Format where
  /-- Bits of the fraction, the leading one left out. -/
  fractionBits : Nat
  /-- Bits of the biased exponent. -/
  exponentBits : Nat
  deriving DecidableEq, Repr

namespace Format

/-- The 32-bit format of samples and control values. -/
def single : Format := ⟨23, 8⟩

/-- The 64-bit format in which number literals are read. -/
def double : Format := ⟨52, 11⟩

/-- The exponent of the smallest positive value. -/
def leastExponent (f : Format) : Int := (2 : Int) - power 2 (f.exponentBits - 1) - f.fractionBits

/-- The pattern of positive infinity. -/
def infinity (f : Format) : Nat := (power 2 f.exponentBits - 1) * power 2 f.fractionBits

/-- The exact value of a finite non-negative pattern. -/
def decode (f : Format) (pattern : Nat) : Scaled :=
  -- The lowest patterns count multiples of the smallest value; the others leave out a leading one.
  if pattern < power 2 f.fractionBits then ⟨pattern, f.leastExponent⟩
  else ⟨power 2 f.fractionBits + pattern % power 2 f.fractionBits,
    f.leastExponent + (pattern / power 2 f.fractionBits : Nat) - 1⟩

/-- The exponent of the last bit kept for a positive quotient: as many bits as the format holds,
unless that falls below its smallest exponent. -/
def unitExponent (f : Format) (numerator denominator : Nat) : Int :=
  -- The quotient lies between `2 ^ (top - 1)` and `2 ^ (top + 1)`; one comparison decides.
  let top : Int := (numerator.log2 : Int) - denominator.log2
  let magnitude : Int :=
    if numerator * power 2 (-top).toNat < denominator * power 2 top.toNat then top - 1 else top
  max f.leastExponent (magnitude - f.fractionBits)

/-- The pattern of the value nearest to `numerator / denominator`, ties to the even pattern.

The rounded significand is added to the exponent field rather than joined with it: the leading one
that the pattern leaves out, and a carry out of the significand, then both raise the exponent by
one. -/
def nearest (f : Format) (numerator denominator : Nat) : Nat :=
  if numerator = 0 then 0
  else
    let unit := f.unitExponent numerator denominator
    let significand :=
      divideToEven (numerator * power 2 (-unit).toNat) (denominator * power 2 unit.toNat)
    min ((unit - f.leastExponent).toNat * power 2 f.fractionBits + significand) f.infinity

/-- The pattern nearest to an exact binary value. -/
def ofScaled (f : Format) (s : Scaled) : Nat := f.nearest s.numerator s.denominator

/-- The pattern nearest to a natural number. -/
def ofNat (f : Format) (n : Nat) : Nat := f.nearest n 1

@[simp] theorem nearest_zero (f : Format) (denominator : Nat) : f.nearest 0 denominator = 0 := by
  simp [nearest]

theorem nearest_le_infinity (f : Format) (numerator denominator : Nat) :
    f.nearest numerator denominator ≤ f.infinity := by
  unfold nearest
  split
  · exact Nat.zero_le _
  · exact Nat.min_le_right _ _

/-! ### The two formats at their ends -/

example : single.leastExponent = -149 ∧ double.leastExponent = -1074 := by decide

example : single.infinity = 0x7f800000 ∧ double.infinity = 0x7ff0000000000000 := by decide

example : single.nearest 1 10 = 0x3dcccccd := by decide

example : single.ofNat 16777217 = single.ofNat 16777216 := by decide

example : (single.decode 0x3f800000) = ⟨8388608, -23⟩ := by decide

end Format

end DspHost
