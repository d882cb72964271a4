import DspHost.Number.Format

/-!
# Single-precision values

Samples and control values are 32-bit floating-point patterns. They are kept as patterns, so that
what is stored in memory is what is read back, the payload of a NaN included. Every operation rounds
once. A NaN operand is handed on with its quiet bit set, the left one if both are NaN, and an
invalid operation answers the negative quiet NaN; finite results come from the core library's model
of the format.

## Main definitions

* `Single` — a 32-bit pattern
* `Single.add`, `Single.sub`, `Single.mul`, `Single.div` — arithmetic, one rounding each
* `Single.less` — the ordering of numbers, false as soon as a NaN takes part
* `Single.clamp`, `Single.fract`, `Single.greater`, `Single.abs` — what the signal code needs
* `Single.ofQuotient`, `Single.ofNat`, `Single.ofScaled` — the nearest single to an exact value
-/

namespace DspHost

/-- A single-precision value, identified with its bit pattern. -/
structure Single where
  /-- The sign bit, eight exponent bits and twenty-three fraction bits. -/
  bits : UInt32
  deriving DecidableEq, Repr, Inhabited

namespace Single

/-- Positive zero. -/
def zero : Single := ⟨0⟩

/-- One. -/
def one : Single := ⟨0x3f800000⟩

/-- Positive infinity. -/
def infinity : Single := ⟨0x7f800000⟩

/-- The quiet NaN that a text spells. -/
def nan : Single := ⟨0x7fc00000⟩

/-- What an invalid operation on numbers answers. -/
def invalid : Single := ⟨0xffc00000⟩

/-- The pattern without its sign. -/
def magnitude (x : Single) : UInt32 := x.bits &&& 0x7fffffff

/-- Whether the sign bit is set. -/
def isNegative (x : Single) : Bool := x.bits &&& 0x80000000 != 0

/-- Whether the pattern stands for no number. -/
def isNaN (x : Single) : Bool := 0x7f800000 < x.magnitude

/-- Whether the pattern stands for a finite number. -/
def isFinite (x : Single) : Bool := x.magnitude < 0x7f800000

/-- The pattern with the other sign. -/
def neg (x : Single) : Single := ⟨x.bits ^^^ 0x80000000⟩

/-- The pattern with the sign cleared. -/
def abs (x : Single) : Single := ⟨x.magnitude⟩

/-- A NaN with its quiet bit set. -/
def quiet (x : Single) : Single := ⟨x.bits ||| 0x00400000⟩

/-- The exact absolute value of a finite pattern. -/
def scaled (x : Single) : Scaled := Format.single.decode x.magnitude.toNat

/-- The pattern with the given sign and magnitude. -/
def signed (negative : Bool) (magnitude : Nat) : Single :=
  ⟨if negative then 0x80000000 ||| magnitude.toUInt32 else magnitude.toUInt32⟩

/-- The nearest single to a quotient. -/
def ofQuotient (negative : Bool) (numerator denominator : Nat) : Single :=
  signed negative (Format.single.nearest numerator denominator)

/-- The nearest single to an exact binary value. -/
def ofScaled (negative : Bool) (s : Scaled) : Single :=
  ofQuotient negative s.numerator s.denominator

/-- The nearest single to a natural number. -/
def ofNat (n : Nat) : Single := ofQuotient false n 1

/-! ### Arithmetic -/

/-- One rounded operation: NaN operands are passed on, other operands go through `op`. -/
def arithmetic (op : Float32 → Float32 → Float32) (x y : Single) : Single :=
  if x.isNaN then x.quiet
  else if y.isNaN then y.quiet
  else
    -- Two numbers make a NaN only by an invalid operation, such as zero times infinity.
    let result : Single := ⟨(op (Float32.ofBits x.bits) (Float32.ofBits y.bits)).toBits⟩
    if result.isNaN then invalid else result

/-- The rounded sum. -/
def add (x y : Single) : Single := arithmetic (· + ·) x y

/-- The rounded difference. -/
def sub (x y : Single) : Single := arithmetic (· - ·) x y

/-- The rounded product. -/
def mul (x y : Single) : Single := arithmetic (· * ·) x y

/-- The rounded quotient. -/
def div (x y : Single) : Single := arithmetic (· / ·) x y

instance : Add Single := ⟨add⟩
instance : Sub Single := ⟨sub⟩
instance : Mul Single := ⟨mul⟩
instance : Div Single := ⟨div⟩
instance : Neg Single := ⟨neg⟩

/-! ### Order -/

/-- The place of a number in the order of numbers; both zeros share one. -/
def rank (x : Single) : Int := if x.isNegative then -x.magnitude.toNat else x.magnitude.toNat

/-- Strictly smaller, as numbers are: false when either side is NaN. -/
def less (x y : Single) : Bool := !x.isNaN && !y.isNaN && decide (x.rank < y.rank)

/-- Equal as numbers: the two zeros are equal, and no NaN equals anything. -/
def same (x y : Single) : Bool := !x.isNaN && !y.isNaN && x.rank == y.rank

/-- The value moved into a range; a NaN stays. -/
def clamp (x low high : Single) : Single :=
  let raised := if x.less low then low else x
  if high.less raised then high else raised

/-- The greater of two numbers; a NaN gives way to the other operand. -/
def greater (x y : Single) : Single :=
  if x.isNaN then y else if y.isNaN then x else if x.less y then y else x

/-! ### Whole and fractional part -/

/-- The number rounded toward zero: the fraction bits below one are cleared. -/
def trunc (x : Single) : Single :=
  -- An exponent of 127 stands for one; from 150 on the last bit of the fraction is worth one.
  let exponent := x.magnitude >>> 23
  if exponent < 127 then ⟨x.bits &&& 0x80000000⟩
  else if exponent < 150 then ⟨x.bits &&& (0xffffffff <<< (150 - exponent))⟩
  else if x.isNaN then x.quiet else x

/-- The number less its whole part. -/
def fract (x : Single) : Single := x - x.trunc

@[ext] theorem ext {x y : Single} (h : x.bits = y.bits) : x = y := by
  cases x; cases y; simp_all

theorem not_less_self (x : Single) : x.less x = false := by
  simp [less]

theorem isNaN_eq_false_of_less {x y : Single} (h : x.less y = true) :
    x.isNaN = false ∧ y.isNaN = false := by
  simp only [less, Bool.and_eq_true, Bool.not_eq_true'] at h
  exact h.1

end Single

end DspHost
