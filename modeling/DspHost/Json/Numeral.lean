import DspHost.Json.Value

/-!
# The value of a document number

A literal without fraction and exponent is a whole number if it fits a signed or unsigned 64-bit
word. Every other literal is a double. Its digits are gathered into a 64-bit significand; digits
that no longer fit are dropped, those before the point at the cost of a power of ten each. The
significand is then scaled by one rounded power of ten, so the result can be off by one unit in the
last place; a literal beyond the greatest double is an error.

## Main definitions

* `Json.Numeral` — the three kinds of value
* `Literal.numeral?` — the value of a literal
* `Json.Numeral.single`, `Json.Numeral.wholeBelow?` — a numeral as a control value or a size
-/

namespace DspHost

namespace Json

/-- The value of a document number. -/
inductive Numeral where
  /-- A whole number that fits an unsigned word. -/
  | natural (n : Nat)
  /-- The opposite of a positive whole number, where it fits a signed word. -/
  | opposite (n : Nat)
  /-- A finite double. -/
  | real (negative : Bool) (magnitude : Scaled)
  deriving DecidableEq, Repr

end Json

/-- The number of values of a 64-bit word. -/
def wordLimit : Nat := power 2 64

namespace Literal

/-- Digits gathered while they fit a word, and how many were left. -/
def gather (significand : Nat) : List Nat → Nat × Nat
  | [] => (significand, 0)
  | d :: ds =>
    if 10 * significand + d < wordLimit then gather (10 * significand + d) ds
    else (significand, ds.length + 1)

/-- The significand of a literal and the power of ten it is scaled by, before the exponent. -/
def significand (l : Literal) : Nat × Int :=
  let (whole, dropped) := gather 0 l.whole
  let (all, left) := gather whole l.fraction
  (all, (dropped : Int) - (l.fraction.length - left : Nat))

/-- The double nearest to the product of two doubles; `none` beyond the greatest. -/
def rescale? (numerator denominator : Nat) : Option Scaled :=
  let pattern := Format.double.nearest numerator denominator
  if pattern < Format.double.infinity then some (Format.double.decode pattern) else none

/-- The double nearest to a power of ten, for powers up to the 308th. -/
def powerOfTen (n : Nat) : Scaled := Format.double.decode (Format.double.ofNat (power 10 n))

/-- A double times a power of ten, rounded. Powers below the smallest are taken off in steps. -/
def scale? : Nat → Scaled → Int → Option Scaled
  | 0, _, _ => none
  | fuel + 1, value, exponent =>
    if 0 ≤ exponent then
      if exponent ≤ 308 then
        let power := powerOfTen exponent.toNat
        rescale? (value.numerator * power.numerator) (value.denominator * power.denominator)
      else if value.mantissa = 0 then some value else none
    else if -308 ≤ exponent then
      let power := powerOfTen (-exponent).toNat
      rescale? (value.numerator * power.denominator) (value.denominator * power.numerator)
    else if value.mantissa = 0 then some value
    else
      let power := powerOfTen 308
      match rescale? (value.numerator * power.denominator)
          (value.denominator * power.numerator) with
      | none => none
      | some smaller => scale? fuel smaller (exponent + 308)

/-- The magnitude of a literal in double precision. An exponent of more than 31 bits stands for zero
or for an infinite value, whatever the digits. -/
def double? (l : Literal) : Option Scaled :=
  let (significand, scale) := l.significand
  let value := Format.double.decode (Format.double.ofNat significand)
  match l.exponent with
  | none => scale? 8 value scale
  | some e =>
    -- Such an exponent outweighs any number of digits, but a zero stays a zero.
    if power 2 31 ≤ e.magnitude then
      if significand = 0 ∨ e.negative then some ⟨0, 0⟩ else none
    else scale? 8 value (scale + e.value)

/-- The value of a document number; `none` beyond the greatest double. -/
def numeral? (l : Literal) : Option Json.Numeral :=
  -- A zero with a minus sign is a double: words have no negative zero.
  let n := digitsValue l.whole
  if l.isInteger ∧ ¬ l.negative ∧ n < wordLimit then some (.natural n)
  else if l.isInteger ∧ l.negative ∧ 0 < n ∧ n ≤ power 2 63 then some (.opposite n)
  else l.double?.map (.real l.negative)

end Literal

namespace Json.Numeral

/-- A numeral as a double. -/
def double : Numeral → Bool × Scaled
  | natural n => (false, Format.double.decode (Format.double.ofNat n))
  | opposite n => (true, Format.double.decode (Format.double.ofNat n))
  | real negative magnitude => (negative, magnitude)

/-- A numeral as a control value: whole numbers are rounded once, doubles a second time. -/
def single : Numeral → Single
  | natural n => .ofQuotient false n 1
  | opposite n => .ofQuotient true n 1
  | real negative magnitude => .ofScaled negative magnitude

/-- A numeral as a whole number below a limit; doubles are none, even without a fraction. -/
def wholeBelow? (limit : Nat) : Numeral → Option Nat
  | natural n => if n < limit then some n else none
  | _ => none

end Json.Numeral

/-! ### Values at the ends -/

example : (Literal.ofNat 18446744073709551615).numeral? = some (.natural 18446744073709551615) := by
  decide +kernel

example : (Literal.numeral? ⟨true, [0], [], none⟩) = some (.real true ⟨0, -1074⟩) := by
  decide +kernel

example : (Literal.numeral? ⟨false, [1], [], some ⟨false, 309⟩⟩) = none := by decide +kernel

end DspHost
