import DspHost.Number.Decimal
import DspHost.Text.Hex

/-!
# Numbers of a settings file

Digits may be set apart by single underscores. An integer in decimal digits has no leading zeros and
may carry a sign; one in another base starts with a zero and a letter and carries none. Integers fit
a signed word of 64 bits. A literal with a fraction or an exponent is a real number in double
precision; it may not exceed the greatest double, though its opposite may.

## Main definitions

* `Toml.Real`, `Toml.Number` — the numbers
* `Toml.scanDigits?` — digits with underscores between them
* `Toml.readNumber?` — a number and what follows it
-/

namespace DspHost.Toml

/-- A real number. -/
inductive Real where
  /-- A literal with a fraction or an exponent. -/
  | finite (literal : Literal)
  /-- An infinite value. -/
  | infinite (negative : Bool)
  /-- No number. -/
  | undefined
  deriving DecidableEq, Repr

/-- A number. -/
inductive Number where
  /-- An integer. -/
  | integer (value : Int)
  /-- A real number. -/
  | real (value : Real)
  deriving DecidableEq, Repr

/-- The value of a digit of a base. -/
def digitOf? (base : Nat) (c : Char) : Option Nat := (hexValue? c).filter (· < base)

/-- Whether a text starts with a digit of a base. -/
def startsDigit (base : Nat) (text : List Char) : Bool :=
  (text.head?.bind (digitOf? base)).isSome

/-- At least one digit of a base, with single underscores between digits. -/
def scanDigits? (base : Nat) : List Char → Option (List Nat × List Char)
  | c :: '_' :: rest => do
    let d ← digitOf? base c
    let (ds, after) ← scanDigits? base rest
    return (d :: ds, after)
  | c :: rest => do
    let d ← digitOf? base c
    if startsDigit base rest then
      let (ds, after) ← scanDigits? base rest
      return (d :: ds, after)
    else return ([d], rest)
  | [] => none

/-- The number that digits of a base spell. -/
def valueIn (base : Nat) (digits : List Nat) : Nat := digits.foldl (fun n d => base * n + d) 0

/-- An integer that fits a signed word. -/
def integer? (negative : Bool) (magnitude : Nat) : Option Number :=
  if magnitude < power 2 63 ∨ (negative ∧ magnitude = power 2 63) then
    some (.integer (if negative then -magnitude else magnitude))
  else none

/-- A real number unless it exceeds the greatest double. -/
def real? (literal : Literal) : Option Number :=
  if ¬ literal.negative ∧ literal.decimal.nearest Format.double = Format.double.infinity then none
  else some (.real (.finite literal))

/-- An integer in another base than ten, after its letter. -/
def readBased? (base : Nat) (text : List Char) : Option (Number × List Char) := do
  let (digits, after) ← scanDigits? base text
  return (← integer? false (valueIn base digits), after)

/-- The fraction of a literal, if there is one: a point and digits. -/
def scanFraction? : List Char → Option (List Nat × List Char)
  | '.' :: rest => scanDigits? 10 rest
  | text => some ([], text)

/-- The sign in front of a number. -/
def scanSign : List Char → Bool × List Char
  | '-' :: rest => (true, rest)
  | '+' :: rest => (false, rest)
  | text => (false, text)

/-- The exponent of a literal, if there is one: a letter, perhaps a sign, and digits. -/
def scanExponent? : List Char → Option (Option Exponent × List Char)
  | [] => some (none, [])
  | c :: rest =>
    if c = 'e' ∨ c = 'E' then
      let (negative, rest) := scanSign rest
      (scanDigits? 10 rest).map fun (digits, after) =>
        (some ⟨negative, digitsValue digits⟩, after)
    else some (none, c :: rest)

/-- A number in decimal digits, after its sign. -/
def readDecimal? (negative : Bool) (text : List Char) : Option (Number × List Char) := do
  let (whole, rest) ← scanDigits? 10 text
  if 1 < whole.length ∧ whole.head? = some 0 then none
  else
    let (fraction, rest) ← scanFraction? rest
    let (exponent, rest) ← scanExponent? rest
    let literal : Literal := ⟨negative, whole, fraction, exponent⟩
    let number ← if literal.isInteger then integer? negative (digitsValue whole) else real? literal
    return (number, rest)

/-- Reads a number. -/
def readNumber? : List Char → Option (Number × List Char)
  | '0' :: 'x' :: rest => readBased? 16 rest
  | '0' :: 'o' :: rest => readBased? 8 rest
  | '0' :: 'b' :: rest => readBased? 2 rest
  | text =>
    let (negative, rest) := scanSign text
    match rest with
    | 'i' :: 'n' :: 'f' :: rest => some (.real (.infinite negative), rest)
    | 'n' :: 'a' :: 'n' :: rest => some (.real .undefined, rest)
    | rest => readDecimal? negative rest

/-! ### Readings -/

example : readNumber? "1_000 ".toList = some (.integer 1000, [' ']) := by cbv

example : readNumber? "-9223372036854775808".toList
    = some (.integer (-9223372036854775808), []) := by cbv

example : readNumber? "1__0".toList = none ∧ readNumber? "01".toList = none := by
  constructor <;> cbv

example : scanFraction? ".5_0e3".toList = some ([5, 0], ['e', '3']) := by cbv

end DspHost.Toml
