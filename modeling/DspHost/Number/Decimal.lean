import DspHost.Number.Single

/-!
# Decimal values and literals

A decimal is a natural number scaled by a power of ten. Literals keep the digits as they were
written, because the formats that hold numbers disagree on what the digits are worth: control
values in text form take the nearest single, document numbers go through double precision first.

## Main definitions

* `Decimal` — an exact decimal value
* `Decimal.nearest` — the nearest pattern of a binary format
* `Literal` — sign, digits before and after the point, exponent
* `Literal.scan?` — reads a literal with optional parts off the front of a text
* `Single.ofText?` — a control value in text form
* `naturalOfText?` — a size in text form
-/

namespace DspHost

/-- The exact value `coefficient * 10 ^ exponent`. -/
structure Decimal where
  /-- The integer factor. -/
  coefficient : Nat
  /-- The power of ten it is scaled by. -/
  exponent : Int
  deriving DecidableEq, Repr

namespace Decimal

/-- The pattern of `f` nearest to the value.

Powers of ten far outside the format's range are not formed: beyond `10 ^ 2 ^ w`, with `w` the width
of the exponent field, every value is infinite, and below its inverse every value is zero. -/
def nearest (f : Format) (d : Decimal) : Nat :=
  if d.coefficient = 0 then 0
  else if (power 2 f.exponentBits : Int) < d.exponent then f.infinity
  else if d.exponent < -((power 2 f.exponentBits : Int) + d.coefficient.log2) then 0
  else f.nearest (d.coefficient * power 10 d.exponent.toNat) (power 10 (-d.exponent).toNat)

/-- The value without trailing zeros in its coefficient, for coefficients of at most `fuel`
digits. -/
def normalize : Nat → Decimal → Decimal
  | 0, d => d
  | fuel + 1, d =>
    if d.coefficient ≠ 0 ∧ d.coefficient % 10 = 0 then
      normalize fuel ⟨d.coefficient / 10, d.exponent + 1⟩
    else d

end Decimal

/-! ### Digits -/

/-- The value of a decimal digit. -/
def digitValue (c : Char) : Nat := c.toNat - '0'.toNat

/-- The character of a decimal digit. -/
def digitChar (d : Nat) : Char := Char.ofNat ('0'.toNat + d)

/-- The number that a string of decimal digits spells, most significant first. -/
def digitsValue (digits : List Nat) : Nat := digits.foldl (fun n d => 10 * n + d) 0

/-- The decimal digits of a number that has at most `fuel + 1` of them. -/
def decimalDigitsWithin : Nat → Nat → List Nat
  | 0, n => [n]
  | fuel + 1, n => if n < 10 then [n] else decimalDigitsWithin fuel (n / 10) ++ [n % 10]

/-- The decimal digits of a number, most significant first, without leading zeros. -/
def decimalDigits (n : Nat) : List Nat := decimalDigitsWithin n n

theorem digitsValue_concat (digits : List Nat) (d : Nat) :
    digitsValue (digits ++ [d]) = 10 * digitsValue digits + d := by
  simp [digitsValue]

theorem digitsValue_decimalDigitsWithin (fuel n : Nat) :
    digitsValue (decimalDigitsWithin fuel n) = n := by
  induction fuel generalizing n with
  | zero => simp [decimalDigitsWithin, digitsValue]
  | succ fuel ih =>
    rw [decimalDigitsWithin]
    split
    · simp [digitsValue]
    · rw [digitsValue_concat, ih (n / 10)]
      omega

@[simp] theorem digitsValue_decimalDigits (n : Nat) : digitsValue (decimalDigits n) = n :=
  digitsValue_decimalDigitsWithin n n

/-- The digits at the front of a text, and the rest. -/
def scanDigits : List Char → List Nat × List Char
  | [] => ([], [])
  | c :: rest =>
    if c.isDigit then
      let (digits, after) := scanDigits rest
      (digitValue c :: digits, after)
    else ([], c :: rest)

theorem scanDigits_length_le (text : List Char) : (scanDigits text).2.length ≤ text.length := by
  induction text with
  | nil => simp [scanDigits]
  | cons c rest ih =>
    unfold scanDigits
    split
    · simpa using Nat.le_succ_of_le ih
    · simp

/-- A natural number below `limit` in decimal digits, with an optional plus sign in front. -/
def naturalOfText? (limit : Nat) (text : List Char) : Option Nat :=
  let digits := match text with
    | '+' :: rest => rest
    | _ => text
  match scanDigits digits with
  | (d :: ds, []) =>
    let n := digitsValue (d :: ds)
    if n < limit then some n else none
  | _ => none

/-! ### Literals -/

/-- The exponent part of a literal. -/
structure Exponent where
  /-- Whether it carries a minus sign. -/
  negative : Bool
  /-- The digits after the sign, as a number. -/
  magnitude : Nat
  deriving DecidableEq, Repr

/-- The exponent as a power of ten. -/
def Exponent.value (e : Exponent) : Int := if e.negative then -e.magnitude else e.magnitude

/-- A decimal literal as written. -/
structure Literal where
  /-- Whether it carries a minus sign. -/
  negative : Bool
  /-- The digits before the point. -/
  whole : List Nat
  /-- The digits after the point, none if there is no point. -/
  fraction : List Nat
  /-- The exponent part, if any. -/
  exponent : Option Exponent
  deriving DecidableEq, Repr

namespace Literal

/-- Whether the literal has neither fraction nor exponent. -/
def isInteger (l : Literal) : Bool := l.fraction.isEmpty && l.exponent.isNone

/-- The magnitude that the digits spell. -/
def decimal (l : Literal) : Decimal :=
  ⟨digitsValue (l.whole ++ l.fraction),
    (l.exponent.map Exponent.value).getD 0 - l.fraction.length⟩

/-- The text of a literal, with `mark` in front of an exponent that is not negative. -/
def text (mark : List Char) (l : Literal) : List Char :=
  (if l.negative then ['-'] else []) ++ l.whole.map digitChar
    ++ (if l.fraction.isEmpty then [] else '.' :: l.fraction.map digitChar)
    ++ match l.exponent with
      | none => []
      | some e => 'e' :: ((if e.negative then ['-'] else mark)
          ++ (decimalDigits e.magnitude).map digitChar)

/-- The literal of a natural number. -/
def ofNat (n : Nat) : Literal := ⟨false, decimalDigits n, [], none⟩

/-- The nearest single to the literal. -/
def single (l : Literal) : Single := Single.signed l.negative (l.decimal.nearest Format.single)

/-- Reads an exponent part: a letter `e`, an optional sign and at least one digit. Without a letter
there is none. -/
def scanExponent? : List Char → Option (Option Exponent × List Char)
  | c :: rest =>
    if c = 'e' ∨ c = 'E' then
      let (negative, after) := match rest with
        | '-' :: after => (true, after)
        | '+' :: after => (false, after)
        | _ => (false, rest)
      match scanDigits after with
      | ([], _) => none
      | (d :: ds, after) => some (some ⟨negative, digitsValue (d :: ds)⟩, after)
    else some (none, c :: rest)
  | [] => some (none, [])

/-- Reads an unsigned literal in its loosest form: digits on one side of the point are enough. -/
def scan? (negative : Bool) (text : List Char) : Option (Literal × List Char) :=
  let (whole, after) := scanDigits text
  let (fraction, after) := match after with
    | '.' :: rest => scanDigits rest
    | _ => ([], after)
  if whole.isEmpty && fraction.isEmpty then none
  else
    match scanExponent? after with
    | none => none
    | some (exponent, after) => some (⟨negative, whole, fraction, exponent⟩, after)

end Literal

/-- A control value in text form: an optional sign, then `inf`, `infinity`, `nan` in any case, or a
literal in its loosest form, with nothing after it. -/
def Single.ofText? (text : List Char) : Option Single :=
  let (negative, body) := match text with
    | '-' :: rest => (true, rest)
    | '+' :: rest => (false, rest)
    | _ => (false, text)
  let word := String.ofList (body.map Char.toLower)
  if word = "inf" ∨ word = "infinity" then
    some (if negative then -Single.infinity else Single.infinity)
  else if word = "nan" then some (if negative then -Single.nan else Single.nan)
  else
    match Literal.scan? negative body with
    | some (literal, []) => some literal.single
    | _ => none

/-! ### Readings -/

example : (Decimal.nearest Format.single ⟨1, 39⟩) = Format.single.infinity := by decide +kernel

example : Single.ofText? ".5e+1".toList = some ⟨0x40a00000⟩ := by cbv

example : Single.ofText? "-Infinity".toList = some ⟨0xff800000⟩ := by cbv

example : naturalOfText? 256 "+7".toList = some 7 ∧ naturalOfText? 256 "256".toList = none := by
  constructor <;> cbv

end DspHost
