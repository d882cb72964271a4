import DspHost.Json.Numeral
import DspHost.Text.Hex

/-!
# Reading documents

The reader follows the grammar of the format and nothing more: it keeps every member and every digit
and leaves depth, number ranges and surrogates to whoever reads the tree. Every step takes at least
one character off the text, so the number of characters bounds the number of nested calls.

## Main definitions

* `Json.skipSpace` — the text after its leading white space
* `Json.readText?` — a text after its opening quote
* `Json.readNumber?` — a number
* `Json.readValue?` — a value and what follows it
* `Json.parse?` — the document that a whole text spells
-/

namespace DspHost.Json

/-- White space between the parts of a document. -/
def isSpace (c : Char) : Bool := c == ' ' || c == '\n' || c == '\t' || c == '\r'

/-- The text after its leading white space. -/
def skipSpace (text : List Char) : List Char := text.dropWhile isSpace

/-- The character that an escape letter stands for. -/
def escaped? (c : Char) : Option Char :=
  if c = '"' ∨ c = '\\' ∨ c = '/' then some c
  else if c = 'b' then some '\x08'
  else if c = 'f' then some '\x0c'
  else if c = 'n' then some '\n'
  else if c = 'r' then some '\r'
  else if c = 't' then some '\t'
  else none

/-- The number of four hexadecimal digits. -/
def codeUnit? (a b c d : Char) : Option Nat := do
  let a ← hexValue? a
  let b ← hexValue? b
  let c ← hexValue? c
  let d ← hexValue? d
  return ((a * 16 + b) * 16 + c) * 16 + d

/-- The characters gathered from a text so far, last first. A leading surrogate waits for the
trailing one; without it the text stands for no characters. -/
structure Gathered where
  /-- The characters, last first. -/
  characters : List Char
  /-- A leading surrogate that was just read. -/
  leading : Option Nat
  /-- Whether every surrogate so far came in a pair. -/
  paired : Bool

namespace Gathered

/-- The characters of nothing. -/
def empty : Gathered := ⟨[], none, true⟩

/-- One more character. -/
def push (g : Gathered) (c : Char) : Gathered :=
  ⟨c :: g.characters, none, g.paired && g.leading.isNone⟩

/-- One more code unit. -/
def pushUnit (g : Gathered) (unit : Nat) : Gathered :=
  -- A leading surrogate waits for the trailing one, which has to follow at once.
  if 0xd800 ≤ unit ∧ unit < 0xdc00 then
    ⟨g.characters, some unit, g.paired && g.leading.isNone⟩
  else if 0xdc00 ≤ unit ∧ unit < 0xe000 then
    match g.leading with
    | some leading =>
      let number := 0x10000 + (leading - 0xd800) * 0x400 + (unit - 0xdc00)
      ⟨Char.ofNat number :: g.characters, none, g.paired⟩
    | none => ⟨g.characters, none, false⟩
  else g.push (Char.ofNat unit)

/-- The gathered text, if it stands for characters. -/
def finish (g : Gathered) : Option String :=
  if g.paired && g.leading.isNone then some (String.ofList g.characters.reverse) else none

end Gathered

/-- Reads a text up to its closing quote. -/
def readTextFrom? (g : Gathered) : List Char → Option (Option String × List Char)
  | [] => none
  | '"' :: rest => some (g.finish, rest)
  | '\\' :: 'u' :: a :: b :: c :: d :: rest =>
    match codeUnit? a b c d with
    | some unit => readTextFrom? (g.pushUnit unit) rest
    | none => none
  | '\\' :: c :: rest =>
    match escaped? c with
    | some character => readTextFrom? (g.push character) rest
    | none => none
  | c :: rest => if c.toNat < 0x20 then none else readTextFrom? (g.push c) rest

/-- Reads a text after its opening quote. -/
def readText? (text : List Char) : Option (Option String × List Char) := readTextFrom? .empty text

/-- Reads an unsigned number: no leading zeros, and digits on both sides of a point. -/
def readUnsigned? (negative : Bool) (text : List Char) : Option (Literal × List Char) :=
  let (whole, after) := scanDigits text
  if whole.isEmpty ∨ (1 < whole.length ∧ whole.head? = some 0) then none
  else
    let fraction? : Option (List Nat × List Char) := match after with
      | '.' :: rest =>
        let (fraction, after) := scanDigits rest
        if fraction.isEmpty then none else some (fraction, after)
      | _ => some ([], after)
    match fraction? with
    | none => none
    | some (fraction, after) =>
      match Literal.scanExponent? after with
      | none => none
      | some (exponent, after) => some (⟨negative, whole, fraction, exponent⟩, after)

/-- Reads a number with an optional minus sign. -/
def readNumber? : List Char → Option (Literal × List Char)
  | '-' :: rest => readUnsigned? true rest
  | text => readUnsigned? false text

/-- Reads a fixed word. -/
def readWord? (word : List Char) (value : Json) (text : List Char) : Option (Json × List Char) :=
  if word.isPrefixOf text then some (value, text.drop word.length) else none

mutual

/-- Reads a value, white space in front of it included. -/
def readValue? : Nat → List Char → Option (Json × List Char)
  | 0, _ => none
  | fuel + 1, text =>
    match skipSpace text with
    | '"' :: rest => (readText? rest).map fun (s, after) => (.string s, after)
    | '[' :: rest =>
      match skipSpace rest with
      | ']' :: after => some (.array [], after)
      | rest => (readItems? fuel rest).map fun (items, after) => (.array items, after)
    | '\x7b' :: rest =>
      match skipSpace rest with
      | '\x7d' :: after => some (.object [], after)
      | rest => (readMembers? fuel rest).map fun (members, after) => (.object members, after)
    | 'n' :: rest => readWord? ['u', 'l', 'l'] .null rest
    | 't' :: rest => readWord? ['r', 'u', 'e'] (.bool true) rest
    | 'f' :: rest => readWord? ['a', 'l', 's', 'e'] (.bool false) rest
    | rest => (readNumber? rest).map fun (literal, after) => (.number literal, after)

/-- Reads at least one item of an array, up to its closing bracket. -/
def readItems? : Nat → List Char → Option (List Json × List Char)
  | 0, _ => none
  | fuel + 1, text =>
    match readValue? fuel text with
    | none => none
    | some (item, after) =>
      match skipSpace after with
      | ']' :: rest => some ([item], rest)
      | ',' :: rest => (readItems? fuel rest).map fun (items, after) => (item :: items, after)
      | _ => none

/-- Reads at least one member of an object, up to its closing brace. -/
def readMembers? : Nat → List Char → Option (List (Option String × Json) × List Char)
  | 0, _ => none
  | fuel + 1, text =>
    match skipSpace text with
    | '"' :: rest =>
      match readText? rest with
      | none => none
      | some (name, after) =>
        match skipSpace after with
        | ':' :: rest =>
          match readValue? fuel rest with
          | none => none
          | some (value, after) =>
            match skipSpace after with
            | '\x7d' :: rest => some ([(name, value)], rest)
            | ',' :: rest =>
              (readMembers? fuel rest).map fun (members, after) => ((name, value) :: members, after)
            | _ => none
        | _ => none
    | _ => none

end

/-- The document that a text spells, with nothing but white space around it. -/
def parse? (text : String) : Option Json :=
  let characters := text.toList
  match readValue? (characters.length + 1) characters with
  | some (value, rest) => if (skipSpace rest).isEmpty then some value else none
  | none => none

end DspHost.Json
