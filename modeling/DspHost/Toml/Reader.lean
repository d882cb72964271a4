import DspHost.Toml.Quoted
import DspHost.Toml.Table

/-!
# Reading a settings file

A file is a sequence of statements, one a line. Only arrays and texts between three quotes run over
several lines. Values may be nested, and keys may consist of several names, up to a fixed depth.

## Main definitions

* `Toml.readKey?` — a key
* `Toml.readValue?` — a value
* `Toml.readStatements?` — the statements of a file
* `Toml.parse?` — the table that a file spells
-/

namespace DspHost.Toml

/-- How many arrays and inline tables may be open at once, and how many names a key may have. -/
def deepest : Nat := 79

/-! ### Keys -/

/-- The characters of a name without quotes. -/
def isBare (c : Char) : Bool := c.isAlphanum || c == '_' || c == '-'

/-- Reads a name, with or without quotes. -/
def readName? : List Char → Option (String × List Char)
  | '"' :: rest => readBasic? rest
  | '\'' :: rest => readLiteral? rest
  | text =>
    let name := text.takeWhile isBare
    if name.isEmpty then none else some (String.ofList name, text.drop name.length)

/-- Reads a key of at most a number of names, with blanks around every name. -/
def readKeyWithin? : Nat → List Char → Option (Key × List Char)
  | 0, _ => none
  | limit + 1, text => do
    let (name, rest) ← readName? (skipSpace text)
    match skipSpace rest with
    | '.' :: rest =>
      let (key, rest) ← readKeyWithin? limit rest
      return (⟨name :: key.parents, key.name⟩, rest)
    | rest => return (⟨[], name⟩, rest)

/-- Reads a key. -/
def readKey? (text : List Char) : Option (Key × List Char) := readKeyWithin? deepest text

/-! ### Values -/

/-- Reads a value that holds no others. -/
def readScalar? : List Char → Option (Value × List Char)
  | 't' :: 'r' :: 'u' :: 'e' :: rest => some (.truth true, rest)
  | 'f' :: 'a' :: 'l' :: 's' :: 'e' :: rest => some (.truth false, rest)
  | text =>
    if text.head? = some '"' ∨ text.head? = some '\'' then
      (readText? text).map fun (characters, rest) => (.text characters, rest)
    -- Moments begin with digits as numbers do; the mark behind the digits tells them apart.
    else if startsTime text ∨ startsDate text then
      (readMoment? text).map fun (moment, rest) => (.moment moment, rest)
    else (readNumber? text).map fun (number, rest) => (.number number, rest)

/-- An inline table whose entries make a table. -/
def inline? (entries : List Entry) : Option Value :=
  if (Members.addAll? [] entries).isSome then some (.inline entries) else none

mutual

/-- Reads a value, with `depth` more arrays and inline tables to open. Of three calls in a row one
takes a character off the text, so three times its length bounds the calls. -/
def readValue? : Nat → Nat → List Char → Option (Value × List Char)
  | 0, _, _ => none
  | fuel + 1, depth, text =>
    match text, depth with
    | '[' :: rest, depth + 1 =>
      (readItems? fuel depth rest).map fun (items, rest) => (.array items, rest)
    | '\x7b' :: rest, depth + 1 =>
      match skipSpace rest with
      | '\x7d' :: rest => some (.inline [], rest)
      | rest => do
        let (entries, rest) ← readEntries? fuel depth rest
        return (← inline? entries, rest)
    | '[' :: _, 0 => none
    | '\x7b' :: _, 0 => none
    | text, _ => readScalar? text

/-- Reads the items of an array up to its closing bracket. A comma may follow the last item. -/
def readItems? : Nat → Nat → List Char → Option (List Value × List Char)
  | 0, _, _ => none
  | fuel + 1, depth, text =>
    match skipLines text with
    | ']' :: rest => some ([], rest)
    | text => do
      let (item, rest) ← readValue? fuel depth text
      match skipLines rest with
      | ']' :: rest => return ([item], rest)
      | ',' :: rest =>
        let (items, rest) ← readItems? fuel depth rest
        return (item :: items, rest)
      | _ => none

/-- Reads at least one entry of an inline table, up to its closing brace. -/
def readEntries? : Nat → Nat → List Char → Option (List Entry × List Char)
  | 0, _, _ => none
  | fuel + 1, depth, text => do
    let (entry, rest) ← readPair? fuel depth text
    match skipSpace rest with
    | '\x7d' :: rest => return ([entry], rest)
    | ',' :: rest =>
      let (entries, rest) ← readEntries? fuel depth rest
      return (entry :: entries, rest)
    | _ => none

/-- Reads an entry. -/
def readPair? : Nat → Nat → List Char → Option (Entry × List Char)
  | 0, _, _ => none
  | fuel + 1, depth, text => do
    let (key, rest) ← readKey? text
    match rest with
    | '=' :: rest =>
      let (value, rest) ← readValue? fuel depth (skipSpace rest)
      return ((key, value), rest)
    | _ => none

end

/-! ### Statements -/

/-- Reads a statement without what follows it on its line. -/
def readStatement? : List Char → Option (Statement × List Char)
  | '[' :: '[' :: rest => do
    match ← readKey? rest with
    | (key, ']' :: ']' :: rest) => return (.header (.element key), rest)
    | _ => none
  | '[' :: rest => do
    match ← readKey? rest with
    | (key, ']' :: rest) => return (.header (.table key), rest)
    | _ => none
  | text => (readPair? (3 * text.length + 3) deepest text).map fun (entry, rest) =>
    (.entry entry, rest)

/-- Reads the statements of a file that has no more lines than the first argument says. -/
def readStatements? : Nat → List Char → Option (List Statement)
  | 0, _ => none
  | fuel + 1, text =>
    match skipLines text with
    | [] => some []
    | text => do
      let (statement, rest) ← readStatement? text
      return statement :: (← readStatements? fuel (← lineEnd? rest))

/-- A text without the mark of its byte order. -/
def withoutMark : List Char → List Char
  | '\ufeff' :: rest => rest
  | text => text

/-- The table that a file spells. -/
def parse? (text : String) : Option Members := do
  let characters := withoutMark text.toList
  Members.ofStatements? (← readStatements? (characters.length + 1) characters)

end DspHost.Toml
