import DspHost.Text.Hex
import DspHost.Toml.Blank

/-!
# Quoted texts of a settings file

A text stands between double quotes, where a backslash starts an escape, or between apostrophes,
where it does not. Three quotes instead of one let it run over several lines. Reading takes two
steps: the first finds the closing quotes, the second turns what is between them into characters.

## Main definitions

* `Toml.Quoting`, `Toml.Quoting.cut?` — the extent of a text
* `Toml.unescape?`, `Toml.literal?` — the characters between the quotes
* `Toml.readText?` — a text and what follows it
-/

namespace DspHost.Toml

/-- A way to quote a text. -/
structure Quoting where
  /-- The quote. -/
  mark : Char
  /-- Whether a backslash starts an escape. -/
  escapes : Bool
  /-- Whether three quotes open and close the text. -/
  tripled : Bool
  deriving DecidableEq, Repr

namespace Quoting

/-- Where a text ends here, the quotes that still belong to it and what follows the closing quotes.
Of five quotes in a row the first two belong to the text. -/
def close? (q : Quoting) (text : List Char) : Option (List Char × List Char) :=
  if q.tripled then
    let run := (text.takeWhile (· == q.mark)).length
    if run < 3 then none
    else
      let kept := min (run - 3) 2
      some (text.take kept, text.drop (kept + 3))
  else
    match text with
    | c :: rest => if c = q.mark then some ([], rest) else none
    | [] => none

/-- What stands in front of the closing quotes, and what follows them. -/
def cut? (q : Quoting) : List Char → Option (List Char × List Char)
  | [] => none
  | c :: rest =>
    match q.close? (c :: rest) with
    | some ending => some ending
    | none =>
      if q.escapes ∧ c = '\\' then
        match rest with
        | [] => none
        | e :: rest => (q.cut? rest).map fun (body, after) => (c :: e :: body, after)
      else (q.cut? rest).map fun (body, after) => (c :: body, after)

end Quoting

/-- The character with a number in hexadecimal digits. -/
def scalar? (digits : List Char) : Option Char := do
  let values ← digits.mapM hexValue?
  let number := values.foldl (fun n d => 16 * n + d) 0
  if number.isValidChar then some (Char.ofNat number) else none

/-- The character that an escape letter stands for. -/
def escaped? (c : Char) : Option Char :=
  if c = '"' ∨ c = '\\' then some c
  else if c = 'b' then some '\x08'
  else if c = 'f' then some '\x0c'
  else if c = 'n' then some '\n'
  else if c = 'r' then some '\r'
  else if c = 't' then some '\t'
  else none

/-- The characters that a body with escapes stands for. A backslash at the end of a line takes away
the line ending and, while `skipping`, the blanks and line endings behind it. -/
def unescape? (skipping : Bool) : List Char → Option (List Char)
  | [] => some []
  | '\\' :: 'u' :: a :: b :: c :: d :: rest => do
    let character ← scalar? [a, b, c, d]
    return character :: (← unescape? false rest)
  | '\\' :: 'U' :: a :: b :: c :: d :: e :: f :: g :: h :: rest => do
    let character ← scalar? [a, b, c, d, e, f, g, h]
    return character :: (← unescape? false rest)
  | '\\' :: c :: rest =>
    match escaped? c with
    | some character => (unescape? false rest).map (character :: ·)
    | none =>
      -- Blanks may stand between the backslash and the end of its line.
      if (newline? (skipSpace (c :: rest))).isSome then unescape? true (c :: rest) else none
  | '\n' :: rest => if skipping then unescape? true rest else (unescape? false rest).map ('\n' :: ·)
  | '\r' :: '\n' :: rest =>
    if skipping then unescape? true rest else (unescape? false rest).map ('\n' :: ·)
  | c :: rest =>
    if skipping ∧ isSpace c then unescape? true rest
    else if isPlain c then (unescape? false rest).map (c :: ·)
    else none

/-- The characters that a body without escapes stands for. -/
def literal? : List Char → Option (List Char)
  | [] => some []
  | '\r' :: '\n' :: rest => (literal? rest).map ('\n' :: ·)
  | c :: rest => if c = '\n' ∨ isPlain c then (literal? rest).map (c :: ·) else none

namespace Quoting

/-- The text that a body stands for. Between single quotes it is one line. -/
def decode? (q : Quoting) (body : List Char) : Option String :=
  if ¬ q.tripled ∧ '\n' ∈ body then none
  else (if q.escapes then unescape? false body else literal? body).map String.ofList

/-- Reads a text after its opening quotes. A line ending right behind three quotes is left out. -/
def read? (q : Quoting) (text : List Char) : Option (String × List Char) := do
  let start := if q.tripled then (newline? text).getD text else text
  let (body, after) ← q.cut? start
  return (← q.decode? body, after)

end Quoting

/-- Reads a text between double quotes. -/
def readBasic? (text : List Char) : Option (String × List Char) :=
  Quoting.read? ⟨'"', true, false⟩ text

/-- Reads a text between apostrophes. -/
def readLiteral? (text : List Char) : Option (String × List Char) :=
  Quoting.read? ⟨'\'', false, false⟩ text

/-- Reads a text, opening quotes included. -/
def readText? : List Char → Option (String × List Char)
  | '"' :: '"' :: '"' :: rest => Quoting.read? ⟨'"', true, true⟩ rest
  | '"' :: rest => readBasic? rest
  | '\'' :: '\'' :: '\'' :: rest => Quoting.read? ⟨'\'', false, true⟩ rest
  | '\'' :: rest => readLiteral? rest
  | _ => none

/-! ### Readings -/

example : readText? "\"a\\u00e9\" b".toList = some ("aé", [' ', 'b']) := by cbv

example : readText? "\"\"\"\na\\ \n  b\"\"\"\"".toList = some ("ab\"", []) := by cbv

example : readText? "'a\nb'".toList = none := by cbv

end DspHost.Toml
