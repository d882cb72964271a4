/-!
# Blanks, comments and line endings of a settings file

A line ends in a line feed, with or without a carriage return in front of it. A comment runs up to
the end of its line.

## Main definitions

* `Toml.isPlain` — the characters that texts and comments are made of
* `Toml.skipSpace`, `Toml.skipComment`, `Toml.skipLines` — the text after blanks
* `Toml.newline?`, `Toml.lineEnd?` — the text after a line ending
-/

namespace DspHost.Toml

/-- A space or a tab. -/
def isSpace (c : Char) : Bool := c == ' ' || c == '\t'

/-- A tab or any character that is no control character of the first half of the table. -/
def isPlain (c : Char) : Bool := c == '\t' || (0x20 ≤ c.toNat && c != '\x7f')

/-- The text after its leading spaces and tabs. -/
def skipSpace (text : List Char) : List Char := text.dropWhile isSpace

/-- The text after a comment, if it starts with one. -/
def skipComment (text : List Char) : List Char :=
  match text with
  | '#' :: rest => rest.dropWhile isPlain
  | _ => text

/-- The text after a line ending; none if it does not start with one. -/
def newline? : List Char → Option (List Char)
  | '\n' :: rest => some rest
  | '\r' :: '\n' :: rest => some rest
  | _ => none

/-- The text after the rest of a line: blanks, perhaps a comment, and a line ending or the end. -/
def lineEnd? (text : List Char) : Option (List Char) :=
  match skipComment (skipSpace text) with
  | [] => some []
  | rest => newline? rest

/-- The text after blanks, line endings and comments. -/
def skipLines : List Char → List Char
  | [] => []
  | '\n' :: rest => skipLines rest
  | '\r' :: '\n' :: rest => skipLines rest
  | '#' :: rest => skipRemark rest
  | c :: rest => if isSpace c then skipLines rest else c :: rest
where
  /-- The text after the rest of a comment and the blanks behind it. -/
  skipRemark : List Char → List Char
  | [] => []
  | '\n' :: rest => skipLines rest
  | '\r' :: '\n' :: rest => skipLines rest
  | c :: rest => if isPlain c then skipRemark rest else c :: rest

example : skipLines " # a\n\t# b\r\n c".toList = ['c'] := by cbv

example : lineEnd? " # a\nb".toList = some ['b'] ∧ lineEnd? " b".toList = none := by
  constructor <;> cbv

end DspHost.Toml
