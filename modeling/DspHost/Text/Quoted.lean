import DspHost.Text.Hex
import DspHost.Text.Hidden

/-!
# Quoted texts in diagnostics

A diagnostic message shows a text between double quotes so that its extent and its odd characters
can be seen: quotes, backslashes and the usual controls are escaped by a letter, characters without
a shape of their own by their number in braces.

## Main definitions

* `quoted` — a text between quotes
* `quotedChars` — what stands for its characters
-/

namespace DspHost

/-- The number of a character, in hexadecimal without leading zeros. -/
def codeNumber (c : Char) : List Char := Nat.toDigits 16 c.toNat

/-- What stands for a character between the quotes. -/
def quotedChar (c : Char) : List Char :=
  if c = '\x00' then ['\\', '0']
  else if c = '\t' then ['\\', 't']
  else if c = '\r' then ['\\', 'r']
  else if c = '\n' then ['\\', 'n']
  else if c = '"' then ['\\', '"']
  else if c = '\\' then ['\\', '\\']
  else if isHidden c then '\\' :: 'u' :: '\x7b' :: codeNumber c ++ ['\x7d']
  else [c]

/-- What stands for the characters of a text between the quotes. -/
def quotedChars (text : List Char) : List Char := text.flatMap quotedChar

/-- A text between double quotes. -/
def quoted (text : String) : String :=
  String.ofList ('"' :: quotedChars text.toList ++ ['"'])

@[simp] theorem quotedChars_nil : quotedChars [] = [] := rfl

@[simp] theorem quotedChars_append (s t : List Char) :
    quotedChars (s ++ t) = quotedChars s ++ quotedChars t := by
  simp [quotedChars]

end DspHost
