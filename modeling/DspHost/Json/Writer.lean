import DspHost.Json.Value
import DspHost.Text.Hex

/-!
# Writing documents

Documents are written without white space. In texts only quotes, backslashes and the controls below
the space are escaped, the usual ones by a letter and the others by their number.

## Main definitions

* `Json.escapedChar` — what stands for a character of a text
* `Json.render` — the text of a document
-/

namespace DspHost.Json

/-- What stands for a character between quotes. -/
def escapedChar (c : Char) : List Char :=
  if c = '"' then ['\\', '"']
  else if c = '\\' then ['\\', '\\']
  else if c = '\x08' then ['\\', 'b']
  else if c = '\x0c' then ['\\', 'f']
  else if c = '\n' then ['\\', 'n']
  else if c = '\r' then ['\\', 'r']
  else if c = '\t' then ['\\', 't']
  else if c.toNat < 0x20 then '\\' :: 'u' :: hexText 4 c.toNat
  else [c]

/-- A text between quotes. -/
def renderText (text : List Char) : List Char := '"' :: (text.flatMap escapedChar ++ ['"'])

mutual

/-- The characters of a document. A text without characters has no spelling and is left empty. -/
def render : Json → List Char
  | null => ['n', 'u', 'l', 'l']
  | bool true => ['t', 'r', 'u', 'e']
  | bool false => ['f', 'a', 'l', 's', 'e']
  | number literal => literal.text ['+']
  | string characters => renderText (characters.getD "").toList
  | array items => '[' :: renderItems items
  | object members => '\x7b' :: renderMembers members

/-- The items of an array, separated by commas, and its closing bracket. -/
def renderItems : List Json → List Char
  | [] => [']']
  | [item] => render item ++ [']']
  | item :: items => render item ++ ',' :: renderItems items

/-- The members of an object, separated by commas, and its closing brace. -/
def renderMembers : List (Option String × Json) → List Char
  | [] => ['\x7d']
  | [(name, value)] => renderText (name.getD "").toList ++ ':' :: (render value ++ ['\x7d'])
  | (name, value) :: members =>
    renderText (name.getD "").toList ++ ':' :: (render value ++ ',' :: renderMembers members)

end

/-- The text of a document. -/
def toText (document : Json) : String := String.ofList document.render

end DspHost.Json
