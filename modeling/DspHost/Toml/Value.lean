import DspHost.Toml.Moment
import DspHost.Toml.Number

/-!
# Values of a settings file

A settings file is written in TOML. A value is what stands to the right of an equals sign; a key is
what stands to its left, one or more names with points between them.

## Main definitions

* `Toml.Key` — a key
* `Toml.Value` — a value
* `Toml.Entry` — a key and its value
-/

namespace DspHost.Toml

/-- A key. The last name stands for the value, the names before it for the tables around it. -/
structure Key where
  /-- The names of the tables, the outermost first. -/
  parents : List String
  /-- The last name. -/
  name : String
  deriving DecidableEq, Repr

/-- A value. -/
inductive Value where
  /-- A text. -/
  | text (characters : String)
  /-- A number. -/
  | number (value : Number)
  /-- A truth value. -/
  | truth (value : Bool)
  /-- A date, a time of day, or both. -/
  | moment (value : Moment)
  /-- A list of values. -/
  | array (items : List Value)
  /-- A table between braces, with its entries in the order they are written. -/
  | inline (entries : List (Key × Value))
  deriving Repr, Inhabited

/-- A key and its value. -/
abbrev Entry := Key × Value

end DspHost.Toml
