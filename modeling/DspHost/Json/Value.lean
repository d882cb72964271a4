import DspHost.Number.Shortest

/-!
# Documents

A document is the tree that its text spells. Members of an object keep their order and their
repetitions, and numbers keep their digits: what a repetition or a number is worth depends on what
is read from it. A text whose escapes spell half of a surrogate pair stands for no characters; it
may sit in a part of the document that nobody reads, so it is a value of its own and not an error.

## Main definitions

* `Json` — the tree
* `Json.ofNat`, `Json.ofSingle`, `Json.ofString` — leaves
* `Json.deepest` — how deep a document may be nested where it is read
-/

namespace DspHost

/-- A document tree. -/
inductive Json where
  /-- The absent value. -/
  | null
  /-- A truth value. -/
  | bool (value : Bool)
  /-- A number, as written. -/
  | number (literal : Literal)
  /-- A text, `none` if an escape in it spells half of a surrogate pair. -/
  | string (characters : Option String)
  /-- A list of documents. -/
  | array (items : List Json)
  /-- A list of named documents, in the order they are written. -/
  | object (members : List (Option String × Json))
  deriving Repr, Inhabited

namespace Json

/-- How many containers may be open at once where a document is read. -/
def deepest : Nat := 127

/-- A natural number as a document. -/
def ofNat (n : Nat) : Json := .number (.ofNat n)

/-- A text as a document. -/
def ofString (s : String) : Json := .string (some s)

/-- A single as a document: infinities and NaN have no number. -/
def ofSingle (x : Single) : Json :=
  match x.literal? .document with
  | some literal => .number literal
  | none => .null

/-- An object with the given members. -/
def ofMembers (members : List (String × Json)) : Json :=
  .object (members.map fun m => (some m.1, m.2))

end Json

end DspHost
