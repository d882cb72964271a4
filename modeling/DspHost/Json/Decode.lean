import DspHost.Json.Reader

/-!
# Reading records out of documents

A record is written as an object with named members, in any order and among others, or as an array
of its fields in their order. In an object no field may appear twice; members with other names are
not looked at. Fields that are missing are up to the caller.

## Main definitions

* `Json.sound` — whether a whole subtree has a value
* `Json.fields?` — the fields of a record, each present or missing
* `Json.string?`, `Json.single?`, `Json.wholeBelow?`, `Json.list?` — the values of fields
-/

namespace DspHost.Json

mutual

/-- Whether every text and every number of a tree has a value and at most `depth` containers are
open at once. -/
def sound (depth : Nat) : Json → Bool
  | null => true
  | bool _ => true
  | number literal => literal.numeral?.isSome
  | string characters => characters.isSome
  | array items =>
    match depth with
    | 0 => false
    | depth + 1 => soundItems depth items
  | object members =>
    match depth with
    | 0 => false
    | depth + 1 => soundMembers depth members

/-- Whether every item is sound. -/
def soundItems (depth : Nat) : List Json → Bool
  | [] => true
  | item :: items => sound depth item && soundItems depth items

/-- Whether every member has a name and a sound value. -/
def soundMembers (depth : Nat) : List (Option String × Json) → Bool
  | [] => true
  | (name, value) :: members => name.isSome && sound depth value && soundMembers depth members

end

/-- The value of the only member with the given name, `none` if there is no such member, and a
failure if there are two. -/
def member? (name : String) (members : List (Option String × Json)) : Option (Option Json) :=
  match members.filter (fun m => m.1 == some name) with
  | [] => some none
  | [(_, value)] => some (some value)
  | _ => none

/-- The fields of a record, in the order of `names`. -/
def fields? (names : List String) : Json → Option (List (Option Json))
  | object members =>
    -- Every name is read to see whether it is one of the record's, so every name must have a value.
    if members.all (fun m => m.1.isSome) then names.mapM (member? · members) else none
  | array items =>
    if items.length ≤ names.length then
      some (items.map some ++ List.replicate (names.length - items.length) none)
    else none
  | _ => none

/-- The characters of a text. -/
def string? : Json → Option String
  | string characters => characters
  | _ => none

/-- A whole number below a limit. -/
def wholeBelow? (limit : Nat) : Json → Option Nat
  | number literal => literal.numeral?.bind (Numeral.wholeBelow? limit)
  | _ => none

/-- A control value. -/
def single? : Json → Option Single
  | number literal => literal.numeral?.map Numeral.single
  | _ => none

/-- The items of an array. -/
def items? : Json → Option (List Json)
  | array items => some items
  | _ => none

/-- A list whose items are all read by `read`. -/
def list? (read : Json → Option α) (document : Json) : Option (List α) := do
  (← document.items?).mapM read

end DspHost.Json
