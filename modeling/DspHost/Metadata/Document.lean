import DspHost.Json.Decode
import DspHost.Json.Writer
import DspHost.Metadata.Validation
import DspHost.Text.Blank

/-!
# Metadata documents

The description of a module is read from a document and can be written as one. A node of the tree
names its kind in a member `type`; as an array it begins with its kind. Kinds that are not known are
kept as unsupported widgets. Older compilers write numbers as texts, so both spellings are read.

A node is read in full before its kind is known, so everything in it has to have a value; the fields
of the module itself are read one by one, and members with other names are skipped unread.

## Main definitions

* `Json.lenientSize?`, `Json.lenientSingle?` — numbers in either spelling
* `UiItem.ofJson?`, `UiItem.toJson` — a node as a document
* `ModuleMetadata.ofJson?`, `ModuleMetadata.toJson` — a description as a document
* `ModuleMetadata.parse` — a checked description from a text
-/

namespace DspHost

namespace Json

/-- A size: a number that is whole in double precision, the greatest ones cut to a word, or a text
with its decimal digits. -/
def lenientSize? : Json → Option Nat
  | number literal =>
    match literal.numeral?.map Numeral.double with
    | some (negative, magnitude) =>
      if magnitude.isWhole ∧ (negative = false ∨ magnitude.mantissa = 0)
          ∧ magnitude.floor ≤ wordLimit then
        some (min magnitude.floor (wordLimit - 1))
      else none
    | none => none
  | string (some text) => naturalOfText? wordLimit (trimBlank text.toList)
  | _ => none

/-- A control value: a number, rounded from double precision, or its text. -/
def lenientSingle? : Json → Option Single
  | number literal => literal.numeral?.map fun n => Single.ofScaled n.double.1 n.double.2
  | string (some text) => Single.ofText? (trimBlank text.toList)
  | _ => none

end Json

/-! ### Annotations -/

namespace MetaEntry

/-- The annotations of an object whose members are texts. -/
def ofJson? : Json → Option MetaEntry
  | .object members => do
    let annotations ← members.mapM fun m => do return (← m.1, ← m.2.string?)
    return ofList annotations
  | _ => none

/-- The object of annotations. -/
def toJson (entry : MetaEntry) : Json :=
  .ofMembers (entry.map fun a => (a.1, .ofString a.2))

/-- A list of entries, empty if the field is missing. -/
def listOfJson? : Option Json → Option (List MetaEntry)
  | none => some []
  | some document => document.list? ofJson?

end MetaEntry

/-- The list of entries as a document. -/
def annotationsToJson (entries : List MetaEntry) : Json := .array (entries.map MetaEntry.toJson)

/-! ### Widgets -/

namespace Slider

/-- A slider from the members of its node. -/
def ofJson? (body : Json) : Option Slider := do
  match ← body.fields? ["label", "address", "index", "init", "min", "max", "step", "meta"] with
  | [some label, some address, some index, some init, some min, some max, step, annotations] =>
    return {
      label := ← label.string?
      address := ← address.string?
      index := ← index.lenientSize?
      init := ← init.lenientSingle?
      min := ← min.lenientSingle?
      max := ← max.lenientSingle?
      step := ← match step with
        | none => some Single.zero
        | some step => step.lenientSingle?
      annotations := ← MetaEntry.listOfJson? annotations }
  | _ => none

/-- The members of a slider. -/
def members (s : Slider) : List (String × Json) :=
  [("label", .ofString s.label), ("address", .ofString s.address), ("index", .ofNat s.index),
    ("init", .ofSingle s.init), ("min", .ofSingle s.min), ("max", .ofSingle s.max),
    ("step", .ofSingle s.step), ("meta", annotationsToJson s.annotations)]

end Slider

namespace Toggle

/-- A toggle from the members of its node. -/
def ofJson? (body : Json) : Option Toggle := do
  match ← body.fields? ["label", "address", "index", "meta"] with
  | [some label, some address, some index, annotations] =>
    return {
      label := ← label.string?
      address := ← address.string?
      index := ← index.lenientSize?
      annotations := ← MetaEntry.listOfJson? annotations }
  | _ => none

/-- The members of a toggle. -/
def members (t : Toggle) : List (String × Json) :=
  [("label", .ofString t.label), ("address", .ofString t.address), ("index", .ofNat t.index),
    ("meta", annotationsToJson t.annotations)]

end Toggle

namespace Bargraph

/-- A meter from the members of its node. -/
def ofJson? (body : Json) : Option Bargraph := do
  match ← body.fields? ["label", "address", "index", "min", "max", "meta"] with
  | [some label, some address, some index, some min, some max, annotations] =>
    return {
      label := ← label.string?
      address := ← address.string?
      index := ← index.lenientSize?
      min := ← min.lenientSingle?
      max := ← max.lenientSingle?
      annotations := ← MetaEntry.listOfJson? annotations }
  | _ => none

/-- The members of a meter. -/
def members (b : Bargraph) : List (String × Json) :=
  [("label", .ofString b.label), ("address", .ofString b.address), ("index", .ofNat b.index),
    ("min", .ofSingle b.min), ("max", .ofSingle b.max),
    ("meta", annotationsToJson b.annotations)]

end Bargraph

/-! ### The tree -/

/-- The kinds of node that the host knows. -/
inductive UiTag where
  /-- A group. -/
  | group (kind : GroupKind)
  /-- A continuous input. -/
  | slider (kind : SliderKind)
  /-- A two-state input. -/
  | toggle (kind : ToggleKind)
  /-- A meter. -/
  | bargraph (kind : BargraphKind)
  /-- Any other kind. -/
  | unsupported
  deriving DecidableEq, Repr

namespace UiTag

/-- The known kinds with their names, in the order of their numbers. -/
def known : List (String × UiTag) :=
  [("vgroup", group .vertical), ("hgroup", group .horizontal), ("tgroup", group .tabbed),
    ("hslider", slider .horizontal), ("vslider", slider .vertical), ("nentry", slider .entry),
    ("button", toggle .button), ("checkbox", toggle .checkbox),
    ("hbargraph", bargraph .horizontal), ("vbargraph", bargraph .vertical)]

/-- The kind with a name. -/
def ofName (name : String) : UiTag := (known.lookup name).getD unsupported

/-- The kind with a number. -/
def ofNumber (n : Nat) : UiTag := (known[n]?.map (·.2)).getD unsupported

/-- The name of a kind. -/
def name (tag : UiTag) : String :=
  ((known.find? fun entry => entry.2 == tag).map (·.1)).getD "unsupported"

/-- The kind that a document names. Below the top of the tree it may also be given by number. -/
def ofJson? (nested : Bool) : Json → Option UiTag
  | .string (some text) => some (ofName text)
  | .number literal =>
    -- A node is read whole before its kind is known, and then its parts are read less strictly.
    if nested then (literal.numeral?.bind (Json.Numeral.wholeBelow? wordLimit)).map ofNumber
    else none
  | _ => none

end UiTag

namespace UiItem

/-- The kind of a node and what else it holds. -/
def split? (nested : Bool) : Json → Option (UiTag × Json)
  | .object members => do
    let tag ← (← Json.member? "type" members)
    return (← UiTag.ofJson? nested tag, .object (members.filter fun m => m.1 != some "type"))
  | .array (tag :: items) => do return (← UiTag.ofJson? nested tag, .array items)
  | _ => none

/-- Whether a node that the host does not drive is complete: nothing may follow its kind in an
array. -/
def isBare : Json → Bool
  | .array items => items.isEmpty
  | _ => true

/-- A node of a tree that is at most `depth` groups deep. -/
def read? (depth : Nat) (nested : Bool) (document : Json) : Option UiItem := do
  let (tag, body) ← split? nested document
  match tag with
  | .slider kind => return slider kind (← Slider.ofJson? body)
  | .toggle kind => return toggle kind (← Toggle.ofJson? body)
  | .bargraph kind => return bargraph kind (← Bargraph.ofJson? body)
  | .unsupported => if isBare body then return unsupported else none
  | .group kind =>
    match depth with
    | 0 => none
    | depth + 1 =>
      -- Items are optional, and a group without items is an empty group.
      match ← body.fields? ["label", "items"] with
      | [some label, none] => return group kind (← label.string?) []
      | [some label, some items] =>
        return group kind (← label.string?) (← items.list? (read? depth true))
      | _ => none

/-- The node that a document holds, where `room` more containers may be open. -/
def ofJson? (room : Nat) (document : Json) : Option UiItem :=
  if document.sound room then read? room false document else none

mutual

/-- A node as a document. -/
def toJson : UiItem → Json
  | .group kind label items =>
    .ofMembers [("type", .ofString (UiTag.group kind).name), ("label", .ofString label),
      ("items", .array (listToJson items))]
  | .slider kind s =>
    .ofMembers (("type", .ofString (UiTag.slider kind).name) :: s.members)
  | .toggle kind t =>
    .ofMembers (("type", .ofString (UiTag.toggle kind).name) :: t.members)
  | .bargraph kind b =>
    .ofMembers (("type", .ofString (UiTag.bargraph kind).name) :: b.members)
  | .unsupported => .ofMembers [("type", .ofString UiTag.unsupported.name)]

/-- Sibling nodes as documents. -/
def listToJson : List UiItem → List Json
  | [] => []
  | item :: items => item.toJson :: listToJson items

end

end UiItem

/-- A tree as a document. -/
def uiToJson (ui : List UiItem) : Json := .array (UiItem.listToJson ui)

/-! ### The description -/

namespace ModuleMetadata

/-- The description that a document holds, unchecked. -/
def ofJson? (document : Json) : Option ModuleMetadata := do
  match ← document.fields? ["name", "filename", "size", "inputs", "outputs", "meta", "ui"] with
  | [some name, filename, some size, some inputs, some outputs, annotations, some ui] =>
    return {
      name := ← name.string?
      filename := ← match filename with
        | none => some ""
        | some filename => filename.string?
      size := ← size.lenientSize?
      inputs := ← inputs.lenientSize?
      outputs := ← outputs.lenientSize?
      annotations := ← MetaEntry.listOfJson? annotations
      ui := ← ui.list? (UiItem.ofJson? (Json.deepest - 2)) }
  | _ => none

/-- The description as a document. -/
def toJson (m : ModuleMetadata) : Json :=
  .ofMembers [("name", .ofString m.name), ("filename", .ofString m.filename),
    ("size", .ofNat m.size), ("inputs", .ofNat m.inputs), ("outputs", .ofNat m.outputs),
    ("meta", annotationsToJson m.annotations), ("ui", uiToJson m.ui)]

/-- Reads and checks a description. -/
def parse (text : String) : Except MetadataError ModuleMetadata :=
  match (Json.parse? text).bind ofJson? with
  | none => .error .malformed
  | some m =>
    match m.check? with
    | some error => .error error
    | none => .ok m

end ModuleMetadata

end DspHost
