import DspHost.Number.Single

/-!
# Module metadata

A compiler describes each module by a document next to its binary: the size of an instance, the
number of channels, and a tree of groups and widgets. Every widget has a path, the control path, and
the byte offset of its value inside an instance.

## Main definitions

* `MetaEntry` — annotations by key
* `Slider`, `Toggle`, `Bargraph`, `UiItem` — the widgets and the tree they stand in
* `ModuleMetadata` — the whole description
* `Visit`, `UiItem.visits` — the tree as a walk through it sees it
* `combinedUi` — the trees of an instrument and its effect as two panels of one
-/

namespace DspHost

/-! ### Annotations -/

/-- Annotations of one entry, sorted by key. -/
abbrev MetaEntry := List (String × String)

namespace MetaEntry

/-- The entry with an annotation added; an annotation with the same key is replaced. -/
def insert (entry : MetaEntry) (key value : String) : MetaEntry :=
  match entry with
  | [] => [(key, value)]
  | (k, v) :: rest =>
    if key < k then (key, value) :: (k, v) :: rest
    else if key = k then (key, value) :: rest
    else (k, v) :: insert rest key value

/-- The entry with the given annotations, a later one winning over an earlier one. -/
def ofList (annotations : List (String × String)) : MetaEntry :=
  annotations.foldl (fun entry a => insert entry a.1 a.2) []

/-- The annotation with a key. -/
def get? (entry : MetaEntry) (key : String) : Option String := List.lookup key entry

end MetaEntry

/-! ### Widgets -/

/-- How a group lays out its items. -/
inductive GroupKind where
  /-- Top to bottom. -/
  | vertical
  /-- Left to right. -/
  | horizontal
  /-- One at a time. -/
  | tabbed
  deriving DecidableEq, Repr

/-- The flavours of a continuous input. -/
inductive SliderKind where
  /-- A horizontal slider. -/
  | horizontal
  /-- A vertical slider. -/
  | vertical
  /-- A numeric entry. -/
  | entry
  deriving DecidableEq, Repr

/-- The flavours of a two-state input. -/
inductive ToggleKind where
  /-- On while pressed. -/
  | button
  /-- On until pressed again. -/
  | checkbox
  deriving DecidableEq, Repr

/-- The flavours of a meter. -/
inductive BargraphKind where
  /-- A horizontal meter. -/
  | horizontal
  /-- A vertical meter. -/
  | vertical
  deriving DecidableEq, Repr

/-- A continuous input. -/
structure Slider where
  /-- What the host shows. -/
  label : String
  /-- The control path. -/
  address : String
  /-- The byte offset of the value. -/
  index : Nat
  /-- The initial value. -/
  init : Single
  /-- The least value. -/
  min : Single
  /-- The greatest value. -/
  max : Single
  /-- The step between values. -/
  step : Single
  /-- Annotations. -/
  annotations : List MetaEntry
  deriving DecidableEq, Repr

/-- A two-state input, off at first. -/
structure Toggle where
  /-- What the host shows. -/
  label : String
  /-- The control path. -/
  address : String
  /-- The byte offset of the value. -/
  index : Nat
  /-- Annotations. -/
  annotations : List MetaEntry
  deriving DecidableEq, Repr

/-- A meter that the module writes. -/
structure Bargraph where
  /-- What the host shows. -/
  label : String
  /-- The control path. -/
  address : String
  /-- The byte offset of the value. -/
  index : Nat
  /-- The least value. -/
  min : Single
  /-- The greatest value. -/
  max : Single
  /-- Annotations. -/
  annotations : List MetaEntry
  deriving DecidableEq, Repr

/-- A node of the tree. -/
inductive UiItem where
  /-- A group of items. -/
  | group (kind : GroupKind) (label : String) (items : List UiItem)
  /-- A continuous input. -/
  | slider (kind : SliderKind) (slider : Slider)
  /-- A two-state input. -/
  | toggle (kind : ToggleKind) (toggle : Toggle)
  /-- A meter. -/
  | bargraph (kind : BargraphKind) (bargraph : Bargraph)
  /-- A widget that the host does not drive. -/
  | unsupported
  deriving Repr, Inhabited

/-- The description of a module. -/
structure ModuleMetadata where
  /-- The name of the program. -/
  name : String
  /-- The file it was compiled from. -/
  filename : String
  /-- The bytes of one instance. -/
  size : Nat
  /-- The input channels. -/
  inputs : Nat
  /-- The output channels. -/
  outputs : Nat
  /-- Annotations of the whole module. -/
  annotations : List MetaEntry
  /-- The tree of groups and widgets. -/
  ui : List UiItem
  deriving Repr, Inhabited

/-! ### The walk -/

/-- The flavours of an input. -/
inductive Widget where
  /-- A continuous input. -/
  | slider (kind : SliderKind)
  /-- A two-state input. -/
  | toggle (kind : ToggleKind)
  deriving DecidableEq, Repr

/-- The label of a widget. -/
def Widget.label : Widget → String
  | slider .horizontal => "HSlider"
  | slider .vertical => "VSlider"
  | slider .entry => "NEntry"
  | toggle .button => "Button"
  | toggle .checkbox => "Checkbox"

/-- What all inputs have in common. -/
structure InputControl where
  /-- The flavour. -/
  widget : Widget
  /-- The control path. -/
  address : String
  /-- The byte offset of the value. -/
  index : Nat
  /-- The initial value. -/
  init : Single
  /-- The least value. -/
  min : Single
  /-- The greatest value. -/
  max : Single
  /-- The step between values. -/
  step : Single
  /-- Annotations. -/
  annotations : List MetaEntry
  deriving DecidableEq, Repr

/-- A slider as an input. -/
def Slider.input (s : Slider) (kind : SliderKind) : InputControl :=
  ⟨.slider kind, s.address, s.index, s.init, s.min, s.max, s.step, s.annotations⟩

/-- A toggle as an input: off and on are zero and one. -/
def Toggle.input (t : Toggle) (kind : ToggleKind) : InputControl :=
  ⟨.toggle kind, t.address, t.index, .zero, .zero, .one, .one, t.annotations⟩

/-- What a walk through the tree meets. -/
inductive Visit where
  /-- The beginning of a group. -/
  | enter (label : String)
  /-- The end of a group. -/
  | exit (label : String)
  /-- An input. -/
  | input (control : InputControl)
  /-- A meter. -/
  | output (meter : Bargraph)
  /-- A widget that the host does not drive. -/
  | unsupported
  deriving DecidableEq, Repr

mutual

/-- A node and everything below it, depth first. -/
def UiItem.visits : UiItem → List Visit
  | .group _ label items => .enter label :: (visitsOf items ++ [.exit label])
  | .slider kind s => [.input (s.input kind)]
  | .toggle kind t => [.input (t.input kind)]
  | .bargraph _ b => [.output b]
  | .unsupported => [.unsupported]

/-- Sibling nodes in order. -/
def visitsOf : List UiItem → List Visit
  | [] => []
  | item :: items => item.visits ++ visitsOf items

end

/-- The trees of an instrument and of its effect as two panels; without an effect the tree of the
instrument. -/
def combinedUi (instrument : List UiItem) : Option (List UiItem) → List UiItem
  | none => instrument
  | some effect =>
    [.group .tabbed "Sequencer"
      [.group .vertical "Instrument" instrument, .group .vertical "Effect" effect]]

theorem visitsOf_append (items items' : List UiItem) :
    visitsOf (items ++ items') = visitsOf items ++ visitsOf items' := by
  induction items with
  | nil => simp [visitsOf]
  | cons item items ih => simp [visitsOf, ih]

end DspHost
