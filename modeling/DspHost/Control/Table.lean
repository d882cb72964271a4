import DspHost.Control.Command
import DspHost.Metadata.Basic
import DspHost.Text.Blank

/-!
# The parameter table

Every control of an instrument and of its effect becomes a binding, in the order of the walk through
the two trees. The table keeps indexes, so that a path, a controller or the pitch wheel leads to its
bindings without a search. With voices, the gate, frequency and gain of the instrument belong to the
voices; nobody else writes them.

## Main definitions

* `MidiSource`, `MidiSource.ofText` — which message moves a control
* `Binding`, `Binding.ofVisit?` — a control
* `remap` — affine interpolation from one range to another
* `ParameterTable`, `ParameterTable.build` — the table
* `ParameterTable.lookup?`, `ParameterTable.controller`, `ParameterTable.wheel`,
  `ParameterTable.meters` — its indexes
* `ParameterTable.isAutomatable`, `ParameterTable.isVoiceManaged` — who may write a control
* `ParameterTable.descriptors` — what a host may automate
-/

namespace DspHost

/-! ### Ranges -/

/-- The number of controllers. -/
def controllerCount : Nat := 128

/-- The value moved from one range to another, rounded after every operation. -/
def remap (value inMin inMax outMin outMax : Single) : Single :=
  (value - inMin) / (inMax - inMin) * (outMax - outMin) + outMin

/-! ### Annotations -/

/-- Which message moves a control. -/
inductive MidiSource where
  /-- No message. -/
  | unbound
  /-- A controller. -/
  | controller (number : UInt8)
  /-- The pitch wheel. -/
  | wheel
  deriving DecidableEq, Repr

/-- What there is to say about an annotation. -/
inductive AnnotationRemark where
  /-- A controller without a number that is one. -/
  | invalid
  /-- A message that controls do not listen to. -/
  | unsupported
  deriving DecidableEq, Repr

/-- The message that an annotation names. The first word decides; a controller takes its number from
the second word. -/
def MidiSource.ofText (text : String) : MidiSource × Option AnnotationRemark :=
  match words text.toList with
  | word :: rest =>
    if word = "pitchwheel".toList then (.wheel, none)
    else if word = "ctrl".toList then
      -- Words after the number are not looked at.
      match rest.head?.bind (naturalOfText? controllerCount) with
      | some n => (.controller n.toUInt8, none)
      | none => (.unbound, some .invalid)
    else (.unbound, some .unsupported)
  | [] => (.unbound, some .unsupported)

/-- The first annotation about messages. -/
def midiText? (annotations : List MetaEntry) : Option String :=
  annotations.findSome? (MetaEntry.get? · "midi")

/-- The message that moves a control with the given annotations. -/
def MidiSource.ofAnnotations (annotations : List MetaEntry) : MidiSource :=
  match midiText? annotations with
  | some text => (MidiSource.ofText text).1
  | none => .unbound

/-! ### Bindings -/

/-- The direction of a control. -/
inductive BindingKind where
  /-- The host writes it. -/
  | input (widget : Widget)
  /-- The module writes it. -/
  | output
  deriving DecidableEq, Repr

/-- Which instances a control lives in. -/
inductive Scope where
  /-- Every voice, or the single instance. -/
  | voice
  /-- The effect. -/
  | effect
  deriving DecidableEq, Repr

/-- A control. -/
structure Binding where
  /-- The control path. -/
  path : String
  /-- The byte offset of the value inside an instance. -/
  index : Nat
  /-- The least value. -/
  min : Single
  /-- The greatest value. -/
  max : Single
  /-- The value at first. -/
  default : Single
  /-- The step between values. -/
  step : Single
  /-- The direction. -/
  kind : BindingKind
  /-- The message that moves it. -/
  midi : MidiSource
  /-- The instances it lives in. -/
  scope : Scope
  deriving DecidableEq, Repr

/-- The three controls that a note writes. -/
inductive VoiceKey where
  /-- Open while the note is held. -/
  | gate
  /-- The frequency of the note. -/
  | freq
  /-- The gain of the note. -/
  | gain
  deriving DecidableEq, Repr

namespace VoiceKey

/-- How the path of the control ends. -/
def ending : VoiceKey → String
  | gate => "/gate"
  | freq => "/freq"
  | gain => "/gain"

/-- The key that a path is for. -/
def ofPath? (path : String) : Option VoiceKey :=
  [gate, freq, gain].find? fun key => key.ending.toList.isSuffixOf path.toList

end VoiceKey

/-- Whether a path is for one of the controls that notes write. -/
def isVoiceKey (path : String) : Bool := (VoiceKey.ofPath? path).isSome

namespace Binding

/-- The binding of a control that a walk meets. -/
def ofVisit? (scope : Scope) : Visit → Option Binding
  | .input c =>
    some ⟨c.address, c.index, c.min, c.max, c.init, c.step, .input c.widget,
      .ofAnnotations c.annotations, scope⟩
  | .output b =>
    some ⟨b.address, b.index, b.min, b.max, b.min, .zero, .output,
      .ofAnnotations b.annotations, scope⟩
  | _ => none

/-- Whether the module writes the control. -/
def isOutput (b : Binding) : Bool := b.kind == .output

/-- A controller value in the range of the control. -/
def remapController (b : Binding) (value : UInt8) : Single :=
  remap (.ofNat value.toNat) .zero (.ofNat 127) b.min b.max

/-- A pitch-wheel position in the range of the control. -/
def remapWheel (b : Binding) (value : UInt16) : Single :=
  remap (.ofNat value.toNat) .zero (.ofNat 16383) b.min b.max

end Binding

/-! ### The table -/

/-- The bindings that notes write. -/
structure VoiceKeys where
  /-- The gate. -/
  gate : Option BindingId := none
  /-- The frequency. -/
  freq : Option BindingId := none
  /-- The gain. -/
  gain : Option BindingId := none
  deriving DecidableEq, Repr

namespace VoiceKeys

/-- The binding of a key. -/
def get? (keys : VoiceKeys) : VoiceKey → Option BindingId
  | .gate => keys.gate
  | .freq => keys.freq
  | .gain => keys.gain

/-- The keys with a binding for one of them, unless it has one. -/
def offer (keys : VoiceKeys) (key : VoiceKey) (id : BindingId) : VoiceKeys :=
  match key with
  | .gate => { keys with gate := keys.gate <|> some id }
  | .freq => { keys with freq := keys.freq <|> some id }
  | .gain => { keys with gain := keys.gain <|> some id }

end VoiceKeys

/-- The bindings of a module and its effect, and indexes of them. -/
structure ParameterTable where
  /-- The bindings in the order of the walk. -/
  bindings : List Binding
  /-- The bindings by path, the latest first. -/
  paths : List (String × BindingId)
  /-- The bindings of every controller. -/
  controllers : List (List BindingId)
  /-- The bindings of the pitch wheel. -/
  wheel : List BindingId
  /-- The bindings that the module writes. -/
  meters : List BindingId
  /-- The bindings that notes write. -/
  keys : VoiceKeys
  /-- Whether there are voices. -/
  polyphonic : Bool
  deriving DecidableEq, Repr

/-- What an automated control looks like to a host. -/
structure ParameterDescriptor where
  /-- The control path. -/
  path : String
  /-- The least value. -/
  min : Single
  /-- The greatest value. -/
  max : Single
  /-- The value at first. -/
  default : Single
  deriving DecidableEq, Repr

namespace ParameterTable

/-- A table without bindings. -/
def empty (polyphonic : Bool) : ParameterTable :=
  ⟨[], [], List.replicate controllerCount [], [], [], {}, polyphonic⟩

/-- The binding at a place. -/
def get? (t : ParameterTable) (id : BindingId) : Option Binding := t.bindings[id]?

/-- The binding with a path; of several the latest, so that an effect shadows its instrument. -/
def lookup? (t : ParameterTable) (path : String) : Option BindingId := t.paths.lookup path

/-- The bindings of a controller. -/
def controller (t : ParameterTable) (number : UInt8) : List BindingId :=
  t.controllers.getD number.toNat []

/-- The table with one more binding. -/
def push (t : ParameterTable) (b : Binding) : ParameterTable :=
  -- The latest path comes first, so that looking it up finds the latest binding.
  let id := t.bindings.length
  { bindings := t.bindings ++ [b]
    paths := (b.path, id) :: t.paths
    controllers := match b.midi with
      | .controller n => t.controllers.modify n.toNat (· ++ [id])
      | _ => t.controllers
    wheel := match b.midi with
      | .wheel => t.wheel ++ [id]
      | _ => t.wheel
    meters := if b.isOutput then t.meters ++ [id] else t.meters
    keys := match b.scope, t.polyphonic, VoiceKey.ofPath? b.path with
      | .voice, true, some key => t.keys.offer key id
      | _, _, _ => t.keys
    polyphonic := t.polyphonic }

/-- The table with the controls of a tree. -/
def pushTree (t : ParameterTable) (scope : Scope) (ui : List UiItem) : ParameterTable :=
  ((visitsOf ui).filterMap (Binding.ofVisit? scope)).foldl push t

/-- The table of an instrument and an optional effect. -/
def build (voice : ModuleMetadata) (effect : Option ModuleMetadata) (polyphonic : Bool) :
    ParameterTable :=
  let table := (empty polyphonic).pushTree .voice voice.ui
  match effect with
  | none => table
  | some effect => table.pushTree .effect effect.ui

/-- The number of bindings. -/
def size (t : ParameterTable) : Nat := t.bindings.length

/-- Whether a binding belongs to the voices. -/
def ownedByVoices (t : ParameterTable) (b : Binding) : Bool :=
  t.polyphonic && b.scope == .voice && isVoiceKey b.path

/-- Whether a host may write a binding. -/
def accepts (t : ParameterTable) (b : Binding) : Bool := !b.isOutput && !t.ownedByVoices b

/-- Whether a host may write the binding at a place. -/
def isAutomatable (t : ParameterTable) (id : BindingId) : Bool := (t.get? id).any t.accepts

/-- Whether the binding at a place belongs to the voices. -/
def isVoiceManaged (t : ParameterTable) (id : BindingId) : Bool := (t.get? id).any t.ownedByVoices

/-- The controls that a host may automate. -/
def descriptors (t : ParameterTable) : List ParameterDescriptor :=
  (t.bindings.filter t.accepts).map fun b => ⟨b.path, b.min, b.max, b.default⟩

end ParameterTable

/-- The descriptors as a document. -/
def descriptorsToJson (descriptors : List ParameterDescriptor) : Json :=
  .array (descriptors.map fun d =>
    .ofMembers [("path", .ofString d.path), ("min", .ofSingle d.min), ("max", .ofSingle d.max),
      ("default", .ofSingle d.default)])

end DspHost
