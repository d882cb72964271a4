import DspHost.Json.Decode
import DspHost.Json.Writer
import DspHost.Text.Quoted

/-!
# Control events

Events are what a host sends to a processor. Those shaped like channel messages carry a channel; a
control is set by its path. Events are recorded as documents: an event without fields is its name,
every other one an object with its name as the only member. A text may give the fields in their
order; an event that is part of a larger document gives them by name.

## Main definitions

* `Event` — the events
* `Event.channel?` — the channel of a channel message
* `Event.label` — an event in a diagnostic message
* `Event.toJson`, `Event.ofJson?`, `Event.ofNamedJson?` — events as documents
-/

namespace DspHost

/-- What a host sends to a processor. -/
inductive Event where
  /-- A note begins. -/
  | noteOn (channel pitch velocity : UInt8)
  /-- A note ends. -/
  | noteOff (channel pitch velocity : UInt8)
  /-- A controller moves. -/
  | controlChange (channel controller value : UInt8)
  /-- The pitch wheel moves. -/
  | pitchWheel (channel : UInt8) (value : UInt16)
  /-- A control is set by path. -/
  | parameterSet (path : String) (value : Single)
  /-- Every note ends. -/
  | allNotesOff
  /-- The processor is torn down. -/
  | destroy
  deriving DecidableEq, Repr, Inhabited

/-- A named field in a diagnostic message. -/
def labelField (name value : String) : String := s!"{name}: {value}"

/-- A name with its fields in a diagnostic message. -/
def labelRecord (name : String) (fields : List (String × String)) : String :=
  name ++ " \x7b " ++ ", ".intercalate (fields.map fun f => labelField f.1 f.2) ++ " \x7d"

namespace Event

/-- The channel of a channel message. -/
def channel? : Event → Option UInt8
  | noteOn channel _ _ => some channel
  | noteOff channel _ _ => some channel
  | controlChange channel _ _ => some channel
  | pitchWheel channel _ => some channel
  | parameterSet _ _ => none
  | allNotesOff => none
  | destroy => none

/-- The event in a diagnostic message. -/
def label : Event → String
  | noteOn channel pitch velocity =>
    labelRecord "NoteOn"
      [("channel", toString channel), ("pitch", toString pitch), ("velocity", toString velocity)]
  | noteOff channel pitch velocity =>
    labelRecord "NoteOff"
      [("channel", toString channel), ("pitch", toString pitch), ("velocity", toString velocity)]
  | controlChange channel controller value =>
    labelRecord "ControlChange"
      [("channel", toString channel), ("controller", toString controller),
        ("value", toString value)]
  | pitchWheel channel value =>
    labelRecord "PitchWheel" [("channel", toString channel), ("value", toString value)]
  | parameterSet path value =>
    labelRecord "RawParameterSet"
      [("path", quoted path), ("value", value.written .diagnostic)]
  | allNotesOff => "AllNotesOff"
  | destroy => "Destroy"

/-! ### Events as documents -/

/-- An event with fields as a document. -/
def record (name : String) (fields : List (String × Json)) : Json :=
  .ofMembers [(name, .ofMembers fields)]

/-- The document of an event. -/
def toJson : Event → Json
  | noteOn channel pitch velocity =>
    record "NoteOn"
      [("channel", .ofNat channel.toNat), ("pitch", .ofNat pitch.toNat),
        ("velocity", .ofNat velocity.toNat)]
  | noteOff channel pitch velocity =>
    record "NoteOff"
      [("channel", .ofNat channel.toNat), ("pitch", .ofNat pitch.toNat),
        ("velocity", .ofNat velocity.toNat)]
  | controlChange channel controller value =>
    record "ControlChange"
      [("channel", .ofNat channel.toNat), ("controller", .ofNat controller.toNat),
        ("value", .ofNat value.toNat)]
  | pitchWheel channel value =>
    record "PitchWheel" [("channel", .ofNat channel.toNat), ("value", .ofNat value.toNat)]
  | parameterSet path value =>
    record "RawParameterSet" [("path", .ofString path), ("value", .ofSingle value)]
  | allNotesOff => .ofString "AllNotesOff"
  | destroy => .ofString "Destroy"

/-- A byte in a document. -/
def byte? (document : Json) : Option UInt8 := (document.wholeBelow? 256).map Nat.toUInt8

/-- The three bytes of a channel message. -/
def bytes3? (names : List String) (build : UInt8 → UInt8 → UInt8 → Event) (body : Json) :
    Option Event := do
  match ← body.fields? names with
  | [some a, some b, some c] => return build (← byte? a) (← byte? b) (← byte? c)
  | _ => none

/-- The event with the given name and fields. -/
def ofFields? (name : String) (body : Json) : Option Event :=
  match name with
  | "NoteOn" => bytes3? ["channel", "pitch", "velocity"] noteOn body
  | "NoteOff" => bytes3? ["channel", "pitch", "velocity"] noteOff body
  | "ControlChange" => bytes3? ["channel", "controller", "value"] controlChange body
  | "PitchWheel" => do
    match ← body.fields? ["channel", "value"] with
    | [some channel, some value] =>
      return pitchWheel (← byte? channel) (← value.wholeBelow? 65536).toUInt16
    | _ => none
  | "RawParameterSet" => do
    match ← body.fields? ["path", "value"] with
    | [some path, some value] => return parameterSet (← path.string?) (← value.single?)
    | _ => none
  | "AllNotesOff" => if body matches .null then some allNotesOff else none
  | "Destroy" => if body matches .null then some destroy else none
  | _ => none

/-- The event that a document holds, with its fields by name or in their order. -/
def ofJson? : Json → Option Event
  | .string (some "AllNotesOff") => some allNotesOff
  | .string (some "Destroy") => some destroy
  | .object [(some name, body)] => ofFields? name body
  | _ => none

/-- The event that a document holds with its fields by name. -/
def ofNamedJson? : Json → Option Event
  | .object [(_, .array _)] => none
  | document => ofJson? document

end Event

end DspHost
