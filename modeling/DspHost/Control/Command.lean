import DspHost.Control.Event
import DspHost.Midi

/-!
# Commands

What the control end delivers to the audio end are commands: events with paths resolved, fields cut
to their width and channels left out.

## Main definitions

* `BindingId` — the place of a control in the parameter table
* `Command` — what is delivered
* `Readback` — what the audio end reports
* `ControlError` — why an event is refused
-/

namespace DspHost

/-- The place of a control in the parameter table. -/
abbrev BindingId := Nat

/-- What the control end delivers to the audio end. -/
inductive Command where
  /-- A note begins. -/
  | noteOn (pitch velocity : UInt8)
  /-- A note ends. -/
  | noteOff (pitch : UInt8)
  /-- A controller moves. -/
  | controlChange (controller value : UInt8)
  /-- The pitch wheel moves. -/
  | pitchWheel (value : UInt16)
  /-- A control is set. -/
  | setParameter (binding : BindingId) (value : Single)
  /-- Every note ends. -/
  | allNotesOff
  /-- The processor is torn down. -/
  | destroy
  deriving DecidableEq, Repr

/-- The command in a diagnostic message. -/
def Command.label : Command → String
  | noteOn pitch velocity =>
    labelRecord "NoteOn" [("pitch", toString pitch), ("velocity", toString velocity)]
  | noteOff pitch => labelRecord "NoteOff" [("pitch", toString pitch)]
  | controlChange controller value =>
    labelRecord "ControlChange" [("controller", toString controller), ("value", toString value)]
  | pitchWheel value => labelRecord "PitchWheel" [("value", toString value)]
  | setParameter binding value =>
    labelRecord "SetParameter"
      [("binding", s!"BindingId({binding})"), ("value", value.written .diagnostic)]
  | allNotesOff => "AllNotesOff"
  | destroy => "Destroy"

/-- The current value of a meter, reported by the audio end. -/
structure Readback where
  /-- The meter. -/
  binding : BindingId
  /-- Its value. -/
  value : Single
  deriving DecidableEq, Repr

/-- Why an event is refused. -/
inductive ControlError where
  /-- No control has this path. -/
  | unknownPath (path : String)
  /-- The control is a meter. -/
  | outputOnly (path : String)
  /-- The control belongs to the voices. -/
  | voiceManaged (path : String)
  deriving DecidableEq, Repr

/-- The message of a control error. -/
def ControlError.message : ControlError → String
  | unknownPath path => s!"unknown control path {path}"
  | outputOnly path => s!"control {path} is output-only"
  | voiceManaged path => s!"control {path} is driven by note events"

end DspHost
