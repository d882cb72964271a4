import DspHost.Control.Event

/-!
# Channel messages

A host can pass on the bytes of a channel message as they arrive. Status bytes carry the kind of the
message and its channel; data bytes have seven bits. A note with velocity zero ends instead of
beginning. Messages other than the five kinds below, and messages cut short, are not decoded.

Events on the percussion channel are not routed. The two controllers that silence every voice are
heard on all channels.

## Main definitions

* `MidiMessage`, `MidiMessage.parse?` — the messages, and their decoding from bytes
* `MidiMessage.isAllNotesOff` — whether a message silences every voice
* `MidiMessage.toEvent?` — the event that a message stands for
-/

namespace DspHost

/-- The channel that is reserved for percussion. -/
def percussionChannel : UInt8 := 9

/-- The highest position of the pitch wheel. -/
def pitchWheelMax : UInt16 := 16383

/-- A decoded channel message. -/
inductive MidiMessage where
  /-- A note begins. -/
  | noteOn (channel key velocity : UInt8)
  /-- A note ends. -/
  | noteOff (channel key velocity : UInt8)
  /-- A controller moves. -/
  | controlChange (channel controller value : UInt8)
  /-- The pitch wheel moves; the position has fourteen bits. -/
  | pitchBend (channel : UInt8) (value : UInt16)
  /-- Another program is selected. -/
  | programChange (channel program : UInt8)
  deriving DecidableEq, Repr

/-- Whether a controller silences every voice: all sound off, and all notes off. -/
def isPanicController (controller : UInt8) : Bool := controller == 120 || controller == 123

/-- The seven bits of a data byte. -/
def dataBits (byte : UInt8) : UInt8 := byte &&& 0x7f

namespace MidiMessage

/-- The message of a kind with two data bytes. -/
def ofData2? (kind : UInt8) (channel d1 d2 : UInt8) : Option MidiMessage :=
  match kind with
  | 0x8 => some (noteOff channel d1 d2)
  -- A beginning without velocity is an ending.
  | 0x9 => some (if d2 = 0 then noteOff channel d1 d2 else noteOn channel d1 d2)
  | 0xb => some (controlChange channel d1 d2)
  -- The first data byte holds the lower seven bits.
  | 0xe => some (pitchBend channel (d1.toUInt16 ||| (d2.toUInt16 <<< 7)))
  | 0xc => some (programChange channel d1)
  | _ => none

/-- Decodes one message; bytes after it are not looked at. -/
def parse? : List UInt8 → Option MidiMessage
  | status :: d1 :: d2 :: _ => ofData2? (status >>> 4) (status &&& 0x0f) (dataBits d1) (dataBits d2)
  | [status, d1] =>
    if status >>> 4 = 0xc then some (programChange (status &&& 0x0f) (dataBits d1)) else none
  | _ => none

/-- The channel of a message. -/
def channel : MidiMessage → UInt8
  | noteOn channel _ _ => channel
  | noteOff channel _ _ => channel
  | controlChange channel _ _ => channel
  | pitchBend channel _ => channel
  | programChange channel _ => channel

/-- Whether a message silences every voice. -/
def isAllNotesOff : MidiMessage → Bool
  | controlChange _ controller _ => isPanicController controller
  | _ => false

/-- The event with the fields of a message; a program change has none. -/
def event? : MidiMessage → Option Event
  | noteOn channel key velocity => some (.noteOn channel key velocity)
  | noteOff channel key velocity => some (.noteOff channel key velocity)
  | controlChange channel controller value => some (.controlChange channel controller value)
  | pitchBend channel value => some (.pitchWheel channel value)
  | programChange _ _ => none

/-- The event that a message is routed as. -/
def toEvent? (m : MidiMessage) : Option Event :=
  if m.channel = percussionChannel ∧ m.isAllNotesOff = false then none else m.event?

/-- The message in a diagnostic text. -/
def label : MidiMessage → String
  | noteOn channel key velocity =>
    labelRecord "NoteOn"
      [("channel", toString channel), ("key", toString key), ("velocity", toString velocity)]
  | noteOff channel key velocity =>
    labelRecord "NoteOff"
      [("channel", toString channel), ("key", toString key), ("velocity", toString velocity)]
  | controlChange channel controller value =>
    labelRecord "ControlChange"
      [("channel", toString channel), ("controller", toString controller),
        ("value", toString value)]
  | pitchBend channel value =>
    labelRecord "PitchBend" [("channel", toString channel), ("value", toString value)]
  | programChange channel program =>
    labelRecord "ProgramChange" [("channel", toString channel), ("program", toString program)]

end MidiMessage

end DspHost
