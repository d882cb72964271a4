import DspHost.Engine.Processor
import DspHost.Pitch

/-!
# Applying commands

A note takes a voice: the voice is cleared and then given the frequency, the gain and an open gate.
When the note ends the gate closes, and the voice decays until another note takes it. Without
voices notes do nothing. The two controllers that silence every voice are applied to bound controls
as well.

Pending commands are applied in order. Applying ends at a teardown, whose successors are never
applied, and at a fault.

## Main definitions

* `Processor.noteOn`, `Processor.noteOff`, `Processor.allNotesOff` — notes
* `Processor.apply` — one command
* `Processor.drain` — pending commands
-/

namespace DspHost.Processor

/-- Writes one of the controls that notes drive, if there is such a control. -/
def writeKey (p : Processor) (region : InstanceRegion) (key : VoiceKey) (value : Single) :
    Processor :=
  match p.table.keys.get? key with
  | some id => p.mapArena (p.router.setOnVoice region id value)
  | none => p

/-- Gives a voice the frequency and the gain of a note, and opens its gate. -/
def startVoice (p : Processor) (region : InstanceRegion) (pitch velocity : UInt8) : Processor :=
  ((p.writeKey region .freq (noteFrequency pitch)).writeKey region .gain
    (velocityGain velocity)).writeKey region .gate .one

/-- Begins a note. -/
def noteOn (p : Processor) (pitch velocity : UInt8) : Except Fault Unit × Processor :=
  match p.voices.bind (·.noteOn? pitch) with
  | none => (.ok (), p)
  | some (_, region, voices) =>
    -- The voice is taken even if its code faults while it is cleared.
    let (outcome, arena) := (p.kernel.clear region.offset).run p.arena
    let cleared := { p with voices := some voices, arena }
    match outcome with
    | .error fault => (.error fault, cleared)
    | .ok () => (.ok (), cleared.startVoice region pitch velocity)

/-- Ends the oldest note of a pitch, if there is one. -/
def noteOff (p : Processor) (pitch : UInt8) : Processor :=
  match p.voices with
  | none => p
  | some voices =>
    let (index, after) := voices.noteOff pitch
    match index.bind (after.voices[·]?) with
    | some voice => { p with voices := some after }.writeKey voice.region .gate .zero
    | none => { p with voices := some after }

/-- Ends every note. -/
def allNotesOff (p : Processor) : Processor :=
  match p.voices with
  | none => p
  | some voices =>
    voices.allNotesOff.voices.foldl (fun p voice => p.writeKey voice.region .gate .zero)
      { p with voices := some voices.allNotesOff }

/-- Moves a controller. -/
def controlChange (p : Processor) (controller value : UInt8) : Processor :=
  -- The gates close first; then the controller moves whatever is bound to it.
  let p := if isPanicController controller then p.allNotesOff else p
  p.mapArena (p.router.controlChange controller value)

/-- Applies one command. -/
def apply (p : Processor) : Command → Except Fault Unit × Processor
  | .noteOn pitch velocity => p.noteOn pitch velocity
  | .noteOff pitch => (.ok (), p.noteOff pitch)
  | .controlChange controller value => (.ok (), p.controlChange controller value)
  | .pitchWheel value => (.ok (), p.mapArena (p.router.pitchWheel value))
  | .setParameter id value => (.ok (), p.mapArena (p.router.set id value))
  | .allNotesOff => (.ok (), p.allNotesOff)
  | .destroy => (.ok (), { p with halt := some .destroyed })

/-- Stops a processor at a fault. -/
def stopAt (p : Processor) (fault : Fault) : Processor := { p with halt := some (.faulted fault) }

/-- Applies pending commands and answers the processor and the commands that were not taken. After a
teardown or a fault the processor has stopped. -/
def drainList (p : Processor) : List Command → Processor × List Command
  | [] => (p, [])
  | .destroy :: rest => ({ p with halt := some .destroyed }, rest)
  | command :: rest =>
    match p.apply command with
    | (.ok (), after) => after.drainList rest
    | (.error fault, after) => (after.stopAt fault, rest)

/-- Applies the commands of a queue. -/
def drain (p : Processor) (commands : Queue Command) : Processor × Queue Command :=
  let (after, rest) := p.drainList commands.items
  (after, ⟨commands.capacity, rest⟩)

end DspHost.Processor
