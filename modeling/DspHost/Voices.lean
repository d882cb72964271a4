import DspHost.Memory.Plan

/-!
# The voice table

Each voice is one instance that sounds one note. A new note takes a voice that was never used, else
the releasing voice that was allocated longest ago, else the active one that was. Every allocation
is stamped with the next tick of a clock, so the order of allocations can be read off the table.

The place of a voice in the table stands for its index, which is no field of its own.

## Main definitions

* `VoiceState`, `Voice`, `VoiceTable` — the table
* `VoiceChoice`, `VoiceTable.choose?` — which voice a new note takes, and why
* `VoiceTable.allocate?`, `VoiceTable.release` — the transitions of one voice
* `VoiceTable.noteOn?`, `VoiceTable.noteOff`, `VoiceTable.allNotesOff` — the transitions of a note
-/

namespace DspHost

/-- What a voice is doing. -/
inductive VoiceState where
  /-- It was never allocated. -/
  | free
  /-- It sounds a pitch, with its gate open. -/
  | active (pitch : UInt8)
  /-- Its gate is closed and its envelope decays. -/
  | releasing
  deriving DecidableEq, Repr

/-- The label of a voice state. -/
def VoiceState.label : VoiceState → String
  | free => "Free"
  | active pitch => s!"Active({pitch})"
  | releasing => "Releasing"

/-- One module instance that sounds one note. -/
structure Voice where
  /-- What it is doing. -/
  state : VoiceState
  /-- When it was last allocated; smaller is longer ago. -/
  sequence : Nat
  /-- Its instance. -/
  region : InstanceRegion
  deriving DecidableEq, Repr

namespace Voice

/-- A voice that was never allocated. -/
def fresh (region : InstanceRegion) : Voice := ⟨.free, 0, region⟩

/-- Whether the voice was never allocated. -/
def isFree (v : Voice) : Bool := v.state == .free

/-- Whether the gate of the voice is closed. -/
def isReleasing (v : Voice) : Bool := v.state == .releasing

/-- The pitch that the voice holds. -/
def pitch? (v : Voice) : Option UInt8 :=
  match v.state with
  | .active pitch => some pitch
  | _ => none

/-- The voice with a pitch and an allocation stamp. -/
def start (v : Voice) (pitch : UInt8) (sequence : Nat) : Voice :=
  { v with state := .active pitch, sequence }

/-- The voice with its gate closed. -/
def close (v : Voice) : Voice := { v with state := .releasing }

end Voice

/-- Which voice a new note takes, and why. -/
inductive VoiceChoice where
  /-- A voice that was never allocated. -/
  | free (index : Nat)
  /-- The oldest releasing voice. -/
  | stolenReleasing (index : Nat)
  /-- The oldest active voice. -/
  | stolenActive (index : Nat)
  deriving DecidableEq, Repr

/-- The place of the chosen voice. -/
def VoiceChoice.index : VoiceChoice → Nat
  | free index => index
  | stolenReleasing index => index
  | stolenActive index => index

/-- A fixed number of voices, and the clock that stamps allocations. -/
structure VoiceTable where
  /-- The voices. -/
  voices : List Voice
  /-- How many allocations there were. -/
  clock : Nat
  deriving DecidableEq, Repr

namespace VoiceTable

/-- One fresh voice for every instance. -/
def ofRegions (regions : List InstanceRegion) : VoiceTable := ⟨regions.map Voice.fresh, 0⟩

/-- The voices of a plan; none for a single instance. -/
def ofPlan? (plan : MemoryPlan) : Option VoiceTable :=
  if plan.polyphony.isPoly then some (ofRegions plan.voiceInstances) else none

/-- The place of the earliest stamp among the voices that pass a test, counted from `index`; of
equal stamps the first. -/
def oldestFrom (test : Voice → Bool) (index : Nat) : List Voice → Option (Nat × Nat)
  | [] => none
  | v :: rest =>
    match test v, oldestFrom test (index + 1) rest with
    | false, found => found
    | true, none => some (v.sequence, index)
    | true, some (sequence, place) =>
      if sequence < v.sequence then some (sequence, place) else some (v.sequence, index)

/-- The place of the voice that was allocated longest ago among those that pass a test. -/
def oldest? (t : VoiceTable) (test : Voice → Bool) : Option Nat :=
  (oldestFrom test 0 t.voices).map (·.2)

/-- The voice for a new note; none only if there are no voices. -/
def choose? (t : VoiceTable) : Option VoiceChoice :=
  -- A voice that is silent is taken before one that decays, and that before one that sounds.
  match t.voices.findIdx? Voice.isFree with
  | some index => some (.free index)
  | none =>
    match t.oldest? Voice.isReleasing with
    | some index => some (.stolenReleasing index)
    | none => (t.oldest? fun v => v.pitch?.isSome).map .stolenActive

/-- Starts a voice, whatever it was doing, and answers its instance. -/
def allocate? (t : VoiceTable) (index : Nat) (pitch : UInt8) :
    Option (InstanceRegion × VoiceTable) :=
  t.voices[index]?.map fun v =>
    (v.region, ⟨t.voices.modify index (·.start pitch (t.clock + 1)), t.clock + 1⟩)

/-- Closes the gate of an active voice; other voices are left alone. -/
def release (t : VoiceTable) (index : Nat) : Bool × VoiceTable :=
  match t.voices[index]?.bind Voice.pitch? with
  | some _ => (true, { t with voices := t.voices.modify index Voice.close })
  | none => (false, t)

/-- The oldest active voice that holds a pitch. -/
def playing? (t : VoiceTable) (pitch : UInt8) : Option Nat :=
  t.oldest? fun v => v.pitch? == some pitch

/-- Chooses and starts a voice for a pitch. -/
def noteOn? (t : VoiceTable) (pitch : UInt8) :
    Option (VoiceChoice × InstanceRegion × VoiceTable) := do
  let choice ← t.choose?
  let (region, table) ← t.allocate? choice.index pitch
  return (choice, region, table)

/-- Closes the gate of the oldest voice that holds a pitch, if any does. -/
def noteOff (t : VoiceTable) (pitch : UInt8) : Option Nat × VoiceTable :=
  match t.playing? pitch with
  | some index => (some index, (t.release index).2)
  | none => (none, t)

/-- Closes the gate of every voice, whatever it was doing. -/
def allNotesOff (t : VoiceTable) : VoiceTable := { t with voices := t.voices.map Voice.close }

/-- What every voice is doing, in order. -/
def states (t : VoiceTable) : List VoiceState := t.voices.map (·.state)

@[simp] theorem length_voices_ofRegions (regions : List InstanceRegion) :
    (ofRegions regions).voices.length = regions.length := by
  simp [ofRegions]

@[simp] theorem length_voices_allNotesOff (t : VoiceTable) :
    t.allNotesOff.voices.length = t.voices.length := by
  simp [allNotesOff]

end VoiceTable

end DspHost
