import DspHost.Control.EventLog
import DspHost.Control.Queue
import DspHost.Control.Table
import DspHost.Notice

/-!
# The control end

A handle accepts events, resolves them to commands and queues the commands for the audio end. It
keeps the last value that was sent to every control and the latest readback of every meter, so that
values can be asked for without the audio end, and it records what it has delivered.

An event is refused if it sets a control that a host may not set. It is dropped if the handle was
torn down, if it is a message on the percussion channel that does not silence voices, or if the
queue is full. Whatever is refused or dropped leaves the handle as it was.

## Main definitions

* `Event.isFiltered` — what is not routed from the percussion channel
* `Event.command` — the command that an event resolves to
* `Handle`, `Handle.send` — the control end
* `Handle.midiMessage` — the entry for raw messages
* `Handle.receive`, `Handle.value?` — readbacks and values
* `EventLog.replayInto` — sends a recorded session again

## Main results

* `Handle.deliver?_eq_some_iff` — an event is delivered whole, or not at all
* `Handle.send_destroyed` — nothing gets through after teardown
-/

namespace DspHost

namespace Event

/-- Whether an event silences every voice by a controller. -/
def isPanic : Event → Bool
  | controlChange _ controller _ => isPanicController controller
  | _ => false

/-- Whether an event comes from the percussion channel and is not routed. -/
def isFiltered (e : Event) : Bool := e.channel? == some percussionChannel && !e.isPanic

/-- The command that sets the control with a path. -/
def setCommand (table : ParameterTable) (path : String) (value : Single) :
    Except ControlError Command :=
  match table.lookup? path with
  | none => .error (.unknownPath path)
  | some id =>
    if (table.get? id).any Binding.isOutput then .error (.outputOnly path)
    else if table.isVoiceManaged id then .error (.voiceManaged path)
    else .ok (.setParameter id value)

/-- The command that an event resolves to. Data bytes are cut to seven bits and the wheel to its
highest position; a note without velocity ends. -/
def command (table : ParameterTable) : Event → Except ControlError Command
  | noteOn _ pitch velocity =>
    .ok (if velocity = 0 then .noteOff (dataBits pitch)
      else .noteOn (dataBits pitch) (dataBits velocity))
  | noteOff _ pitch _ => .ok (.noteOff (dataBits pitch))
  | controlChange _ controller value => .ok (.controlChange (dataBits controller) (dataBits value))
  | pitchWheel _ value => .ok (.pitchWheel (min value pitchWheelMax))
  | parameterSet path value => setCommand table path value
  | allNotesOff => .ok .allNotesOff
  | destroy => .ok .destroy

end Event

/-- The control end of a processor. -/
structure Handle where
  /-- The controls. -/
  table : ParameterTable
  /-- The last value of every control. -/
  values : List Single
  /-- What was delivered. -/
  log : EventLog
  /-- Whether the processor was torn down. -/
  destroyed : Bool
  /-- What was delivered and has not reached the audio end. -/
  commands : Queue Command
  deriving DecidableEq, Repr

namespace Handle

/-- A handle that has sent nothing. -/
def create (table : ParameterTable) (queueCapacity logCapacity : Nat) : Handle where
  table := table
  values := table.bindings.map (·.default)
  log := .empty logCapacity
  destroyed := false
  commands := .empty queueCapacity

/-- Stores the value of every control in a list. -/
def storeEach (h : Handle) (value : Binding → Single) (ids : List BindingId) : Handle :=
  { h with
    values := ids.foldl (fun values id =>
      match h.table.get? id with
      | some b => values.set id (value b)
      | none => values) h.values }

/-- Keeps what a delivered command does to values and to the processor's life. -/
def keep (h : Handle) : Command → Handle
  | .controlChange controller value =>
    h.storeEach (·.remapController value) (h.table.controller controller)
  | .pitchWheel value => h.storeEach (·.remapWheel value) h.table.wheel
  | .setParameter id value => { h with values := h.values.set id value }
  | .destroy => { h with destroyed := true }
  | _ => h

/-- Queues the command of an event, keeps its effect and records the event; none if the queue is
full. -/
def deliver? (h : Handle) (event : Event) (command : Command) : Option Handle :=
  (h.commands.push? command).map fun commands =>
    { h.keep command with log := h.log.append event, commands }

/-- Sends an event. -/
def send (h : Handle) (event : Event) : Noted (Except ControlError Unit × Handle) :=
  -- Whoever sends is told about refusals only; what is dropped counts as sent.
  if h.destroyed then ⟨(.ok (), h), [.ignoredEvent event]⟩
  else if event.isFiltered then ⟨(.ok (), h), []⟩
  else
    match event.command h.table with
    | .error error => ⟨(.error error, h), []⟩
    | .ok command =>
      match h.deliver? event command with
      | some sent => ⟨(.ok (), sent), []⟩
      | none => ⟨(.ok (), h), [.droppedCommand command]⟩

/-- Sends an event whose refusal nobody waits for. -/
def post (h : Handle) (event : Event) : Noted Handle := do
  let (outcome, h) ← h.send event
  match outcome with
  | .ok () => return h
  | .error error =>
    Noted.note (.refusedEvent error)
    return h

/-- Sends the event that a raw message stands for. -/
def midiMessage (h : Handle) (bytes : List UInt8) : Noted Handle :=
  match (MidiMessage.parse? bytes).bind MidiMessage.toEvent? with
  | some event => h.post event
  | none => do
    Noted.note (.unroutedMessage bytes)
    return h

/-- Stores the values of readbacks, the oldest first. -/
def receive (h : Handle) (readbacks : List Readback) : Handle :=
  { h with values := readbacks.foldl (fun values r => values.set r.binding r.value) h.values }

/-- The last value of the control with a path. -/
def value? (h : Handle) (path : String) : Option Single :=
  (h.table.lookup? path).bind (h.values[·]?)

/-! ### Delivery -/

@[simp] theorem table_keep (h : Handle) (command : Command) : (h.keep command).table = h.table := by
  cases command <;> rfl

@[simp] theorem log_keep (h : Handle) (command : Command) : (h.keep command).log = h.log := by
  cases command <;> rfl

@[simp] theorem commands_keep (h : Handle) (command : Command) :
    (h.keep command).commands = h.commands := by
  cases command <;> rfl

/-- An event is delivered exactly if there is room for its command, and then it is kept, recorded
and queued. -/
theorem deliver?_eq_some_iff {h h' : Handle} {event : Event} {command : Command} :
    h.deliver? event command = some h' ↔
      h.commands.items.length < h.commands.capacity ∧
        h' = { h.keep command with
          log := h.log.append event
          commands := ⟨h.commands.capacity, h.commands.items ++ [command]⟩ } := by
  simp only [deliver?, Option.map_eq_some_iff, Queue.push?_eq_some_iff]
  constructor
  · rintro ⟨_, ⟨room, rfl⟩, rfl⟩
    exact ⟨room, rfl⟩
  · rintro ⟨room, rfl⟩
    exact ⟨_, ⟨room, rfl⟩, rfl⟩

/-- Nothing gets through after teardown. -/
theorem send_destroyed {h : Handle} (torn : h.destroyed = true) (event : Event) :
    h.send event = ⟨(.ok (), h), [.ignoredEvent event]⟩ := by
  simp [send, torn]

end Handle

/-- Sends the recorded events in a list again and counts those that were not refused. -/
def replayEntries (h : Handle) : List LogEntry → Noted (Nat × Handle)
  | [] => return (0, h)
  | entry :: rest => do
    let (outcome, h) ← h.send entry.event
    match outcome with
    | .ok () => do
      let (count, h) ← replayEntries h rest
      return (count + 1, h)
    | .error error => do
      Noted.note (.skippedReplay entry.sequence error)
      replayEntries h rest

/-- Sends every retained event of a log again and counts those that were not refused. -/
def EventLog.replayInto (log : EventLog) (h : Handle) : Noted (Nat × Handle) :=
  replayEntries h log.entries

end DspHost
