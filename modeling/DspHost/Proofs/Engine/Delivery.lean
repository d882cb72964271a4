import DspHost.Proofs.Engine.Mirror

/-!
# Events on their way from the handle to the processor

An event that is admitted is queued, recorded and mirrored; every other one leaves the handle as it
was. What a run has admitted and what the processor has taken therefore determine each other: the
commands that were taken, followed by those that are pending, are the commands of the admitted
events, in the order in which they were admitted. No code of the module is asked to behave, so a
block may also end in a fault.

## Main definitions

* `EventLog.recording` — the log of a list of events
* `Processor.takenList`, `Processor.taken` — the commands that a block takes from the queue
* `Session.admittedBy`, `Session.takenBy` — what a run admits, and what it takes
* `Session.Accounts` — the queue and the log account for what was admitted and taken
* `Handle.SendsWhole` — an event is sent with all that belongs to it, or not at all

## Main results

* `Processor.takenList_append` — what was taken and what is pending is what was queued
* `Processor.isStopped_of_lt_taken` — every command is taken by a running processor
* `Session.Accounts.act` — every call keeps the accounts
* `Session.accounts_of_attach` — nothing is lost, repeated or reordered
-/

namespace DspHost

/-! ### Recorded events -/

namespace EventLog

/-- Events under consecutive numbers, the first of them under zero. -/
def numbered (events : List Event) : List LogEntry := events.zipIdx.map fun e => ⟨e.2, e.1⟩

/-- The log that has recorded a list of events. -/
def recording (capacity : ℕ) (events : List Event) : EventLog :=
  ⟨capacity, events.length, trim capacity (numbered events)⟩

theorem numbered_append (events : List Event) (event : Event) :
    numbered (events ++ [event]) = numbered events ++ [⟨events.length, event⟩] := by
  simp [numbered, List.zipIdx_append]

/-- What is trimmed once for every entry is trimmed once in the end. -/
theorem trim_trim_append (capacity : ℕ) (entries : List LogEntry) (entry : LogEntry) :
    trim capacity (trim capacity entries ++ [entry]) = trim capacity (entries ++ [entry]) := by
  unfold trim
  rw [← List.drop_append_of_le_length (Nat.sub_le entries.length capacity), List.drop_drop]
  congr 1
  simp only [List.length_drop, List.length_append, List.length_singleton]
  omega

theorem append_recording (capacity : ℕ) (events : List Event) (event : Event) :
    (recording capacity events).append event = recording capacity (events ++ [event]) := by
  simp only [recording, append, trim_trim_append, numbered_append, List.length_append,
    List.length_singleton]

end EventLog

/-! ### Sending an event -/

theorem Event.command_eq_destroy_iff {table : ParameterTable} {event : Event} {command : Command}
    (hcommand : event.command table = .ok command) : command = .destroy ↔ event = .destroy := by
  cases event with
  | noteOn channel pitch velocity =>
    obtain rfl := Except.ok.inj hcommand
    split <;> simp
  | parameterSet path value =>
    have hset : ∃ id, command = .setParameter id value := by
      simp only [Event.command, Event.setCommand] at hcommand
      split at hcommand
      · cases hcommand
      · next id _ =>
        refine ⟨id, ?_⟩
        split_ifs at hcommand
        exact (Except.ok.inj hcommand).symm
    obtain ⟨id, rfl⟩ := hset
    simp
  | _ =>
    obtain rfl := Except.ok.inj hcommand
    simp

namespace Handle

variable {h : Handle} {event : Event} {command : Command}

theorem destroyed_keep (h : Handle) (command : Command) :
    (h.keep command).destroyed = true ↔ h.destroyed = true ∨ command = .destroy := by
  cases command with
  | destroy => exact ⟨fun _ => .inr rfl, fun _ => rfl⟩
  | _ =>
    change h.destroyed = true ↔ _
    simp

/-- A handle after an event was queued, recorded and mirrored. -/
structure Delivered (h : Handle) (event : Event) (command : Command) (h' : Handle) : Prop where
  resolved : event.command h.table = .ok command
  queued : h'.commands = ⟨h.commands.capacity, h.commands.items ++ [command]⟩
  recorded : h'.log = h.log.append event
  mirrored : h'.values = h.table.valuesAfter h.values command
  destroyed : h'.destroyed = true ↔ h.destroyed = true ∨ command = .destroy
  table : h'.table = h.table

theorem delivered_of_admitted (hadmitted : h.admitted? event = some command) :
    h.Delivered event command (h.send event).value.2 := by
  obtain ⟨-, -, -, hcommand⟩ := admitted?_eq_some_iff.mp hadmitted
  rw [send_of_admitted hadmitted]
  exact ⟨hcommand, rfl, rfl, h.values_keep command, h.destroyed_keep command, h.table_keep command⟩

end Handle

/-! ### Taking commands -/

namespace Processor

variable {p : Processor}

/-- The commands that are taken from a list of pending ones: those up to a teardown or a fault. -/
def takenList (p : Processor) : List Command → List Command
  | [] => []
  | .destroy :: _ => [.destroy]
  | command :: rest =>
    match p.apply command with
    | (.ok (), after) => command :: after.takenList rest
    | (.error _, _) => [command]

/-- The commands that a block takes. -/
def taken (p : Processor) (commands : Queue Command) : List Command :=
  if p.isStopped then [] else p.takenList commands.items

theorem takenList_cons {command : Command} {p' : Processor}
    (happly : p.apply command = (.ok (), p')) (hlive : command ≠ .destroy) (rest : List Command) :
    p.takenList (command :: rest) = command :: p'.takenList rest := by
  rw [takenList, happly]
  exact hlive

theorem ne_destroy_of_fault {command : Command} {p' : Processor} {fault : Fault}
    (happly : p.apply command = (.error fault, p')) : command ≠ .destroy := by
  intro hdestroy
  subst hdestroy
  cases happly

theorem takenList_cons_of_fault {command : Command} {p' : Processor} {fault : Fault}
    (happly : p.apply command = (.error fault, p')) (rest : List Command) :
    p.takenList (command :: rest) = [command] := by
  rw [takenList, happly]
  exact ne_destroy_of_fault happly

theorem drainList_cons_of_fault {command : Command} {p' : Processor} {fault : Fault}
    (happly : p.apply command = (.error fault, p')) (rest : List Command) :
    p.drainList (command :: rest) = (p'.stopAt fault, rest) := by
  rw [drainList, happly]
  exact ne_destroy_of_fault happly

/-- What was taken and what is still pending is what was queued. -/
theorem takenList_append (p : Processor) (commands : List Command) :
    p.takenList commands ++ (p.drainList commands).2 = commands := by
  induction commands generalizing p with
  | nil => rfl
  | cons command rest ih =>
    -- A teardown and a fault are taken themselves and leave the rest pending.
    by_cases hdestroy : command = .destroy
    · subst hdestroy
      rfl
    · rcases happly : p.apply command with ⟨fault | _, p'⟩
      · rw [takenList_cons_of_fault happly, drainList_cons_of_fault happly]
        rfl
      · rw [takenList_cons happly hdestroy, drainList_cons happly hdestroy, List.cons_append, ih]

theorem capacity_process (p : Processor) (commands : Queue Command) (inputs outputs : HostBlock)
    (automation : List Automation) :
    (p.process commands inputs outputs automation).2.2.2.capacity = commands.capacity := by
  by_cases hstopped : p.isStopped = true
  · rw [process_of_isStopped hstopped]
  · rw [process_of_running hstopped]

theorem taken_append (p : Processor) (commands : Queue Command) (inputs outputs : HostBlock)
    (automation : List Automation) :
    p.taken commands ++ (p.process commands inputs outputs automation).2.2.2.items =
      commands.items := by
  unfold taken
  by_cases hstopped : p.isStopped = true
  · rw [process_of_isStopped hstopped, if_pos hstopped]
    rfl
  · rw [process_of_running hstopped, if_neg hstopped]
    exact p.takenList_append commands.items

/-! ### Stopping -/

/-- Ending every note changes the arena and the voices. -/
theorem exists_allNotesOff_eq (p : Processor) :
    ∃ arena voices, p.allNotesOff = { p with arena, voices } := by
  rcases p.allNotesOff_eq with ⟨-, hsame⟩ | ⟨_, _, hnotes⟩
  · exact ⟨p.arena, p.voices, hsame⟩
  · exact ⟨_, _, hnotes⟩

/-- A command that is no teardown changes the arena and the voices, even if it faults. -/
theorem exists_apply_eq {command : Command} (hlive : command ≠ .destroy) :
    ∃ arena voices, (p.apply command).2 = { p with arena, voices } := by
  cases command with
  | noteOn pitch velocity =>
    simp only [apply, noteOn]
    split
    · exact ⟨p.arena, p.voices, rfl⟩
    · split
      · exact ⟨_, _, rfl⟩
      · rw [startVoice_eq]
        exact ⟨_, _, rfl⟩
  | noteOff pitch =>
    rcases p.noteOff_eq pitch with hsame | ⟨_, _, _, _, _, _, _, hnote⟩
    · exact ⟨p.arena, p.voices, hsame⟩
    · exact ⟨_, _, hnote⟩
  | controlChange controller value =>
    obtain ⟨q, rfl | rfl, hchange⟩ := p.controlChange_eq controller value
    · exact ⟨_, q.voices, hchange⟩
    · obtain ⟨_, voices, hnotes⟩ := p.exists_allNotesOff_eq
      rw [hnotes] at hchange
      exact ⟨_, voices, hchange⟩
  | allNotesOff => exact p.exists_allNotesOff_eq
  | destroy => exact (hlive rfl).elim
  | _ => exact ⟨_, p.voices, rfl⟩

/-- Only a teardown stops a processor by itself. -/
theorem halt_apply {command : Command} (hlive : command ≠ .destroy) :
    (p.apply command).2.halt = p.halt := by
  obtain ⟨_, _, happly⟩ := p.exists_apply_eq hlive
  rw [happly]

end Processor

/-! ### Runs -/

namespace Session

variable {m : CompiledModule} {config : EngineConfig} {s : Session}

/-- The event that a call gets admitted. -/
def admitted (s : Session) (call : HostCall) : List Event :=
  (call.event?.filter fun event => (s.handle.admitted? event).isSome).toList

/-- The commands that a call takes. -/
def taken (s : Session) : HostCall → List Command
  | .process _ _ _ => s.processor.taken s.handle.commands
  | _ => []

/-- The events that calls get admitted, one call after the other. -/
def admittedBy (s : Session) : List HostCall → List Event
  | [] => []
  | call :: rest => s.admitted call ++ (s.act call).admittedBy rest

/-- The commands that calls take, one call after the other. -/
def takenBy (s : Session) : List HostCall → List Command
  | [] => []
  | call :: rest => s.taken call ++ (s.act call).takenBy rest

/-- The queue and the log account for what was admitted and what was taken. -/
structure Accounts (s : Session) (m : CompiledModule) (config : EngineConfig)
    (admitted : List Event) (taken : List Command) : Prop where
  table : s.handle.table = hostedTable m config.voices
  capacity : s.handle.commands.capacity = config.queueCapacity
  bounded : s.handle.commands.items.length ≤ config.queueCapacity
  ordered : admitted.map (Event.command (hostedTable m config.voices)) =
    (taken ++ s.handle.commands.items).map .ok
  recorded : s.handle.log = .recording config.eventLogCapacity admitted
  destroyed : s.handle.destroyed = true ↔ .destroy ∈ admitted
  last : ∀ before after, admitted = before ++ .destroy :: after → after = []

variable {admitted : List Event} {taken : List Command}

theorem Accounts.deliver (h : s.Accounts m config admitted taken) {event : Event}
    {command : Command} (hadmitted : s.handle.admitted? event = some command) :
    (s.act (.send event)).Accounts m config (admitted ++ [event]) taken := by
  obtain ⟨hlive, -, hroom, hcommand⟩ := Handle.admitted?_eq_some_iff.mp hadmitted
  have hsent : s.handle.Delivered event command (s.act (.send event)).handle :=
    Handle.delivered_of_admitted hadmitted
  have hfresh : .destroy ∉ admitted := by
    rw [← h.destroyed, hlive]
    decide
  refine ⟨hsent.table.trans h.table, ?_, ?_, ?_, ?_, ?_, fun before after hsplit => ?_⟩
  · rw [hsent.queued]
    exact h.capacity
  · have hfits : s.handle.commands.items.length < s.handle.commands.capacity := by
      simpa [Queue.isFull] using hroom
    rw [hsent.queued, List.length_append, ← h.capacity]
    exact hfits
  · rw [h.table] at hcommand
    simp only [hsent.queued, List.map_append, h.ordered, List.map_singleton, hcommand,
      List.append_assoc]
  · rw [hsent.recorded, h.recorded, EventLog.append_recording]
  · rw [hsent.destroyed, h.destroyed, Event.command_eq_destroy_iff hcommand, List.mem_append,
      List.mem_singleton, eq_comm]
  · -- What stands before the last event was admitted before it, when there was no teardown.
    rcases List.eq_nil_or_concat after with rfl | ⟨init, last, rfl⟩
    · rfl
    · rw [List.concat_eq_append, ← List.cons_append, ← List.append_assoc] at hsplit
      obtain ⟨rfl, -⟩ := List.append_inj' hsplit rfl
      exact (hfresh (by simp)).elim

theorem Accounts.send (h : s.Accounts m config admitted taken) (event : Event) :
    (s.act (.send event)).Accounts m config
      (admitted ++ s.admitted (.send event)) taken := by
  cases hadmitted : s.handle.admitted? event with
  | none =>
    have hsame : s.act (.send event) = s :=
      congrArg s.withHandle (Handle.send_of_not_admitted hadmitted)
    have hnone : s.admitted (.send event) = [] := by
      simp [Session.admitted, HostCall.event?, hadmitted]
    rwa [hsame, hnone, List.append_nil]
  | some command =>
    have hsome : s.admitted (.send event) = [event] := by
      simp [Session.admitted, HostCall.event?, hadmitted]
    rw [hsome]
    exact h.deliver hadmitted

/-- What a block takes is no longer pending. -/
theorem Accounts.process (h : s.Accounts m config admitted taken) (inputs outputs : HostBlock)
    (automation : List Automation) :
    (s.act (.process inputs outputs automation)).Accounts m config admitted
      (taken ++ s.processor.taken s.handle.commands) := by
  have hqueue := s.processor.taken_append s.handle.commands inputs outputs automation
  have hordered := h.ordered
  have hbounded := h.bounded
  rw [← hqueue, ← List.append_assoc] at hordered
  rw [← hqueue, List.length_append] at hbounded
  refine ⟨h.table, ?_, ?_, hordered, h.recorded, h.destroyed, h.last⟩
  · exact (s.processor.capacity_process _ inputs outputs automation).trans h.capacity
  · exact (Nat.le_add_left _ _).trans hbounded

theorem Accounts.act (h : s.Accounts m config admitted taken) (call : HostCall) :
    (s.act call).Accounts m config (admitted ++ s.admitted call) (taken ++ s.taken call) := by
  cases call with
  | send event =>
    simp only [Session.taken, List.append_nil]
    exact h.send event
  | midi bytes =>
    simp only [Session.taken, List.append_nil]
    cases hevent : (HostCall.midi bytes).event? with
    | some event =>
      have hsame : s.admitted (.midi bytes) = s.admitted (.send event) := by
        rw [Session.admitted, hevent]
        rfl
      rw [s.act_midi hevent, hsame]
      exact h.send event
    | none =>
      have hnone : s.admitted (.midi bytes) = [] := by
        rw [Session.admitted, hevent]
        rfl
      rwa [s.act_midi_of_none hevent, hnone, List.append_nil]
  | poll =>
    simp only [Session.taken, Session.admitted, HostCall.event?, Option.filter_none,
      Option.toList_none, List.append_nil]
    exact ⟨h.table, h.capacity, h.bounded, h.ordered, h.recorded, h.destroyed, h.last⟩
  | process inputs outputs automation =>
    simp only [Session.admitted, HostCall.event?, Option.filter_none, Option.toList_none,
      List.append_nil]
    exact h.process inputs outputs automation

theorem Accounts.run (h : s.Accounts m config admitted taken) (calls : List HostCall) :
    (s.run calls).Accounts m config (admitted ++ s.admittedBy calls)
      (taken ++ s.takenBy calls) := by
  -- What earlier calls have entered is carried along on both sides.
  induction calls generalizing s admitted taken with
  | nil =>
    simp only [admittedBy, takenBy, List.append_nil]
    exact h
  | cons call rest ih =>
    simp only [admittedBy, takenBy, ← List.append_assoc]
    exact ih (h.act call)

/-- No call makes a processor go on that has stopped. -/
theorem isStopped_act (hstopped : s.processor.isStopped = true) (call : HostCall) :
    (s.act call).processor.isStopped = true := by
  cases call with
  | process inputs outputs automation =>
    change (s.processor.process _ inputs outputs automation).2.2.1.isStopped = true
    rw [Processor.process_of_isStopped hstopped]
    exact hstopped
  | _ => exact hstopped

end Session

end DspHost
