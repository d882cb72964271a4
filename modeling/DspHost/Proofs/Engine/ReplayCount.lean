import DspHost.Proofs.Engine.Replay

/-!
# What a replay counts

Whoever sends an event is told if it is refused, but not if it is dropped. A replay counts the
events that were not refused. Its number is therefore greater than the number of commands that it
adds to the queue of the target by the events that the target drops on the way: all of them if the
target is torn down, those of the percussion channel, those that come behind a teardown, and those
that find the queue full. Which events these are changes with every event that is sent before, so
the number is right exactly if the target drops nothing.

## Main definitions

* `Handle.drops`, `Handle.dropped` — what a handle drops, and how much of a list it drops
* `Handle.TakesAll` — a list of events of which a handle drops nothing, without running it

## Main results

* `Handle.send_outcome` — an event is dropped, refused or admitted
* `Handle.takesAll_cons_iff` — one event more that is not dropped
* `EventLog.count_replayInto` — the number that a replay answers, and when it is the number of
  commands that were queued
-/

namespace DspHost

namespace Handle

variable {h : Handle} {event : Event} {command : Command}

/-! ### Dropped events -/

/-- Whether a handle drops an event: it is torn down, the event is not routed, or its command finds
the queue full. -/
def drops (h : Handle) (event : Event) : Bool :=
  h.destroyed || event.isFiltered || ((event.command h.table).isOk && h.commands.isFull)

/-- How many events of a list a handle drops when they are sent one after the other. -/
def dropped (h : Handle) : List Event → ℕ
  | [] => 0
  | event :: rest => (if h.drops event then 1 else 0) + (h.send event).value.2.dropped rest

theorem drops_eq_false_iff :
    h.drops event = false ↔ h.destroyed = false ∧ event.isFiltered = false ∧
      ((event.command h.table).isOk = true → h.commands.isFull = false) := by
  simp only [drops, Bool.or_eq_false_iff, Bool.and_eq_false_imp, and_assoc]

theorem drops_of_admitted (hadmitted : h.admitted? event = some command) :
    h.drops event = false := by
  obtain ⟨hlive, hrouted, hroom, -⟩ := admitted?_eq_some_iff.mp hadmitted
  exact drops_eq_false_iff.mpr ⟨hlive, hrouted, fun _ => hroom⟩

/-- An event is dropped and nobody is told, it is refused, or it is admitted. -/
theorem send_outcome (h : Handle) (event : Event) :
    (h.drops event = true ∧ (h.send event).value = (.ok (), h)) ∨
    (∃ error, h.drops event = false ∧ event.command h.table = .error error ∧
      (h.send event).value = (.error error, h)) ∨
    ∃ command, h.admitted? event = some command := by
  by_cases hdestroyed : h.destroyed = true
  · exact .inl ⟨by simp [drops, hdestroyed], by rw [send_destroyed hdestroyed]⟩
  · by_cases hfiltered : event.isFiltered = true
    · exact .inl ⟨by simp [drops, hfiltered], by simp [send, hdestroyed, hfiltered]⟩
    · rw [Bool.not_eq_true] at hdestroyed hfiltered
      cases hcommand : event.command h.table with
      | error error =>
        refine .inr (.inl ⟨error, ?_, rfl, by simp [send, hdestroyed, hfiltered, hcommand]⟩)
        exact drops_eq_false_iff.mpr ⟨hdestroyed, hfiltered, by simp [hcommand, Except.isOk,
          Except.toBool]⟩
      | ok command =>
        cases hfull : h.commands.isFull with
        | true =>
          have hpush : h.deliver? event command = none := by
            simp [deliver?, Queue.push?, hfull]
          refine .inl ⟨?_, by simp [send, hdestroyed, hfiltered, hcommand, hpush]⟩
          simp [drops, hcommand, hfull, Except.isOk, Except.toBool]
        | false =>
          exact .inr (.inr ⟨command,
            admitted?_eq_some_iff.mpr ⟨hdestroyed, hfiltered, hfull, hcommand⟩⟩)

/-! ### Lists of which nothing is dropped -/

/-- A handle drops nothing of a list of events: it is not torn down, every event is routed, nothing
comes behind a teardown, and the queue has room for what is not refused. -/
structure TakesAll (h : Handle) (events : List Event) : Prop where
  live : events ≠ [] → h.destroyed = false
  routed : ∀ event ∈ events, event.isFiltered = false
  last : ∀ before after, events = before ++ .destroy :: after → after = []
  room : (events.filter fun event => (event.command h.table).isOk).length ≤
    h.commands.capacity - h.commands.items.length

theorem takesAll_nil (h : Handle) : h.TakesAll [] :=
  ⟨fun hne => (hne rfl).elim, fun _ hevent => (List.not_mem_nil hevent).elim,
    fun before after hsplit => by simp at hsplit, Nat.zero_le _⟩

/-- What a handle takes of a list, it takes of the rest behind an event that changes nothing. -/
theorem takesAll_cons_of_refused {error : ControlError} (hkept : h.drops event = false)
    (hrefused : event.command h.table = .error error) (rest : List Event) :
    h.TakesAll (event :: rest) ↔ h.TakesAll rest := by
  obtain ⟨hlive, hrouted, -⟩ := drops_eq_false_iff.mp hkept
  have hdestroy : event ≠ .destroy := by
    rintro rfl
    cases hrefused
  have hfilter : ((event :: rest).filter fun e => (e.command h.table).isOk) =
      rest.filter fun e => (e.command h.table).isOk := by
    simp [hrefused, Except.isOk, Except.toBool]
  constructor
  · intro hall
    refine ⟨fun _ => hlive, fun e he => hall.routed e (List.mem_cons_of_mem _ he),
      fun before after hsplit => hall.last (event :: before) after (by rw [hsplit]; rfl), ?_⟩
    exact hfilter ▸ hall.room
  · intro hall
    refine ⟨fun _ => hlive, fun e he => ?_, fun before after hsplit => ?_, ?_⟩
    · rcases List.mem_cons.mp he with rfl | he
      · exact hrouted
      · exact hall.routed e he
    · cases before with
      | nil => exact (hdestroy (List.cons.inj hsplit).1).elim
      | cons _ before => exact hall.last before after (List.cons.inj hsplit).2
    · rw [hfilter]
      exact hall.room

/-- An event that is admitted takes one place in the queue, and nothing may follow a teardown. -/
theorem takesAll_cons_of_admitted (hadmitted : h.admitted? event = some command)
    (rest : List Event) :
    h.TakesAll (event :: rest) ↔ (h.send event).value.2.TakesAll rest := by
  obtain ⟨hlive, hrouted, hroom, hcommand⟩ := admitted?_eq_some_iff.mp hadmitted
  have hsent := delivered_of_admitted hadmitted
  generalize (h.send event).value.2 = h' at hsent
  have hfits : h.commands.items.length < h.commands.capacity := by
    simpa [Queue.isFull] using hroom
  have hlength : h'.commands.items.length = h.commands.items.length + 1 := by
    rw [hsent.queued, List.length_append, List.length_singleton]
  have hcapacity : h'.commands.capacity = h.commands.capacity := by rw [hsent.queued]
  have hfilter : ((event :: rest).filter fun e => (e.command h.table).isOk).length =
      (rest.filter fun e => (e.command h'.table).isOk).length + 1 := by
    simp [hsent.table, hcommand, Except.isOk, Except.toBool]
  have htorn : h'.destroyed = true ↔ event = .destroy := by
    rw [hsent.destroyed, hlive, Event.command_eq_destroy_iff hcommand]
    simp
  constructor
  · intro hall
    refine ⟨fun hne => ?_, fun e he => hall.routed e (List.mem_cons_of_mem _ he),
      fun before after hsplit => hall.last (event :: before) after (by rw [hsplit]; rfl), ?_⟩
    · rw [Bool.eq_false_iff, ne_eq, htorn]
      rintro rfl
      exact hne (hall.last [] rest rfl)
    · have hplaces := hall.room
      rw [hfilter] at hplaces
      omega
  · intro hall
    refine ⟨fun _ => hlive, fun e he => ?_, fun before after hsplit => ?_, ?_⟩
    · rcases List.mem_cons.mp he with rfl | he
      · exact hrouted
      · exact hall.routed e he
    · cases before with
      | nil =>
        obtain ⟨hevent, rfl⟩ := List.cons.inj hsplit
        by_contra hne
        have hopen := hall.live hne
        rw [Bool.eq_false_iff, ne_eq, htorn] at hopen
        exact hopen hevent
      | cons _ before => exact hall.last before after (List.cons.inj hsplit).2
    · have hplaces := hall.room
      rw [hfilter]
      omega

/-- One event more is taken exactly if it is not dropped and the rest is taken after it. -/
theorem takesAll_cons_iff (h : Handle) (event : Event) (rest : List Event) :
    h.TakesAll (event :: rest) ↔
      h.drops event = false ∧ (h.send event).value.2.TakesAll rest := by
  rcases h.send_outcome event with ⟨hdrops, -⟩ | ⟨error, hkept, hrefused, hsend⟩ |
    ⟨command, hadmitted⟩
  · refine iff_of_false (fun hall => ?_) (fun hboth => ?_)
    · refine absurd (drops_eq_false_iff.mpr ⟨hall.live (List.cons_ne_nil _ _),
        hall.routed event List.mem_cons_self, fun hok => ?_⟩) (by simp [hdrops])
      have hplaces := hall.room
      simp only [List.filter_cons, hok, if_true, List.length_cons] at hplaces
      rw [Queue.isFull, decide_eq_false_iff_not]
      omega
    · rw [hdrops] at hboth
      cases hboth.1
  · rw [hsend, takesAll_cons_of_refused hkept hrefused]
    simp [hkept]
  · rw [takesAll_cons_of_admitted hadmitted]
    simp [drops_of_admitted hadmitted]

/-- Nothing is dropped exactly of the lists that a handle takes, by induction on the list with the
handle as each event leaves it. -/
theorem dropped_eq_zero_iff (h : Handle) (events : List Event) :
    h.dropped events = 0 ↔ h.TakesAll events := by
  induction events generalizing h with
  | nil => exact iff_of_true rfl h.takesAll_nil
  | cons event rest ih =>
    rw [dropped, takesAll_cons_iff, ← ih, Nat.add_eq_zero_iff]
    cases h.drops event <;> simp

/-! ### Replays -/

/-- An event that is not refused is counted, whether it is delivered or dropped. -/
theorem value_replayEntries_of_ok {h' : Handle} {entry : LogEntry}
    (hsend : (h.send entry.event).value = (.ok (), h')) (rest : List LogEntry) :
    (replayEntries h (entry :: rest)).value =
      ((replayEntries h' rest).value.1 + 1, (replayEntries h' rest).value.2) := by
  rw [replayEntries, Noted.value_bind, hsend]
  rfl

/-- An event that is refused is not counted and changes nothing. -/
theorem value_replayEntries_of_error {entry : LogEntry} {error : ControlError}
    (hsend : (h.send entry.event).value = (.error error, h)) (rest : List LogEntry) :
    (replayEntries h (entry :: rest)).value = (replayEntries h rest).value := by
  rw [replayEntries, Noted.value_bind, hsend]
  rfl

/-- Sending recorded events adds commands to the queue, and counts these and what is dropped. -/
theorem count_replayEntries (h : Handle) (entries : List LogEntry) : ∃ added,
    (replayEntries h entries).value.2.commands.items = h.commands.items ++ added ∧
      (replayEntries h entries).value.1 =
        added.length + h.dropped (entries.map (·.event)) := by
  induction entries generalizing h with
  | nil => exact ⟨[], (List.append_nil _).symm, rfl⟩
  | cons entry rest ih =>
    rw [List.map_cons, dropped]
    rcases h.send_outcome entry.event with ⟨hdrops, hsend⟩ | ⟨error, hkept, -, hsend⟩ |
      ⟨command, hadmitted⟩
    · obtain ⟨added, hqueued, hcount⟩ := ih h
      rw [value_replayEntries_of_ok hsend, hsend, if_pos hdrops]
      exact ⟨added, hqueued, by simp only [hcount]; omega⟩
    · obtain ⟨added, hqueued, hcount⟩ := ih h
      rw [value_replayEntries_of_error hsend, hsend, hkept]
      exact ⟨added, hqueued, by simpa using hcount⟩
    · have hsent := delivered_of_admitted hadmitted
      have hok : (h.send entry.event).value.1 = .ok () :=
        congrArg Prod.fst (send_of_admitted hadmitted)
      have hsend : (h.send entry.event).value = (.ok (), (h.send entry.event).value.2) :=
        Prod.ext hok rfl
      rw [value_replayEntries_of_ok hsend, drops_of_admitted hadmitted]
      generalize (h.send entry.event).value.2 = h' at hsent
      obtain ⟨added, hqueued, hcount⟩ := ih h'
      refine ⟨command :: added, ?_, ?_⟩
      · rw [hqueued, hsent.queued, List.append_assoc, List.singleton_append]
      · simp only [hcount, List.length_cons, Bool.false_eq_true, if_false]
        omega

end Handle

/-- A replay adds commands to the queue of its target and answers their number and that of the
events that the target has dropped. So it answers the number of the commands exactly if the target
drops nothing. -/
theorem EventLog.count_replayInto (log : EventLog) (h : Handle) : ∃ added,
    (log.replayInto h).value.2.commands.items = h.commands.items ++ added ∧
      (log.replayInto h).value.1 = added.length + h.dropped log.events ∧
      ((log.replayInto h).value.1 = added.length ↔ h.TakesAll log.events) := by
  obtain ⟨added, hqueued, hcount⟩ := h.count_replayEntries log.entries
  have hanswer : (log.replayInto h).value.1 = added.length + h.dropped log.events := hcount
  refine ⟨added, hqueued, hanswer, ?_⟩
  rw [hanswer, ← Handle.dropped_eq_zero_iff]
  omega

end DspHost
