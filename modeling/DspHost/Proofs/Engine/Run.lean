import DspHost.Engine.Session
import DspHost.Proofs.Engine.Commands

/-!
# Runs of a processor and its handle

A host calls the handle and the processor in any order. What a call does to both ends is said here
once for each call: an event is delivered whole or changes nothing, a block takes every pending
command until a teardown, and rendering changes nothing that is reserved.

## Main definitions

* `HostCall`, `Session.act`, `Session.run` — calls, and what a number of them does
* `HostCall.event?` — the event that a call sends
* `Handle.admitted?` — the command that is queued for an event

## Main results

* `Session.run_induction` — what every call keeps, every run keeps
* `Handle.send_cases` — an event is delivered whole, or it changes nothing
* `Processor.process_induction` — what every command and the block after it keep, processing keeps
* `Processor.Ready.processDrained` — what a block does after commands were applied
-/

namespace DspHost

/-! ### Calls -/

/-- A call of the host. -/
inductive HostCall where
  /-- An event is sent to the handle. -/
  | send (event : Event)
  /-- A raw message is given to the handle. -/
  | midi (bytes : List UInt8)
  /-- The handle takes pending readbacks. -/
  | poll
  /-- A block is processed. -/
  | process (inputs outputs : HostBlock) (automation : List Automation)

/-- A call that gives a block no automation. -/
def HostCall.Unautomated : HostCall → Prop
  | .process _ _ automation => automation = []
  | _ => True

/-- The event that a call sends. -/
def HostCall.event? : HostCall → Option Event
  | .send event => some event
  | .midi bytes => (MidiMessage.parse? bytes).bind MidiMessage.toEvent?
  | _ => none

namespace Session

/-- Both ends after a call. -/
def act (s : Session) : HostCall → Session
  | .send event => s.withHandle (s.handle.send event).value.2
  | .midi bytes => s.withHandle (s.handle.midiMessage bytes).value
  | .poll => s.poll.2
  | .process inputs outputs automation => (s.process inputs outputs automation).2.2

/-- Both ends after a number of calls. -/
def run (s : Session) (calls : List HostCall) : Session := calls.foldl act s

/-- What every call keeps, every run keeps. -/
theorem run_induction (invariant : Session → Prop) {calls : List HostCall}
    (step : ∀ s, ∀ call ∈ calls, invariant s → invariant (s.act call)) {s : Session}
    (h : invariant s) : invariant (s.run calls) := by
  induction calls generalizing s with
  | nil => exact h
  | cons call rest ih =>
    refine ih (fun s other hother => step s other (List.mem_cons_of_mem call hother)) ?_
    exact step s call List.mem_cons_self h

end Session

/-! ### The handle -/

namespace Handle

variable {h : Handle}

/-- The command that is queued for an event; none if the event is refused or dropped. -/
def admitted? (h : Handle) (event : Event) : Option Command :=
  if h.destroyed || event.isFiltered || h.commands.isFull then none
  else (event.command h.table).toOption

theorem admitted?_eq_some_iff {event : Event} {command : Command} :
    h.admitted? event = some command ↔
      h.destroyed = false ∧ event.isFiltered = false ∧ h.commands.isFull = false ∧
        event.command h.table = .ok command := by
  simp only [admitted?, Option.ite_none_left_eq_some, Bool.or_eq_true, not_or,
    Bool.not_eq_true, Except.toOption_eq_some_iff, and_assoc]

theorem send_of_admitted {event : Event} {command : Command}
    (hadmitted : h.admitted? event = some command) :
    (h.send event).value = (.ok (), { h.keep command with
      log := h.log.append event
      commands := ⟨h.commands.capacity, h.commands.items ++ [command]⟩ }) := by
  obtain ⟨hlive, hrouted, hroom, hcommand⟩ := admitted?_eq_some_iff.mp hadmitted
  have hfits : h.commands.items.length < h.commands.capacity := by
    simpa [Queue.isFull] using hroom
  simp [send, hlive, hrouted, hcommand, deliver?_eq_some_iff.mpr ⟨hfits, rfl⟩]

theorem send_of_not_admitted {event : Event} (hdropped : h.admitted? event = none) :
    (h.send event).value.2 = h := by
  -- Only a delivery changes the handle, and it has the command of an admitted event.
  have hnever : ∀ command, h.admitted? event ≠ some command := by simp [hdropped]
  unfold send
  split
  · rfl
  · next hlive =>
    split
    · rfl
    · next hrouted =>
      split
      · rfl
      · next command hcommand =>
        split
        · next sent hsent =>
          obtain ⟨hroom, -⟩ := deliver?_eq_some_iff.mp hsent
          refine (hnever command (admitted?_eq_some_iff.mpr ⟨?_, ?_, ?_, hcommand⟩)).elim
          · simpa using hlive
          · simpa using hrouted
          · simpa [Queue.isFull] using hroom
        · rfl

/-- An event is delivered whole, or it changes nothing. -/
theorem send_cases (h : Handle) (event : Event) :
    (h.send event).value.2 = h ∨
      ∃ command, event.command h.table = .ok command ∧
        (h.send event).value.2 = { h.keep command with
          log := h.log.append event
          commands := ⟨h.commands.capacity, h.commands.items ++ [command]⟩ } := by
  cases hadmitted : h.admitted? event with
  | none => exact .inl (send_of_not_admitted hadmitted)
  | some command =>
    obtain ⟨-, -, -, hcommand⟩ := admitted?_eq_some_iff.mp hadmitted
    exact .inr ⟨command, hcommand, congrArg Prod.snd (send_of_admitted hadmitted)⟩

theorem value_post (h : Handle) (event : Event) :
    (h.post event).value = (h.send event).value.2 := by
  rw [post, Noted.value_bind]
  generalize (h.send event).value = x
  obtain ⟨_ | _, _⟩ := x <;> rfl

end Handle

namespace Session

/-- A raw message that is an event is sent as that event. -/
theorem act_midi (s : Session) {bytes : List UInt8} {event : Event}
    (hevent : (HostCall.midi bytes).event? = some event) :
    s.act (.midi bytes) = s.act (.send event) := by
  change s.withHandle (s.handle.midiMessage bytes).value = _
  change (MidiMessage.parse? bytes).bind MidiMessage.toEvent? = some event at hevent
  rw [Handle.midiMessage, hevent]
  exact congrArg s.withHandle (s.handle.value_post event)

/-- Any other raw message changes nothing. -/
theorem act_midi_of_none (s : Session) {bytes : List UInt8}
    (hnone : (HostCall.midi bytes).event? = none) : s.act (.midi bytes) = s := by
  change s.withHandle (s.handle.midiMessage bytes).value = s
  change (MidiMessage.parse? bytes).bind MidiMessage.toEvent? = none at hnone
  rw [Handle.midiMessage, hnone]
  rfl

theorem act_midi_cases (s : Session) (bytes : List UInt8) :
    s.act (.midi bytes) = s ∨ ∃ event, s.act (.midi bytes) = s.act (.send event) := by
  cases hevent : (HostCall.midi bytes).event? with
  | none => exact .inl (s.act_midi_of_none hevent)
  | some event => exact .inr ⟨event, s.act_midi hevent⟩

end Session

/-! ### Pending commands -/

namespace Processor

variable {p : Processor} {rate : ℕ} {fields : Scope → List (ℕ × Single)}

theorem drainList_cons {command : Command} {p' : Processor}
    (happly : p.apply command = (.ok (), p')) (hlive : command ≠ .destroy) (rest : List Command) :
    p.drainList (command :: rest) = p'.drainList rest := by
  rw [drainList, happly]
  exact hlive

/-- What every command keeps, applying pending commands keeps. A teardown ends it, and what is left
stays pending. -/
theorem drainList_induction (invariant : Processor → List Command → Prop)
    (step : ∀ p command rest, invariant p (command :: rest) →
      ∃ p', p.apply command = (.ok (), p') ∧ invariant p' rest)
    {commands : List Command} (h : invariant p commands) :
    invariant (p.drainList commands).1 (p.drainList commands).2 := by
  induction commands generalizing p with
  | nil => exact h
  | cons command rest ih =>
    obtain ⟨p', happly, hnext⟩ := step p command rest h
    by_cases hdestroy : command = .destroy
    · -- The teardown is taken from the queue, and the commands behind it are not.
      subst hdestroy
      obtain rfl := (Prod.mk.inj happly).2
      exact hnext
    · rw [drainList_cons happly hdestroy]
      exact ih hnext

/-- Without a teardown no command stays pending. -/
theorem Ready.drainList_eq_nil (h : p.Ready rate fields) {commands : List Command}
    (hlive : Command.destroy ∉ commands) : (p.drainList commands).2 = [] := by
  induction commands generalizing p with
  | nil => rfl
  | cons command rest ih =>
    obtain ⟨hne, hrest⟩ := not_or.mp (mt List.mem_cons.mpr hlive)
    obtain ⟨p', happly, hready, -⟩ := h.apply command
    rw [drainList_cons happly fun heq => hne heq.symm]
    exact ih hready hrest

/-! ### Blocks -/

/-- The arena before a block is rendered: the inputs of the host are copied over samples, and its
automation is applied. -/
def staged (p : Processor) (inputs : HostBlock) (automation : List Automation) : Arena :=
  automation.foldl (fun a item => (p.router.setPath item.path item.value a).2)
    (writeInputs p.plan.inputBuffers inputs p.arena)

/-- No control that automation sets has a byte in common with a field. -/
def AutomationMisses (p : Processor) (automation : List Automation) (scope : Scope) (index : ℕ) :
    Prop :=
  ∀ item ∈ automation, ∀ id, p.router.automatable? item.path = some id →
    p.router.Misses id scope index

/-- Staging a block keeps the arena hosted. -/
theorem Ready.hosts_staged (h : p.Ready rate fields) (inputs : HostBlock)
    (automation : List Automation) : p.plan.Hosts (p.staged inputs automation) := by
  have hinputs : p.plan.Hosts (writeInputs p.plan.inputBuffers inputs p.arena) :=
    h.hosts.of_changedWithin h.wellFormed (changedWithin_writeInputs p.plan inputs p.arena)
      (h.wellFormed.disjoint_area RegionKind.disjoint_tables_samples)
  unfold staged
  -- Automation goes on from any hosted arena, so where this one comes from can be forgotten.
  generalize writeInputs p.plan.inputBuffers inputs p.arena = a at hinputs
  induction automation generalizing a with
  | nil => exact hinputs
  | cons item rest ih =>
    refine ih _ (hosts_of_changedWithin_instances h.wellFormed hinputs ?_)
    exact p.router.changedWithin_setPath item.path item.value a

/-- Staging a block keeps every field that automation misses. -/
theorem Ready.readField?_staged (h : p.Ready rate fields) {scope : Scope}
    {region : InstanceRegion} {index : ℕ} (hkeeps : p.Keeps fields scope region index)
    {automation : List Automation} (hmiss : p.AutomationMisses automation scope index)
    (inputs : HostBlock) :
    (p.staged inputs automation).readField? region index = p.arena.readField? region index := by
  have hinputs : (writeInputs p.plan.inputBuffers inputs p.arena).readField? region index =
      p.arena.readField? region index := by
    refine (changedWithin_writeInputs p.plan inputs p.arena).readField?_eq ?_
    exact (@Router.disjoint_footprint_samples p.router _ _ h.wellFormed hkeeps.mem).mono_left
      (region.fieldSpan_subset hkeeps.fits)
  rw [← hinputs]
  unfold staged
  generalize writeInputs p.plan.inputBuffers inputs p.arena = a
  clear hinputs
  induction automation generalizing a with
  | nil => rfl
  | cons item rest ih =>
    refine (ih (fun other hother => hmiss other (List.mem_cons_of_mem item hother)) _).trans ?_
    exact Router.readField?_setPath_of_misses h.wellFormed hkeeps.mem hkeeps.fits
      (hmiss item List.mem_cons_self) _ a

theorem mem_pushAll {α : Type} {q : Queue α} {items : List α} {x : α}
    (h : x ∈ (q.pushAll items).items) : x ∈ q.items ∨ x ∈ items := by
  unfold Queue.pushAll at h
  induction items generalizing q with
  | nil => exact .inl h
  | cons item rest ih =>
    rcases ih h with hq | hrest
    · change x ∈ ((q.push? item).getD q).items at hq
      cases hpush : q.push? item with
      | none =>
        rw [hpush] at hq
        exact .inl hq
      | some q' =>
        obtain ⟨-, rfl⟩ := Queue.push?_eq_some_iff.mp hpush
        rw [hpush] at hq
        rcases List.mem_append.mp hq with hold | hnew
        · exact .inl hold
        · exact .inr (List.mem_cons.mpr (.inl (List.mem_singleton.mp hnew)))
    · exact .inr (List.mem_cons_of_mem item hrest)

/-- Only meters are reported. -/
theorem countBlock_cases (p : Processor) :
    ∃ rendered readbacks, p.countBlock = { p with rendered, readbacks } ∧
      ∀ r ∈ readbacks.items, r ∈ p.readbacks.items ∨ r.binding ∈ p.table.meters := by
  unfold countBlock
  dsimp only
  split
  · refine ⟨_, _, rfl, fun r hr => ?_⟩
    refine (mem_pushAll hr).imp_right fun hmeter => ?_
    obtain ⟨id, hid, hread⟩ := List.mem_filterMap.mp hmeter
    obtain ⟨value, -, rfl⟩ := Option.map_eq_some_iff.mp hread
    exact hid
  · exact ⟨_, _, rfl, fun r hr => .inl hr⟩

/-- A block whose buffers suffice is rendered, and what is reserved is kept. -/
theorem Ready.renderBlock_eq (h : p.Ready rate fields) (inputs outputs : HostBlock)
    (automation : List Automation) :
    ∃ arena, p.renderBlock inputs outputs automation =
        (.rendered, readOutputs p.plan.outputBuffers arena outputs,
          (p.withArena arena).countBlock) ∧
      Arena.ChangedWithin (p.router.reserved fields)ᶜ (p.staged inputs automation) arena := by
  -- The code ends in the staged arena, so the branch for its faults is not taken.
  obtain ⟨_, arena, hrun, hchange⟩ := h.minds.renderCode_confined h.wellFormed
    (p.staged inputs automation) (h.hosts_staged inputs automation)
  have hcode : ((p.mapArena (writeInputs p.plan.inputBuffers inputs)).automate
      automation).renderCode.run ((p.mapArena (writeInputs p.plan.inputBuffers
        inputs)).automate automation).arena = (.ok (), arena) := hrun
  refine ⟨arena, ?_, hchange⟩
  simp only [renderBlock, hcode]
  rfl

/-- A block keeps voices and every field that automation misses, and reports meters only. -/
theorem Ready.processDrained (h : p.Ready rate fields) (inputs outputs : HostBlock)
    (automation : List Automation) :
    ∃ p', (p.processDrained inputs outputs automation).2.2 = p' ∧ p'.Ready rate fields ∧
      p'.router = p.router ∧ p'.voices = p.voices ∧
        (∀ r ∈ p'.readbacks.items, r ∈ p.readbacks.items ∨ r.binding ∈ p.table.meters) ∧
          ∀ scope region index, p.Keeps fields scope region index →
            p.AutomationMisses automation scope index →
              p'.arena.readField? region index = p.arena.readField? region index := by
  unfold Processor.processDrained
  -- A stopped processor and a block that does not fit leave everything alone.
  split
  · exact ⟨p, rfl, h, rfl, rfl, fun r hr => .inl hr, fun _ _ _ _ _ => rfl⟩
  · exact ⟨p, rfl, h, rfl, rfl, fun r hr => .inl hr, fun _ _ _ _ _ => rfl⟩
  · split
    · have hstaged := h.hosts_staged inputs automation
      obtain ⟨arena, hrender, hchange⟩ := h.renderBlock_eq inputs outputs automation
      obtain ⟨rendered, readbacks, hcount, hmeters⟩ := (p.withArena arena).countBlock_cases
      rw [hrender, hcount]
      refine ⟨_, rfl, ⟨h.wellFormed, h.indexed, h.minds, ?_, h.seated⟩, rfl, rfl,
        hmeters, fun scope region index hkeeps hmiss => ?_⟩
      · exact h.hosts_of_reserved hstaged hchange
      · exact (Ready.readField?_of_reserved hkeeps hchange).trans
          (h.readField?_staged hkeeps hmiss inputs)
    · exact ⟨p, rfl, h, rfl, rfl, fun r hr => .inl hr, fun _ _ _ _ _ => rfl⟩

/-- A running processor applies pending commands before it looks at the block. -/
theorem process_of_running (hrunning : ¬p.isStopped = true) (commands : Queue Command)
    (inputs outputs : HostBlock) (automation : List Automation) :
    (p.process commands inputs outputs automation).2.2 =
      (((p.drainList commands.items).1.processDrained inputs outputs automation).2.2,
        ⟨commands.capacity, (p.drainList commands.items).2⟩) := by
  unfold process
  rw [if_neg hrunning]
  rfl

/-- What every command keeps, and the block after the last of them, processing a block keeps. -/
theorem process_induction (invariant : Processor → List Command → Prop) {inputs outputs : HostBlock}
    {automation : List Automation}
    (step : ∀ p command rest, invariant p (command :: rest) →
      ∃ p', p.apply command = (.ok (), p') ∧ invariant p' rest)
    (block : ∀ p pending, invariant p pending →
      invariant (p.processDrained inputs outputs automation).2.2 pending)
    {commands : Queue Command} (h : invariant p commands.items) :
    invariant (p.process commands inputs outputs automation).2.2.1
      (p.process commands inputs outputs automation).2.2.2.items := by
  by_cases hstopped : p.isStopped = true
  · rw [process_of_isStopped hstopped]
    exact h
  · rw [process_of_running hstopped]
    exact block _ _ (drainList_induction invariant step h)

/-- A running processor takes every command of a block, if there is no teardown among them. -/
theorem Ready.items_process (h : p.Ready rate fields) (hrunning : p.halt = none)
    {commands : Queue Command} (hlive : Command.destroy ∉ commands.items)
    (inputs outputs : HostBlock) (automation : List Automation) :
    (p.process commands inputs outputs automation).2.2.2.items = [] := by
  have hstopped : ¬p.isStopped = true := by simp [isStopped, hrunning]
  rw [process_of_running hstopped]
  exact h.drainList_eq_nil hlive

end Processor

end DspHost
