import DspHost.Proofs.Control.Sources
import DspHost.Proofs.Engine.Polyphony

/-!
# Meters, from the arena to the handle

Meters are read when a block has been rendered and its number is a multiple of the interval. All of
them are read at once, in the order of the table, and what is read waits in a queue of fixed
capacity until the handle takes it. A full queue keeps what it has, so what is lost is the end of a
reading and never its beginning. The handle keeps the newest value of every meter that it was given.

Every meter can be read as long as the arena keeps its shape, and this is all that is asked of the
code of the module.

## Main definitions

* `Processor.Shaped` — code that leaves the shape of the arena alone
* `Processor.Reports` — a reading of all meters
* `Session.pending`, `Session.Due` — readbacks that wait for the handle, and when there are more
* `Session.queuedBy`, `Session.collectedBy` — what a run adds to them, and what it takes
* `Newest` — values after readbacks were stored
* `Session.ReadsBack` — what becomes of meters in a run

## Main results

* `Queue.pushAll_eq` — what is pushed is cut where the queue is full
* `Processor.Metered.reports` — every meter is read
* `Session.metered_run` — and so it is in whatever a host can bring about
* `Session.pending_queuedBy` — readbacks are taken in the order in which they are queued
* `Session.readsBack_of_attach` — every run of every new processor
-/

namespace DspHost

/-- What is pushed goes behind what is there, as far as there is room. -/
theorem Queue.pushAll_eq {α : Type} (q : Queue α) (items : List α) :
    q.pushAll items = ⟨q.capacity, q.items ++ items.take (q.capacity - q.items.length)⟩ := by
  induction items generalizing q with
  | nil => simp [pushAll]
  | cons item rest ih =>
    change ((q.push? item).getD q).pushAll rest = _
    by_cases hroom : q.items.length < q.capacity
    · have hleft : q.capacity - q.items.length = q.capacity - (q.items.length + 1) + 1 := by omega
      rw [push?_eq_some_iff.mpr ⟨hroom, rfl⟩, Option.getD_some, ih, hleft, List.take_succ_cons]
      simp
    · have hfull : q.push? item = none := by simp [push?, isFull, Nat.le_of_not_lt hroom]
      rw [hfull, Option.getD_none, ih, Nat.sub_eq_zero_of_le (Nat.le_of_not_lt hroom),
        List.take_zero, List.take_zero]

/-! ### The shape of the arena -/

namespace Processor

variable {p : Processor}

/-- All code of the module leaves the shape of the arena alone, wherever it runs. -/
structure Shaped (p : Processor) : Prop where
  kernel : p.kernel.KeepsShape
  effect : ∀ k, p.effect = some k → k.KeepsShape
  clear : ∀ region, (p.kernel.clear region).WritesIn Set.univ

theorem shape_allNotesOff (p : Processor) :
    Arena.ChangedWithin Set.univ p.arena p.allNotesOff.arena := by
  rcases p.allNotesOff_eq with ⟨-, hsame⟩ | ⟨t, -, hnotes⟩
  · rw [hsame]
    exact .refl _ _
  · rw [hnotes]
    exact List.foldlRecOn _ _ (Arena.ChangedWithin.refl _ _) fun _ hb _ _ =>
      hb.trans (p.router.changedWithin_setKey _ _ _ _).shape

theorem Shaped.noteOn (h : p.Shaped) (pitch velocity : UInt8) :
    Arena.ChangedWithin Set.univ p.arena (p.noteOn pitch velocity).2.arena := by
  unfold Processor.noteOn
  split
  · exact .refl _ _
  · next choice region voices _ =>
    have hclear := h.clear region.offset p.arena
    dsimp only
    split
    · exact hclear
    · rw [startVoice_eq]
      exact hclear.trans (p.router.changedWithin_startKeys region pitch velocity _).shape

/-- Commands leave the shape of the arena alone, even if they fault. -/
theorem Shaped.apply (h : p.Shaped) (command : Command) :
    Arena.ChangedWithin Set.univ p.arena (p.apply command).2.arena := by
  cases command with
  | noteOn pitch velocity => exact h.noteOn pitch velocity
  | noteOff pitch =>
    rcases p.noteOff_eq pitch with hsame | ⟨_, voice, _, _, -, -, -, hnote⟩
    · rw [Processor.apply, hsame]
      exact .refl _ _
    · rw [Processor.apply, hnote]
      exact (p.router.changedWithin_setKey voice.region _ _ _).shape
  | controlChange controller value =>
    obtain ⟨q, hq, hchange⟩ := p.controlChange_eq controller value
    have hnotes : Arena.ChangedWithin Set.univ p.arena q.arena := by
      rcases hq with rfl | rfl
      · exact .refl _ _
      · exact p.shape_allNotesOff
    rw [Processor.apply, hchange]
    exact hnotes.trans (q.router.changedWithin_setEach _ _ _).shape
  | pitchWheel value => exact (p.router.changedWithin_setEach _ _ _).shape
  | setParameter id value => exact (p.router.changedWithin_set id value _).shape
  | allNotesOff => exact p.shape_allNotesOff
  | destroy => exact .refl _ _

theorem Shaped.drainList (h : p.Shaped) (commands : List Command) :
    Arena.ChangedWithin Set.univ p.arena (p.drainList commands).1.arena := by
  induction commands generalizing p with
  | nil => exact .refl _ _
  | cons command rest ih =>
    by_cases hdestroy : command = .destroy
    · subst hdestroy
      exact .refl _ _
    · have hfirst := h.apply command
      obtain ⟨arena, voices, hframe⟩ := p.exists_apply_eq hdestroy
      rcases happly : p.apply command with ⟨fault | _, p'⟩
      · rw [happly] at hfirst
        rw [drainList_cons_of_fault happly]
        exact hfirst
      · rw [happly] at hfirst hframe
        obtain rfl : p' = { p with arena, voices } := hframe
        rw [drainList_cons happly hdestroy]
        exact hfirst.trans (ih ⟨h.kernel, h.effect, h.clear⟩)

/-! ### Readings of all meters -/

/-- A reading of all meters. -/
structure Reports (p : Processor) (readings : List Readback) : Prop where
  /-- Every control that the module writes is there once, in the order of the table. -/
  lists : p.table.Lists (readings.map (·.binding)) (·.isOutput = true)
  /-- Its value is the one that voice zero, the single instance or the effect holds. -/
  values : ∀ r ∈ readings, ∃ b region, p.table.get? r.binding = some b ∧
    (b.scope = .voice → p.plan.voiceInstance? 0 = some region) ∧
      (b.scope = .effect → p.plan.effect = some region) ∧
        p.arena.readField? region b.index = some r.value

/-- A processor whose meters can be read: the index of meters is complete, every meter lies inside
an instance that it is read from, and everything is where it was planned. -/
structure Metered (p : Processor) : Prop where
  shaped : p.Shaped
  wellFormed : p.plan.WellFormed
  size_eq : p.arena.size = p.plan.arenaSize
  lists : p.table.Lists p.table.meters (·.isOutput = true)
  placed : ∀ id b, p.table.get? id = some b → ∃ region ∈ p.router.regions b.scope,
    p.router.source? b.scope = some region ∧ b.index + 4 ≤ region.size

theorem mem_meters_of_mem {r : Readback} (h : r ∈ p.meterReadbacks) :
    r.binding ∈ p.table.meters := by
  obtain ⟨id, hid, hread⟩ := List.mem_filterMap.mp h
  obtain ⟨value, -, rfl⟩ := Option.map_eq_some_iff.mp hread
  exact hid

namespace Metered

/-- Whether meters can be read depends on the shape of the arena alone, as far as it depends on
anything that changes. -/
theorem update (h : p.Metered) {arena : Arena}
    (hshape : Arena.ChangedWithin Set.univ p.arena arena) (voices : Option VoiceTable)
    (halt : Option Halt) (rendered : ℕ) (readbacks : Queue Readback) :
    ({ p with arena, voices, halt, rendered, readbacks } : Processor).Metered :=
  ⟨⟨h.shaped.kernel, h.shaped.effect, h.shaped.clear⟩, h.wellFormed,
    hshape.size_eq.trans h.size_eq, h.lists, h.placed⟩

/-- A control is read from the first instance of its scope. -/
theorem exists_read? (h : p.Metered) {id : BindingId} {b : Binding}
    (hb : p.table.get? id = some b) : ∃ region value, p.router.source? b.scope = some region ∧
      p.arena.readField? region b.index = some value ∧
        p.router.read? p.arena id = some value := by
  obtain ⟨region, hregion, hsource, hfits⟩ := h.placed id b hb
  have hinside : region.offset + region.size ≤ p.arena.size := by
    rw [h.size_eq]
    exact Router.region_le_arenaSize h.wellFormed hregion
  have hvalue := Arena.readField?_eq_sample hfits hinside
  refine ⟨region, _, hsource, hvalue, ?_⟩
  have hget : p.router.table.get? id = some b := hb
  simp only [Router.read?, hget, hsource, Option.bind_eq_bind, Option.bind_some, hvalue]

/-- Every meter is read. -/
theorem reports (h : p.Metered) : p.Reports p.meterReadbacks := by
  have hall : p.meterReadbacks.map (·.binding) = p.table.meters := by
    unfold meterReadbacks
    rw [List.map_filterMap]
    refine (List.filterMap_congr fun id hid => ?_).trans List.filterMap_some
    obtain ⟨b, hb, -⟩ := (h.lists.mem_iff id).mp hid
    obtain ⟨_, value, -, -, hread⟩ := h.exists_read? hb
    rw [hread]
    rfl
  refine ⟨hall ▸ h.lists, fun r hr => ?_⟩
  obtain ⟨id, hid, hread⟩ := List.mem_filterMap.mp hr
  obtain ⟨value, hvalue, rfl⟩ := Option.map_eq_some_iff.mp hread
  obtain ⟨b, hb, -⟩ := (h.lists.mem_iff id).mp hid
  obtain ⟨region, value', hsource, hfield, hread⟩ := h.exists_read? hb
  obtain rfl := Option.some.inj (hvalue.symm.trans hread)
  refine ⟨b, region, hb, ?_, ?_, hfield⟩
  · intro hscope
    rwa [hscope] at hsource
  · intro hscope
    rwa [hscope] at hsource

theorem drainList (h : p.Metered) (commands : List Command) :
    (p.drainList commands).1.Metered := by
  have hshape := h.shaped.drainList commands
  obtain ⟨arena, voices, halt, hdrained⟩ := p.exists_drainList_eq commands
  rw [hdrained] at hshape ⊢
  exact h.update hshape _ _ _ _

theorem processDrained (h : p.Metered) (inputs outputs : HostBlock)
    (automation : List Automation) :
    (p.processDrained inputs outputs automation).2.2.Metered := by
  have hshape := shape_processDrained (writesIn_renderCode h.shaped.kernel h.shaped.effect)
    inputs outputs automation
  obtain ⟨arena, halt, rendered, readbacks, hblock⟩ :=
    p.exists_processDrained_eq inputs outputs automation
  rw [hblock] at hshape ⊢
  exact h.update hshape _ _ _ _

/-- Blocks leave meters that can be read, whatever becomes of the blocks. -/
theorem process (h : p.Metered) (commands : Queue Command) (inputs outputs : HostBlock)
    (automation : List Automation) :
    (p.process commands inputs outputs automation).2.2.1.Metered := by
  by_cases hstopped : p.isStopped = true
  · rw [process_of_isStopped hstopped]
    exact h
  · rw [process_of_running hstopped]
    exact (h.drainList commands.items).processDrained inputs outputs automation

end Metered

theorem readbacks_countBlock_of_dvd (h : p.interval ∣ p.rendered + 1) :
    p.countBlock.readbacks = p.readbacks.pushAll p.countBlock.meterReadbacks := by
  unfold countBlock
  dsimp only
  rw [if_pos (Nat.mod_eq_zero_of_dvd h)]
  rfl

theorem readbacks_countBlock_of_not_dvd (h : ¬p.interval ∣ p.rendered + 1) :
    p.countBlock.readbacks = p.readbacks := by
  unfold countBlock
  dsimp only
  rw [if_neg fun hzero => h (Nat.dvd_of_mod_eq_zero hzero)]

end Processor

/-! ### Values at the control end -/

/-- Values after readbacks were stored: the newest one where there are any, and the old value
everywhere else. -/
structure Newest (readbacks : List Readback) (values values' : List Single) : Prop where
  newest : ∀ older r newer, readbacks = older ++ r :: newer →
    (∀ x ∈ newer, x.binding ≠ r.binding) → values'[r.binding]? = some r.value
  kept : ∀ id, (∀ r ∈ readbacks, r.binding ≠ id) → values'[id]? = values[id]?

theorem ParameterTable.length_valuesAfter (t : ParameterTable) (values : List Single)
    (command : Command) : (t.valuesAfter values command).length = values.length := by
  have heach (value : Binding → Single) (ids : List BindingId) :
      (t.storeEach value ids values).length = values.length := by
    unfold storeEach
    refine List.foldlRecOn ids _ (motive := fun xs : List Single => xs.length = values.length) rfl
      fun xs hxs id _ => ?_
    split
    · rw [List.length_set, hxs]
    · exact hxs
  cases command with
  | controlChange controller value => exact heach _ _
  | pitchWheel value => exact heach _ _
  | setParameter id value => exact List.length_set
  | _ => rfl

namespace Handle

variable {h : Handle}

theorem receive_append (h : Handle) (older newer : List Readback) :
    h.receive (older ++ newer) = (h.receive older).receive newer := by
  simp only [receive, List.foldl_append]

theorem length_receive (h : Handle) (readbacks : List Readback) :
    (h.receive readbacks).values.length = h.values.length :=
  List.foldlRecOn readbacks _ (motive := fun xs : List Single => xs.length = h.values.length) rfl
    fun xs hxs r _ => by rw [List.length_set, hxs]

/-- A handle that has a place for every readback keeps the newest of each. -/
theorem newest_receive {readbacks : List Readback}
    (hplaces : ∀ r ∈ readbacks, r.binding < h.values.length) :
    Newest readbacks h.values (h.receive readbacks).values := by
  refine ⟨fun older r newer hsplit hnewer => ?_, fun id hid => Session.getElem?_receive hid⟩
  have hplace : r.binding < (h.receive older).values.length := by
    rw [h.length_receive]
    exact hplaces r (by simp [hsplit])
  rw [hsplit, List.append_cons, receive_append,
    Session.getElem?_receive hnewer, receive_append]
  exact List.getElem?_set_self hplace

end Handle

/-! ### Calls -/

namespace Session

variable {s : Session} {call : HostCall}

/-- The readbacks that the handle has not taken yet, the oldest first. -/
def pending (s : Session) : List Readback := s.processor.readbacks.items

/-- It is the turn of the meters: a call renders a block, and the number of the block is a multiple
of the interval. -/
def Due (s : Session) (call : HostCall) : Prop :=
  s.status? call = some .rendered ∧ s.processor.interval ∣ s.processor.rendered + 1

/-- A call that is no poll counts a block, or it leaves the readbacks that wait alone. -/
theorem counts_or_keeps (s : Session) (hpoll : call ≠ .poll) :
    (s.status? call = some .rendered ∧ ∃ arena voices halt,
      (s.act call).processor =
        ({ s.processor with arena, voices, halt } : Processor).countBlock) ∨
      (s.status? call ≠ some .rendered ∧
        (s.act call).processor.readbacks = s.processor.readbacks) := by
  cases call with
  | poll => exact (hpoll rfl).elim
  | process inputs outputs automation =>
    rw [act, status?]
    by_cases hstopped : s.processor.isStopped = true
    · rw [process_of_isStopped hstopped]
      exact .inr ⟨by simp, rfl⟩
    · -- Commands come first, and they neither count blocks nor touch readbacks.
      obtain ⟨arena, voices, halt, hdrained⟩ :=
        s.processor.exists_drainList_eq s.handle.commands.items
      rw [← drained_processor] at hdrained
      obtain ⟨⟨status, _, p'⟩, houtcome, hprocess⟩ :=
        process_of_running hstopped inputs outputs automation
      rw [hprocess]
      rw [hdrained] at houtcome
      cases houtcome with
      | rendered arena => exact .inl ⟨rfl, arena, voices, halt, rfl⟩
      | _ => exact .inr ⟨by simp, rfl⟩
  | _ => exact .inr ⟨by simp [status?], rfl⟩

/-- When it is the turn of the meters, the processor that has rendered the block is read. -/
theorem readbacks_of_due (hdue : s.Due call) :
    (s.act call).processor.readbacks =
      s.processor.readbacks.pushAll (s.act call).processor.meterReadbacks := by
  obtain ⟨hstatus, hturn⟩ := hdue
  have hpoll : call ≠ .poll := by
    rintro rfl
    cases hstatus
  rcases s.counts_or_keeps hpoll with ⟨-, arena, voices, halt, hcount⟩ | ⟨hnot, -⟩
  · rw [hcount]
    exact Processor.readbacks_countBlock_of_dvd hturn
  · exact absurd hstatus hnot

/-- When it is not their turn, nothing is read. -/
theorem readbacks_of_not_due (hpoll : call ≠ .poll) (hdue : ¬s.Due call) :
    (s.act call).processor.readbacks = s.processor.readbacks := by
  rcases s.counts_or_keeps hpoll with ⟨hstatus, arena, voices, halt, hcount⟩ | ⟨-, hkept⟩
  · rw [hcount]
    exact Processor.readbacks_countBlock_of_not_dvd fun hturn => hdue ⟨hstatus, hturn⟩
  · exact hkept

/-! ### Any number of calls -/

/-- What a call adds to the readbacks that wait. -/
def queued (s : Session) : HostCall → List Readback
  | .poll => []
  | call => (s.act call).pending.drop s.pending.length

/-- What a call takes of them. -/
def collected (s : Session) : HostCall → List Readback
  | .poll => s.pending
  | _ => []

/-- What the calls of a run add, one call after the other. -/
def queuedBy (s : Session) : List HostCall → List Readback
  | [] => []
  | call :: rest => s.queued call ++ (s.act call).queuedBy rest

/-- What the calls of a run take. -/
def collectedBy (s : Session) : List HostCall → List Readback
  | [] => []
  | call :: rest => s.collected call ++ (s.act call).collectedBy rest

/-- A call that is no poll adds at the end. -/
theorem pending_prefix (s : Session) (hpoll : call ≠ .poll) :
    s.pending <+: (s.act call).pending := by
  by_cases hdue : s.Due call
  · rw [pending, pending, readbacks_of_due hdue, Queue.pushAll_eq]
    exact List.prefix_append _ _
  · rw [pending, pending, readbacks_of_not_due hpoll hdue]

theorem pending_queued (s : Session) (call : HostCall) :
    s.pending ++ s.queued call = s.collected call ++ (s.act call).pending := by
  have hadded {call : HostCall} (hpoll : call ≠ .poll) :
      s.pending ++ (s.act call).pending.drop s.pending.length = (s.act call).pending := by
    obtain ⟨added, hadded⟩ := s.pending_prefix hpoll
    rw [← hadded, List.drop_left]
  cases call with
  | poll => rfl
  | _ => exact hadded HostCall.noConfusion

/-- Readbacks are taken in the order in which they are queued, and what is not taken waits. -/
theorem pending_queuedBy (s : Session) (calls : List HostCall) :
    s.pending ++ s.queuedBy calls = s.collectedBy calls ++ (s.run calls).pending := by
  -- What waits after the first call is what waits before the others.
  induction calls generalizing s with
  | nil => exact List.append_nil _
  | cons call rest ih =>
    calc s.pending ++ (s.queued call ++ (s.act call).queuedBy rest)
      _ = s.collected call ++ ((s.act call).pending ++ (s.act call).queuedBy rest) := by
        rw [← List.append_assoc, pending_queued, List.append_assoc]
      _ = (s.collected call ++ (s.act call).collectedBy rest) ++
          ((s.act call).run rest).pending := by rw [ih, List.append_assoc]

/-- Without events, the handle changes by the readbacks that it takes. -/
theorem values_run (s : Session) {calls : List HostCall}
    (hsilent : ∀ call ∈ calls, call.event? = none) :
    (s.run calls).handle.values = (s.handle.receive (s.collectedBy calls)).values := by
  induction calls generalizing s with
  | nil => rfl
  | cons call rest ih =>
    have hfirst : (s.act call).handle.values = (s.handle.receive (s.collected call)).values := by
      cases call with
      | send event => cases hsilent _ List.mem_cons_self
      | midi bytes =>
        rw [s.act_midi_of_none (hsilent _ List.mem_cons_self)]
        rfl
      | _ => rfl
    refine (ih _ fun other hother => hsilent other (List.mem_cons_of_mem call hother)).trans ?_
    rw [collectedBy, Handle.receive_append]
    simp only [Handle.receive] at hfirst ⊢
    rw [hfirst]

/-! ### Runs of new processors -/

variable {m : CompiledModule} {config : EngineConfig}

/-- The invariant of a run: meters can be read, the queue has its capacity, and the handle has a
place for every readback that waits. -/
structure Metered (s : Session) (config : EngineConfig) : Prop where
  processor : s.processor.Metered
  interval : s.processor.interval = config.bargraphInterval
  capacity : s.processor.readbacks.capacity = config.readbackCapacity
  bounded : s.pending.length ≤ config.readbackCapacity
  meters : ∀ r ∈ s.pending, r.binding ∈ s.processor.table.meters
  table : s.handle.table = s.processor.table
  places : s.handle.values.length = s.processor.table.bindings.length

/-- Calls keep what is hosted. -/
theorem exists_act_eq (s : Session) (call : HostCall) : ∃ arena voices halt rendered readbacks,
    (s.act call).processor = { s.processor with arena, voices, halt, rendered, readbacks } := by
  cases call with
  | process inputs outputs automation =>
    rw [act]
    by_cases hstopped : s.processor.isStopped = true
    · rw [process_of_isStopped hstopped]
      exact ⟨_, _, _, _, _, rfl⟩
    · obtain ⟨_, voices, _, hdrained⟩ := s.processor.exists_drainList_eq s.handle.commands.items
      obtain ⟨arena, halt, rendered, readbacks, hblock⟩ :=
        s.drained.processor.exists_processDrained_eq inputs outputs automation
      rw [process_eq_of_running hstopped]
      dsimp only
      rw [hblock, drained_processor, hdrained]
      exact ⟨arena, voices, halt, rendered, readbacks, rfl⟩
  | _ => exact ⟨_, _, _, _, _, rfl⟩

/-- Calls keep the controls of the handle, and a place for each of their values. -/
theorem handle_act (s : Session) (call : HostCall) :
    (s.act call).handle.table = s.handle.table ∧
      (s.act call).handle.values.length = s.handle.values.length := by
  have hsend (event : Event) : (s.act (.send event)).handle.table = s.handle.table ∧
      (s.act (.send event)).handle.values.length = s.handle.values.length := by
    change (s.handle.send event).value.2.table = _ ∧ (s.handle.send event).value.2.values.length = _
    rcases s.handle.send_cases event with hsame | ⟨command, -, hsent⟩
    · rw [hsame]
      exact ⟨rfl, rfl⟩
    · rw [hsent]
      dsimp only
      rw [Handle.values_keep, ParameterTable.length_valuesAfter]
      exact ⟨s.handle.table_keep command, rfl⟩
  cases call with
  | send event => exact hsend event
  | midi bytes =>
    rcases s.act_midi_cases bytes with hsame | ⟨event, hevent⟩
    · rw [hsame]
      exact ⟨rfl, rfl⟩
    · rw [hevent]
      exact hsend event
  | poll => exact ⟨rfl, s.handle.length_receive _⟩
  | process inputs outputs automation => exact ⟨rfl, rfl⟩

theorem metered_processor_act (h : s.processor.Metered) (call : HostCall) :
    (s.act call).processor.Metered := by
  cases call with
  | process inputs outputs automation =>
    exact h.process s.handle.commands inputs outputs automation
  | poll => exact h.update (.refl _ _) _ _ _ _
  | _ => exact h

/-- When it is the turn of the meters, the reading goes behind what waits, as far as there is
room. -/
theorem Metered.pending_of_due (h : s.Metered config) (hdue : s.Due call) :
    (s.act call).pending = s.pending ++
      (s.act call).processor.meterReadbacks.take
        (config.readbackCapacity - s.pending.length) := by
  rw [pending, readbacks_of_due hdue, Queue.pushAll_eq, h.capacity]
  rfl

/-- Every call keeps the queue within its capacity, and nothing but meters is queued. -/
theorem Metered.queue_act (h : s.Metered config) (call : HostCall) :
    (s.act call).processor.readbacks.capacity = config.readbackCapacity ∧
      (s.act call).pending.length ≤ config.readbackCapacity ∧
        ∀ r ∈ (s.act call).pending, r.binding ∈ (s.act call).processor.table.meters := by
  have htable : (s.act call).processor.table = s.processor.table := by
    obtain ⟨_, _, _, _, _, hframe⟩ := s.exists_act_eq call
    rw [hframe]
  by_cases hpoll : call = .poll
  · subst hpoll
    exact ⟨h.capacity, Nat.zero_le _, fun r hr => (List.not_mem_nil hr).elim⟩
  by_cases hdue : s.Due call
  · have hqueue := readbacks_of_due hdue
    rw [h.pending_of_due hdue]
    refine ⟨?_, ?_, fun r hr => ?_⟩
    · rw [hqueue, Queue.pushAll_eq, h.capacity]
    · have hbounded := h.bounded
      rw [List.length_append, List.length_take]
      omega
    · rcases List.mem_append.mp hr with hold | hnew
      · rw [htable]
        exact h.meters r hold
      · exact Processor.mem_meters_of_mem (List.mem_of_mem_take hnew)
  · rw [pending, readbacks_of_not_due hpoll hdue, htable]
    exact ⟨h.capacity, h.bounded, h.meters⟩

/-- Every call keeps the invariant. -/
theorem Metered.act (h : s.Metered config) (call : HostCall) : (s.act call).Metered config := by
  obtain ⟨_, _, _, _, _, hframe⟩ := s.exists_act_eq call
  have hinterval : (s.act call).processor.interval = s.processor.interval := by rw [hframe]
  have htable : (s.act call).processor.table = s.processor.table := by rw [hframe]
  obtain ⟨hcontrols, hlength⟩ := s.handle_act call
  obtain ⟨hcapacity, hbounded, hmeters⟩ := h.queue_act call
  refine ⟨metered_processor_act h.processor call, hinterval.trans h.interval, hcapacity, hbounded,
    hmeters, ?_, ?_⟩
  · rw [hcontrols, htable, h.table]
  · rw [hlength, htable, h.places]

theorem metered_run (h : s.Metered config) (calls : List HostCall) :
    (s.run calls).Metered config :=
  run_induction (fun s => s.Metered config) (fun _ call _ hs => hs.act call) h

/-- A readback that waits has a place in the handle. -/
theorem Metered.lt_of_mem_pending (h : s.Metered config) {r : Readback} (hr : r ∈ s.pending) :
    r.binding < s.handle.values.length := by
  obtain ⟨b, hb, -⟩ := (h.processor.lists.mem_iff _).mp (h.meters r hr)
  rw [h.places]
  exact ParameterTable.lt_length_of_get? hb

/-- So has every readback that was taken in a run. -/
theorem Metered.lt_of_mem_collectedBy (h : s.Metered config) {calls : List HostCall}
    {r : Readback} (hr : r ∈ s.collectedBy calls) : r.binding < s.handle.values.length := by
  induction calls generalizing s with
  | nil => cases hr
  | cons call rest ih =>
    rcases List.mem_append.mp hr with hfirst | hlater
    · cases call with
      | poll => exact h.lt_of_mem_pending hfirst
      | _ => cases hfirst
    · rw [← (s.handle_act call).2]
      exact ih (h.act call) hlater

/-- A hosted description has an instance. -/
theorem exists_region_of_plan (table : ParameterTable) {width : PointerWidth} {plan : MemoryPlan}
    (hplan : (layoutFor m.metadata ((hostedEffect? m config.voices).map (·.metadata)) config
      width).plan = .ok plan) {scope : Scope} {d : ModuleMetadata}
    (hd : m.describedBy config.voices scope = some d) :
    ∃ region, region ∈ (Router.mk plan table).regions scope := by
  have hanswer := LayoutRequest.answeredBy_of_plan hplan
  cases scope with
  | voice =>
    exact List.exists_mem_of_ne_nil _ (LayoutRequest.voiceInstances_ne_nil_of_plan hplan)
  | effect =>
    obtain ⟨effect, heffect, rfl⟩ := Option.map_eq_some_iff.mp hd
    have hpoly : plan.polyphony.isPoly = true := by
      rw [hanswer.polyphony]
      obtain ⟨hcandidate, -⟩ := Option.filter_eq_some_iff.mp heffect
      exact (Option.ite_none_right_eq_some.mp hcandidate).1
    have hsize := hanswer.effect
    rw [if_pos hpoly] at hsize
    change _ = ((hostedEffect? m config.voices).map (·.metadata)).map (·.size) at hsize
    rw [heffect] at hsize
    obtain ⟨region, hregion, -⟩ := Option.map_eq_some_iff.mp hsize
    exact ⟨region, Router.mem_regions_effect.mpr hregion⟩

/-- The meters of a new processor can be read if its descriptions were accepted. -/
theorem metered_of_attach (h : (attach m config).value = .ok s)
    (hsound : ∀ scope d, m.describedBy config.voices scope = some d → d.Sound)
    (hshaped : s.processor.Shaped) : s.Metered config := by
  obtain ⟨width, plan, arena, hplan, hrun, rfl⟩ := attach_eq_ok h
  have hwell := LayoutRequest.wellFormed_of_plan hplan
  have hsetup := writesIn_setupCode hshaped.kernel hshaped.effect plan config.sampleRate plan.arena
  have hshape : arena.size = plan.arena.size :=
    (congrArg (fun x => x.2.size) hrun).symm.trans hsetup.size_eq
  have hcomplete := ParameterTable.complete_build m.metadata
    ((hostedEffect? m config.voices).map (·.metadata)) (Polyphony.ofRequested config.voices).isPoly
  refine ⟨⟨hshaped, hwell, hshape.trans plan.size_arena, hcomplete.meters, fun id b hb => ?_⟩,
    rfl, rfl, Nat.zero_le _, fun r hr => (List.not_mem_nil hr).elim, rfl, List.length_map _⟩
  have hmem : b ∈ (hostedTable m config.voices).bindings := List.mem_of_getElem? hb
  obtain ⟨d, hd, -⟩ := ParameterTable.visited_of_build hmem
  obtain ⟨region, hregion⟩ := exists_region_of_plan (hostedTable m config.voices) hplan hd
  obtain ⟨source, hinside, hsource⟩ := Router.exists_source hregion
  refine ⟨source, hinside, hsource, ?_⟩
  exact ModuleMetadata.fits_of_sound (hsound b.scope) hmem hplan hinside

/-- What becomes of meters in a run that begins at a session. -/
structure ReadsBack (s : Session) (config : EngineConfig) (calls : List HostCall) : Prop where
  /-- The queue of readbacks is bounded. -/
  bounded : (s.run calls).pending.length ≤ config.readbackCapacity
  /-- After a rendered block whose number, counted over the run, is a multiple of the interval, all
  meters are read, and as much of the reading as there is room for goes behind what waits. -/
  due : ∀ call, (s.run calls).status? call = some .rendered →
    config.bargraphInterval ∣ (s.statuses calls).count .rendered + 1 →
      ∃ readings, ((s.run calls).act call).processor.Reports readings ∧
        ((s.run calls).act call).pending = (s.run calls).pending ++
          readings.take (config.readbackCapacity - (s.run calls).pending.length)
  /-- Nothing else that is no poll changes what waits. -/
  idle : ∀ call, call ≠ .poll → ¬((s.run calls).status? call = some .rendered ∧
    config.bargraphInterval ∣ (s.statuses calls).count .rendered + 1) →
      ((s.run calls).act call).pending = (s.run calls).pending
  /-- A poll answers how many readbacks wait and takes them all. -/
  polled : (s.run calls).poll.1 = (s.run calls).pending.length ∧
    (s.run calls).poll.2.pending = []
  /-- The handle keeps the newest value of every meter that it is given then, and all other
  values. -/
  kept : Newest (s.run calls).pending (s.run calls).handle.values
    (s.run calls).poll.2.handle.values
  /-- What waits belongs to controls that the module writes. -/
  meters : ∀ r ∈ (s.run calls).pending, ∃ b, (s.run calls).handle.table.get? r.binding = some b ∧
    b.isOutput = true
  /-- Over the whole run, readbacks are taken in the order in which they were queued. -/
  ordered : s.queuedBy calls = s.collectedBy calls ++ (s.run calls).pending
  /-- If no events were sent, the handle shows the newest value of every meter that it was ever
  given, and the default of every other control. -/
  shown : (∀ call ∈ calls, call.event? = none) →
    Newest (s.collectedBy calls) (s.handle.table.bindings.map (·.default))
      (s.run calls).handle.values

/-- Meters come through in every run of every new processor, whatever the host calls and whatever
its code does with the arena, as long as it leaves the shape of the arena alone: they are read in
their turn, they wait in the order of the table as far as there is room, and a poll gives all that
waits to the handle. -/
theorem readsBack_of_attach (h : (attach m config).value = .ok s)
    (hsound : ∀ scope d, m.describedBy config.voices scope = some d → d.Sound)
    (hshaped : s.processor.Shaped) (calls : List HostCall) : s.ReadsBack config calls := by
  have hfresh := metered_of_attach h hsound hshaped
  have hrun := metered_run hfresh calls
  have hnew : s.pending = [] ∧ s.processor.rendered = 0 := by
    obtain ⟨_, _, _, -, -, rfl⟩ := attach_eq_ok h
    exact ⟨rfl, rfl⟩
  have hordinal : (s.run calls).processor.rendered = (s.statuses calls).count .rendered := by
    rw [rendered_run, hnew.2, Nat.zero_add]
  have hdue (call : HostCall) : (s.run calls).Due call ↔
      (s.run calls).status? call = some .rendered ∧
        config.bargraphInterval ∣ (s.statuses calls).count .rendered + 1 := by
    rw [Due, hordinal, hrun.interval]
  exact {
    bounded := hrun.bounded
    due := fun call hstatus hturn => ⟨_, (hrun.act call).processor.reports,
      hrun.pending_of_due ((hdue call).mpr ⟨hstatus, hturn⟩)⟩
    idle := fun call hpoll hidle => congrArg Queue.items
      (readbacks_of_not_due hpoll fun hturn => hidle ((hdue call).mp hturn))
    polled := ⟨rfl, rfl⟩
    kept := Handle.newest_receive fun r hr => hrun.lt_of_mem_pending hr
    meters := fun r hr => by
      rw [hrun.table]
      exact (hrun.processor.lists.mem_iff _).mp (hrun.meters r hr)
    ordered := by simpa [hnew.1] using s.pending_queuedBy calls
    shown := fun hsilent => by
      rw [values_run s hsilent]
      have hplaces : ∀ r ∈ s.collectedBy calls, r.binding < s.handle.values.length :=
        fun r hr => hfresh.lt_of_mem_collectedBy hr
      obtain ⟨_, _, _, -, -, rfl⟩ := attach_eq_ok h
      exact Handle.newest_receive hplaces }

end Session

/-- A module with two meters: one counts the blocks, the other one tells that there was a block. -/
def tallyModule : CompiledModule :=
  ⟨⟨"tally", ⟨"tally"⟩, "", [], "", ⟨"tally", "", 8, 0, 1, [],
      [.bargraph .horizontal ⟨"blocks", "/tally/blocks", 0, .zero, .one, []⟩,
        .bargraph .horizontal ⟨"busy", "/tally/busy", 4, .zero, .one, []⟩]⟩,
    { init := fun _ _ => return ()
      clear := fun _ => return ()
      compute := fun region _ _ _ => do
        let blocks ← Access.loadSingle region
        Access.storeSingle region (blocks + .one)
        Access.storeSingle (region + 4) .one }, 0⟩, none⟩

/-- Every second block is read, and one reading and a half have room. -/
def tallyConfig : EngineConfig :=
  { blockLength := 1, bargraphInterval := 2, pageSize := 64, readbackCapacity := 3 }

/-- Four blocks are rendered, and one is skipped between them. -/
def tallyCalls : List HostCall :=
  let block := HostCall.process [] [[.zero]] []
  [block, .process [] [] [], block, block, block]

theorem hostedEffect?_tally : hostedEffect? tallyModule tallyConfig.voices = none := rfl

theorem sound_tally (scope : Scope) (d : ModuleMetadata)
    (hd : tallyModule.describedBy tallyConfig.voices scope = some d) : d.Sound := by
  cases scope with
  | voice =>
    obtain rfl := Option.some.inj hd
    exact ModuleMetadata.check?_eq_none_iff.mp (by decide)
  | effect =>
    rw [CompiledModule.describedBy, hostedEffect?_tally] at hd
    cases hd

theorem shaped_tally {s : Session} (h : (attach tallyModule tallyConfig).value = .ok s) :
    s.processor.Shaped := by
  obtain ⟨_, plan, arena, -, -, rfl⟩ := attach_eq_ok h
  refine ⟨⟨fun _ _ => .pure (), fun region _ _ _ => ?_⟩, fun k hk => ?_, fun _ => .pure ()⟩
  · exact .bind (.loadSingle _) fun _ => .bind (Access.WritesIn.storeSingle _ _).shape fun _ =>
      (Access.WritesIn.storeSingle _ _).shape
  · change (hostedEffect? tallyModule tallyConfig.voices).map (·.kernel) = some k at hk
    rw [hostedEffect?_tally] at hk
    cases hk

/-- The second reading is cut after its first meter, so the handle sees the fourth block. -/
theorem readsBack_of_attach_tally : ∃ s, (attach tallyModule tallyConfig).value = .ok s ∧
    (∀ scope d, tallyModule.describedBy tallyConfig.voices scope = some d → d.Sound) ∧
      s.processor.Shaped ∧ s.ReadsBack tallyConfig tallyCalls ∧
        (s.run tallyCalls).pending = [⟨0, .ofNat 2⟩, ⟨1, .one⟩, ⟨0, .ofNat 4⟩] ∧
          (s.run tallyCalls).poll.2.handle.values = [.ofNat 4, .one] := by
  have hrun : ((attach tallyModule tallyConfig).value.toOption.map fun s =>
      ((s.run tallyCalls).pending, (s.run tallyCalls).poll.2.handle.values)) =
        some ([⟨0, .ofNat 2⟩, ⟨1, .one⟩, ⟨0, .ofNat 4⟩], [.ofNat 4, .one]) := by decide +kernel
  obtain ⟨s, hs, hvalues⟩ := Option.map_eq_some_iff.mp hrun
  have hattach := Except.toOption_eq_some_iff.mp hs
  obtain ⟨hpending, hshown⟩ := Prod.mk.inj hvalues
  have hshaped := shaped_tally hattach
  exact ⟨s, hattach, sound_tally, hshaped,
    Session.readsBack_of_attach hattach sound_tally hshaped tallyCalls, hpending, hshown⟩

end DspHost
