import DspHost.Proofs.Engine.Delivery

/-!
# What the outcome of a block tells

The outcome of a block says what became of everything else. Buffers of the host are written if the
block was rendered, and then the channels of the module are, as far as the block goes. A block that
is skipped leaves both ends as taking the pending commands left them. Rendered blocks are counted
and no others. After a fault or a teardown the processor has stopped, and a processor that has
stopped changes nothing whatever it is asked to process. None of this depends on the code of the
module, or on how the processor came about.

## Main definitions

* `MemoryPlan.Delivers` — the host's buffers with a block copied out of the arena
* `Processor.BlockOutcome` — what a block can come to after commands were applied
* `Session.drained` — both ends after pending commands were taken
* `Session.Tells` — what an outcome tells about both ends and the host's buffers
* `Session.statuses` — the outcomes of all blocks of a run

## Main results

* `Processor.outcome_processDrained` — there is nothing else that a block can come to
* `Processor.exists_drainList_eq` — taking commands keeps everything but arena, voices and halt
* `Processor.halt_drainList_of_mem` — a teardown that is taken stops the processor
* `Session.rendered_run` — rendered blocks are counted, and no others
* `Session.statuses_tell` — every outcome tells the whole story of its block
-/

namespace DspHost

/-! ### Buffers of the host -/

/-- A block was copied from the arena to the host: the channels of the plan hold the samples of
their buffers, and everything after the block and all other channels are as before. -/
structure MemoryPlan.Delivers (p : MemoryPlan) (a : Arena) (outputs outputs' : HostBlock) :
    Prop where
  length_eq : outputs'.length = outputs.length
  room : ∀ channel < p.outputs, ∃ output, outputs[channel]? = some output ∧
    p.blockLength ≤ output.length
  fresh : ∀ channel b output, p.outputBuffer? channel = some b →
    outputs[channel]? = some output → outputs'[channel]? = some
      ((List.range p.blockLength).map (fun i => a.sample (b.offset + 4 * i)) ++
        output.drop p.blockLength)
  kept : ∀ channel, p.outputs ≤ channel → outputs'[channel]? = outputs[channel]?

namespace Processor

variable {p : Processor} {inputs outputs : HostBlock} {automation : List Automation}

theorem getElem?_readOutputs (buffers : List SampleBuffer) (a : Arena) (outputs : HostBlock)
    (channel : ℕ) :
    (readOutputs buffers a outputs)[channel]? =
      match buffers[channel]? with
      | some buffer => outputs[channel]?.map (a.readSamples buffer)
      | none => outputs[channel]? := by
  induction outputs generalizing buffers channel with
  | nil => cases buffers[channel]? <;> simp [readOutputs]
  | cons output rest ih =>
    cases buffers with
    | nil => simp [readOutputs]
    | cons buffer buffers =>
      cases channel with
      | zero => simp [readOutputs]
      | succ channel => simpa [readOutputs] using ih buffers channel

theorem length_readOutputs (buffers : List SampleBuffer) (a : Arena) (outputs : HostBlock) :
    (readOutputs buffers a outputs).length = outputs.length := by
  induction outputs generalizing buffers with
  | nil => simp [readOutputs]
  | cons output rest ih =>
    cases buffers with
    | nil => rfl
    | cons buffer buffers => simp [readOutputs, ih]

/-- Buffers that suffice receive the whole block. -/
theorem delivers_readOutputs {plan : MemoryPlan}
    (hcovers : outputs.covers plan.outputs plan.blockLength = true) (a : Arena) :
    plan.Delivers a outputs (readOutputs plan.outputBuffers a outputs) := by
  obtain ⟨hchannels, hframes⟩ := HostBlock.covers_iff.mp hcovers
  have hroom {channel : ℕ} {output : List Single} (hlt : channel < plan.outputs)
      (houtput : outputs[channel]? = some output) : plan.blockLength ≤ output.length := by
    refine hframes output (List.mem_of_getElem? (i := channel) ?_)
    rw [List.getElem?_take_of_lt hlt, houtput]
  refine ⟨length_readOutputs _ a outputs, fun channel hlt => ?_,
    fun channel b output hb houtput => ?_, fun channel hle => ?_⟩
  · have hinside : channel < outputs.length := hlt.trans_le hchannels
    have houtput : outputs[channel]? = some outputs[channel] := List.getElem?_eq_getElem hinside
    exact ⟨_, houtput, hroom hlt houtput⟩
  · have hlong := hroom (MemoryPlan.lt_of_buffer? hb) houtput
    have hcount : min b.frames output.length = plan.blockLength := by
      rw [MemoryPlan.frames_of_buffer? hb, min_eq_left hlong]
    rw [getElem?_readOutputs, MemoryPlan.getElem?_outputBuffers, hb, houtput]
    simp only [Option.map_some, Arena.readSamples, hcount]
  · have hnone : plan.outputBuffer? channel = none := if_neg (Nat.not_lt.mpr hle)
    rw [getElem?_readOutputs, MemoryPlan.getElem?_outputBuffers, hnone]

/-! ### What a block can come to -/

theorem isStopped_of_halt {cause : Halt} (h : p.halt = some cause) : p.isStopped = true := by
  rw [isStopped, h, Option.isSome_some]

/-- What a block can come to after commands were applied: its outcome, the host's buffers and the
processor. -/
inductive BlockOutcome (p : Processor) (outputs : HostBlock) :
    BlockStatus × HostBlock × Processor → Prop where
  /-- A command has faulted. -/
  | halted (fault : Fault) (h : p.halt = some (.faulted fault)) :
    BlockOutcome p outputs (.faulted fault, outputs, p)
  /-- A teardown was taken. -/
  | torn (h : p.halt = some .destroyed) : BlockOutcome p outputs (.stopped, outputs, p)
  /-- Buffers of the host do not suffice. -/
  | skipped (h : p.halt = none) : BlockOutcome p outputs (.skipped, outputs, p)
  /-- Code has faulted. -/
  | faulted (arena : Arena) (fault : Fault) :
    BlockOutcome p outputs (.faulted fault, outputs, (p.withArena arena).stopAt fault)
  /-- The block was rendered. -/
  | rendered (arena : Arena) (h : p.halt = none)
    (hcovers : outputs.covers p.plan.outputs p.plan.blockLength = true) :
    BlockOutcome p outputs (.rendered, readOutputs p.plan.outputBuffers arena outputs,
      (p.withArena arena).countBlock)

/-- There is nothing else that a block can come to. -/
theorem outcome_processDrained (p : Processor) (inputs outputs : HostBlock)
    (automation : List Automation) :
    p.BlockOutcome outputs (p.processDrained inputs outputs automation) := by
  unfold processDrained
  split
  · next fault hfaulted => exact .halted fault hfaulted
  · next htorn => exact .torn htorn
  · next hrunning =>
    split
    · next hfits =>
      have hcovers := (Bool.and_eq_true_iff.mp hfits).2
      unfold renderBlock
      dsimp only
      split
      · next fault arena _ => exact .faulted arena fault
      · next arena _ => exact .rendered arena hrunning hcovers
    · exact .skipped hrunning

theorem rendered_countBlock (p : Processor) : p.countBlock.rendered = p.rendered + 1 := by
  unfold countBlock
  dsimp only
  split <;> rfl

theorem arena_countBlock (p : Processor) : p.countBlock.arena = p.arena := by
  obtain ⟨_, _, hcount, -⟩ := p.countBlock_cases
  rw [hcount]

/-! ### Commands that were taken -/

/-- Taking commands keeps everything but the arena, the voices and what the processor was stopped
by. -/
theorem exists_drainList_eq (p : Processor) (commands : List Command) :
    ∃ arena voices halt, (p.drainList commands).1 = { p with arena, voices, halt } := by
  induction commands generalizing p with
  | nil => exact ⟨p.arena, p.voices, p.halt, rfl⟩
  | cons command rest ih =>
    by_cases hdestroy : command = .destroy
    · subst hdestroy
      exact ⟨p.arena, p.voices, some .destroyed, rfl⟩
    · obtain ⟨arena, voices, hframe⟩ := p.exists_apply_eq hdestroy
      rcases happly : p.apply command with ⟨fault | _, p'⟩
      · rw [happly] at hframe
        obtain rfl : p' = { p with arena, voices } := hframe
        rw [drainList_cons_of_fault happly]
        exact ⟨arena, voices, some (.faulted fault), rfl⟩
      · rw [happly] at hframe
        obtain rfl : p' = { p with arena, voices } := hframe
        rw [drainList_cons happly hdestroy]
        exact ih _

/-- A teardown that is taken stops the processor. -/
theorem halt_drainList_of_mem {commands : List Command}
    (h : .destroy ∈ p.takenList commands) : (p.drainList commands).1.halt = some .destroyed := by
  induction commands generalizing p with
  | nil => cases h
  | cons command rest ih =>
    by_cases hdestroy : command = .destroy
    · subst hdestroy
      rfl
    · rcases happly : p.apply command with ⟨fault | _, p'⟩
      · rw [takenList_cons_of_fault happly, List.mem_singleton] at h
        exact (hdestroy h.symm).elim
      · rw [takenList_cons happly hdestroy] at h
        rw [drainList_cons happly hdestroy]
        exact ih ((List.mem_cons.mp h).resolve_left (Ne.symm hdestroy))

end Processor

/-! ### Both ends -/

namespace Session

variable {s : Session} {inputs outputs : HostBlock} {automation : List Automation}

/-- Both ends after pending commands were taken. -/
def drained (s : Session) : Session :=
  ⟨(s.processor.drain s.handle.commands).1,
    { s.handle with commands := (s.processor.drain s.handle.commands).2 }⟩

/-- A running processor takes pending commands, and then it looks at the block. -/
theorem process_eq_of_running (hrunning : ¬s.processor.isStopped = true)
    (inputs outputs : HostBlock) (automation : List Automation) :
    s.process inputs outputs automation =
      ((s.drained.processor.processDrained inputs outputs automation).1,
        (s.drained.processor.processDrained inputs outputs automation).2.1,
        ⟨(s.drained.processor.processDrained inputs outputs automation).2.2, s.drained.handle⟩) := by
  unfold process Processor.process
  rw [if_neg hrunning]
  rfl

/-- A running processor takes pending commands, and then a block comes to something. -/
theorem process_of_running (hrunning : ¬s.processor.isStopped = true) (inputs outputs : HostBlock)
    (automation : List Automation) :
    ∃ result, s.drained.processor.BlockOutcome outputs result ∧
      s.process inputs outputs automation =
        (result.1, result.2.1, ⟨result.2.2, s.drained.handle⟩) :=
  ⟨_, s.drained.processor.outcome_processDrained inputs outputs automation,
    process_eq_of_running hrunning inputs outputs automation⟩

/-- What the outcome of a block tells about both ends and the host's buffers. -/
structure Tells (s : Session) (outputs : HostBlock) (status : BlockStatus) (outputs' : HostBlock)
    (s' : Session) : Prop where
  /-- Buffers of the host change only if the block was rendered. -/
  untouched : status ≠ .rendered → outputs' = outputs
  /-- Then they hold the block. -/
  delivered : status = .rendered →
    s.processor.plan.Delivers s'.processor.arena outputs outputs'
  /-- A block that is skipped leaves what the pending commands left. -/
  skipped : status = .skipped → s' = s.drained
  /-- A block that is rendered is counted. -/
  counted : s'.processor.rendered = s.processor.rendered + if status = .rendered then 1 else 0
  /-- After a fault or a teardown nothing changes any more. -/
  final : (∃ fault, status = .faulted fault) ∨
      .destroy ∈ s.processor.taken s.handle.commands →
    ∀ calls inputs outputs automation,
      (s'.run calls).process inputs outputs automation = (.stopped, outputs, s'.run calls)

/-- A processor that has stopped changes nothing. -/
theorem process_of_isStopped (h : s.processor.isStopped = true) (inputs outputs : HostBlock)
    (automation : List Automation) :
    s.process inputs outputs automation = (.stopped, outputs, s) := by
  unfold process
  rw [Processor.process_of_isStopped h]

theorem isStopped_run (h : s.processor.isStopped = true) (calls : List HostCall) :
    (s.run calls).processor.isStopped = true :=
  run_induction (fun s => s.processor.isStopped = true)
    (fun _ call _ hstopped => isStopped_act hstopped call) h

theorem process_run_of_isStopped (h : s.processor.isStopped = true) (calls : List HostCall)
    (inputs outputs : HostBlock) (automation : List Automation) :
    (s.run calls).process inputs outputs automation = (.stopped, outputs, s.run calls) :=
  process_of_isStopped (isStopped_run h calls) inputs outputs automation

theorem drained_processor (s : Session) :
    s.drained.processor = (s.processor.drainList s.handle.commands.items).1 := rfl

/-- Taking commands keeps the plan and the number of rendered blocks. -/
theorem drained_frame (s : Session) : s.drained.processor.plan = s.processor.plan ∧
    s.drained.processor.rendered = s.processor.rendered := by
  obtain ⟨_, _, _, hdrained⟩ := s.processor.exists_drainList_eq s.handle.commands.items
  rw [drained_processor, hdrained]
  exact ⟨rfl, rfl⟩

/-- A teardown that a block takes stops the processor before the block is looked at. -/
theorem halt_drained_of_mem (h : .destroy ∈ s.processor.taken s.handle.commands) :
    s.drained.processor.halt = some .destroyed := by
  unfold Processor.taken at h
  split_ifs at h
  · cases h
  · exact Processor.halt_drainList_of_mem h

/-- A block that runs to its end has not taken a teardown. -/
theorem not_mem_taken_of_halt (h : s.drained.processor.halt = none) :
    .destroy ∉ s.processor.taken s.handle.commands := by
  intro hdestroy
  rw [halt_drained_of_mem hdestroy] at h
  cases h

theorem tells_process (s : Session) (inputs outputs : HostBlock) (automation : List Automation) :
    s.Tells outputs (s.process inputs outputs automation).1
      (s.process inputs outputs automation).2.1 (s.process inputs outputs automation).2.2 := by
  by_cases hstopped : s.processor.isStopped = true
  · rw [process_of_isStopped hstopped]
    exact ⟨fun _ => rfl, BlockStatus.noConfusion, BlockStatus.noConfusion, rfl,
      fun _ => process_run_of_isStopped hstopped⟩
  · obtain ⟨⟨status, outputs', p'⟩, houtcome, hprocess⟩ :=
      process_of_running hstopped inputs outputs automation
    obtain ⟨hplan, hcount⟩ := s.drained_frame
    rw [hprocess]
    cases houtcome with
    | halted fault hhalt =>
      exact ⟨fun _ => rfl, BlockStatus.noConfusion, BlockStatus.noConfusion, hcount,
        fun _ => process_run_of_isStopped (Processor.isStopped_of_halt hhalt)⟩
    | torn hhalt =>
      exact ⟨fun _ => rfl, BlockStatus.noConfusion, BlockStatus.noConfusion, hcount,
        fun _ => process_run_of_isStopped (Processor.isStopped_of_halt hhalt)⟩
    | skipped hhalt =>
      refine ⟨fun _ => rfl, BlockStatus.noConfusion, fun _ => rfl, hcount, ?_⟩
      rintro (⟨fault, hfault⟩ | hdestroy)
      · cases hfault
      · exact (not_mem_taken_of_halt hhalt hdestroy).elim
    | faulted arena fault =>
      exact ⟨fun _ => rfl, BlockStatus.noConfusion, BlockStatus.noConfusion, hcount,
        fun _ => process_run_of_isStopped rfl⟩
    | rendered arena hhalt hcovers =>
      refine ⟨fun hne => (hne rfl).elim, fun _ => ?_, BlockStatus.noConfusion, ?_, ?_⟩
      · rw [← hplan]
        dsimp only
        rw [Processor.arena_countBlock]
        exact Processor.delivers_readOutputs hcovers arena
      · dsimp only
        rw [Processor.rendered_countBlock, if_pos rfl, ← hcount]
        rfl
      · rintro (⟨fault, hfault⟩ | hdestroy)
        · cases hfault
        · exact (not_mem_taken_of_halt hhalt hdestroy).elim

/-! ### Runs -/

/-- The outcome of a call, if it processes a block. -/
def status? (s : Session) : HostCall → Option BlockStatus
  | .process inputs outputs automation => some (s.process inputs outputs automation).1
  | _ => none

/-- The outcomes of the blocks of a run, one call after the other. -/
def statuses (s : Session) : List HostCall → List BlockStatus
  | [] => []
  | call :: rest => (s.status? call).toList ++ (s.act call).statuses rest

theorem rendered_act (s : Session) (call : HostCall) :
    (s.act call).processor.rendered =
      s.processor.rendered + (s.status? call).toList.count .rendered := by
  cases call with
  | process inputs outputs automation =>
    refine (s.tells_process inputs outputs automation).counted.trans ?_
    rw [status?, Option.toList_some, List.count_singleton]
    simp only [beq_iff_eq]
  | _ => rfl

/-- Rendered blocks are counted, and no others. -/
theorem rendered_run (s : Session) (calls : List HostCall) :
    (s.run calls).processor.rendered =
      s.processor.rendered + (s.statuses calls).count .rendered := by
  induction calls generalizing s with
  | nil => rfl
  | cons call rest ih =>
    calc ((s.act call).run rest).processor.rendered
      _ = (s.act call).processor.rendered + ((s.act call).statuses rest).count .rendered := ih _
      _ = s.processor.rendered + (s.statuses (call :: rest)).count .rendered := by
        rw [rendered_act, statuses, List.count_append, Nat.add_assoc]

/-- Whatever state both ends are in, the outcome of a block tells its whole story, and the rendered
blocks of a run are counted on from there. The count starts at zero. -/
theorem statuses_tell (s : Session) :
    (∀ inputs outputs automation, s.Tells outputs (s.process inputs outputs automation).1
      (s.process inputs outputs automation).2.1 (s.process inputs outputs automation).2.2) ∧
    (∀ calls, (s.run calls).processor.rendered =
      s.processor.rendered + (s.statuses calls).count .rendered) ∧
    ∀ m config, (attach m config).value = .ok s → s.processor.rendered = 0 := by
  refine ⟨s.tells_process, s.rendered_run, fun m config hattach => ?_⟩
  obtain ⟨_, _, _, -, -, rfl⟩ := attach_eq_ok hattach
  rfl

/-- The organ with eight voices: a teardown is pending, so the block is not rendered, and no later
block is. -/
theorem statuses_tell_torn : ∃ s, (attach organModule organConfig).value = .ok s ∧
    s.processor.rendered = 0 ∧
      (s.act (.send .destroy)).Tells [] ((s.act (.send .destroy)).process [] [] []).1
        ((s.act (.send .destroy)).process [] [] []).2.1
        ((s.act (.send .destroy)).process [] [] []).2.2 ∧
      .destroy ∈ (s.act (.send .destroy)).taken (.process [] [] []) := by
  obtain ⟨plan, arena, hattach, -⟩ := attach_organ
  refine ⟨_, hattach, (statuses_tell _).2.2 _ _ hattach, (statuses_tell _).1 [] [] [], ?_⟩
  exact List.mem_singleton_self _

end Session

end DspHost
