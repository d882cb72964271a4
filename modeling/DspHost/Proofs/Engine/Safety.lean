import DspHost.Proofs.Engine.Delivery

/-!
# Code that keeps the contract never faults

A processor whose module code minds its fields goes on until it is torn down: no command and no
block makes it fault, whatever the host's buffers and its automation are, and in every arena that a
run comes to the pointer tables point where they were pointed at first.

The invariant of a run is that the processor can go on, and that it has stopped for no other reason
than a teardown that was taken from the queue.

## Main definitions

* `Arena.Reaches`, `MemoryPlan.Pointed` — words that hold the addresses of their buffers
* `Processor.Safe` — the invariant of a run

## Main results

* `MemoryPlan.Hosts.pointed` — in a hosted arena every channel has its word and its buffer
* `Processor.Safe.drainList`, `Processor.Safe.process` — commands and blocks do not fault
* `Session.safe_of_attach` — no run of a new processor faults
-/

namespace DspHost

/-! ### Words and buffers -/

/-- There are a word and a buffer, and the word holds the address of the buffer. -/
def Arena.Reaches (a : Arena) (slot : Option ℕ) (buffer : Option SampleBuffer) : Prop :=
  ∃ address target, slot = some address ∧ buffer = some target ∧
    a.loadPointer address = .ok target.offset

namespace MemoryPlan

variable {p : MemoryPlan} {a : Arena}

/-- Every channel has a word in each table of its side that holds the address of its buffer. -/
structure Pointed (p : MemoryPlan) (a : Arena) : Prop where
  input : ∀ c < p.inputs, a.Reaches (p.inputTable.slot? c) (p.inputBuffer? c)
  output : ∀ c < p.outputs, a.Reaches (p.outputTable.slot? c) (p.outputBuffer? c)
  mixing : ∀ m, p.mixing = some m → ∀ c < p.outputs,
    a.Reaches (m.table.slot? c) (p.mixingBuffer? c)

/-- Where there are words and buffers for every channel, what points also reaches. -/
theorem reaches_of_serves {kind kind' : RegionKind} {t : PointerTable}
    {buffer? : ℕ → Option SampleBuffer} {count : ℕ} (hslots : p.Serves count (slotPart kind t))
    (hbuffers : p.Serves count fun c => (buffer? c).map (bufferPart kind'))
    (hpoints : ∀ c, a.Points (t.slot? c) (buffer? c)) {c : ℕ} (hc : c < count) :
    a.Reaches (t.slot? c) (buffer? c) := by
  obtain ⟨_, hslot, -⟩ := hslots.answers c hc
  obtain ⟨_, hbuffer, -⟩ := hbuffers.answers c hc
  obtain ⟨address, haddress, -⟩ := Option.map_eq_some_iff.mp hslot
  obtain ⟨target, htarget, -⟩ := Option.map_eq_some_iff.mp hbuffer
  exact ⟨address, target, haddress, htarget, hpoints c address target haddress htarget⟩

/-- In a hosted arena every channel has its word and its buffer. -/
theorem Hosts.pointed (h : p.Hosts a) (hwell : p.WellFormed) : p.Pointed a := by
  refine ⟨fun c hc => ?_, fun c hc => ?_, fun m hm c hc => ?_⟩
  · have hslots := serves_slots p.inputTable_mem (by rw [hwell.inputTable])
    exact reaches_of_serves hslots (serves_buffers p.inputSamples_mem) h.input hc
  · have hslots := serves_slots p.outputTable_mem (by rw [hwell.outputTable])
    exact reaches_of_serves hslots (serves_buffers p.outputSamples_mem) h.output hc
  · have hslots := serves_slots (mixingTable_mem hm) (by rw [hwell.mixingTable m hm])
    have hbuffers :
        p.Serves p.outputs fun c => (p.mixingBuffer? c).map (bufferPart .mixingSamples) := by
      simpa only [mixingBuffer?, hm, Option.bind_some] using serves_buffers (mixingSamples_mem hm)
    have hpoints := h.mixing
    simp only [hm, Option.bind_some] at hpoints
    exact reaches_of_serves hslots hbuffers hpoints hc

end MemoryPlan

/-! ### Commands and blocks -/

namespace Processor

variable {p : Processor} {r : Router} {rate : ℕ} {fields : Scope → List (ℕ × Single)}
  {taken : List Command}

/-- A processor that can go on, and that nothing but a teardown among the taken commands has
stopped. -/
structure Safe (p : Processor) (r : Router) (rate : ℕ) (fields : Scope → List (ℕ × Single))
    (taken : List Command) : Prop where
  ready : p.Ready rate fields
  router : p.router = r
  halt : p.halt = none ∨ p.halt = some .destroyed ∧ .destroy ∈ taken

theorem Safe.halt_ne (h : p.Safe r rate fields taken) (fault : Fault) :
    p.halt ≠ some (.faulted fault) := by
  rcases h.halt with hhalt | ⟨hhalt, -⟩ <;> simp [hhalt]

/-- Applying pending commands stops at a teardown only. -/
theorem Safe.drainList (h : p.Safe r rate fields taken) (hrunning : p.halt = none)
    (commands : List Command) :
    (p.drainList commands).1.Safe r rate fields (taken ++ p.takenList commands) := by
  induction commands generalizing p taken with
  | nil =>
    rw [takenList, List.append_nil]
    exact h
  | cons command rest ih =>
    by_cases hdestroy : command = .destroy
    · subst hdestroy
      refine ⟨h.ready.withStatus _ _ _, h.router, .inr ⟨rfl, ?_⟩⟩
      exact List.mem_append_right taken List.mem_cons_self
    · obtain ⟨p', happly, hready, hrouter, -⟩ := h.ready.apply command
      have hhalt := p.halt_apply hdestroy
      rw [happly, hrunning] at hhalt
      -- A processor that can go on does not fault, so only a teardown could have stopped it.
      have hnext : p'.Safe r rate fields (taken ++ [command]) :=
        ⟨hready, hrouter.trans h.router, .inl hhalt⟩
      rw [drainList_cons happly hdestroy, takenList_cons happly hdestroy, List.append_cons]
      exact ih hnext hhalt

/-- A block that comes after the commands does not fault, and does not stop the processor. -/
theorem Ready.processDrained_halt (h : p.Ready rate fields)
    (hhalt : ∀ fault, p.halt ≠ some (.faulted fault)) (inputs outputs : HostBlock)
    (automation : List Automation) :
    (∀ fault, (p.processDrained inputs outputs automation).1 ≠ .faulted fault) ∧
      (p.processDrained inputs outputs automation).2.2.halt = p.halt := by
  unfold Processor.processDrained
  split
  · next fault hfaulted => exact (hhalt fault hfaulted).elim
  · next htorn => exact ⟨fun fault => BlockStatus.noConfusion, rfl⟩
  · split
    · obtain ⟨arena, hrender, -⟩ := h.renderBlock_eq inputs outputs automation
      obtain ⟨rendered, readbacks, hcount, -⟩ := (p.withArena arena).countBlock_cases
      rw [hrender, hcount]
      exact ⟨fun fault => BlockStatus.noConfusion, rfl⟩
    · exact ⟨fun fault => BlockStatus.noConfusion, rfl⟩

theorem status_of_running (hrunning : ¬p.isStopped = true) (commands : Queue Command)
    (inputs outputs : HostBlock) (automation : List Automation) :
    (p.process commands inputs outputs automation).1 =
      ((p.drainList commands.items).1.processDrained inputs outputs automation).1 := by
  unfold Processor.process
  rw [if_neg hrunning]
  rfl

/-- Processing a block does not fault. -/
theorem Safe.process (h : p.Safe r rate fields taken) (commands : Queue Command)
    (inputs outputs : HostBlock) (automation : List Automation) :
    (∀ fault, (p.process commands inputs outputs automation).1 ≠ .faulted fault) ∧
      (p.process commands inputs outputs automation).2.2.1.Safe r rate fields
        (taken ++ p.taken commands) := by
  by_cases hstopped : p.isStopped = true
  · rw [process_of_isStopped hstopped, Processor.taken, if_pos hstopped, List.append_nil]
    exact ⟨fun fault => BlockStatus.noConfusion, h⟩
  · have hrunning : p.halt = none := by simpa [isStopped] using hstopped
    have hdrained := h.drainList hrunning commands.items
    obtain ⟨hstatus, hhalt⟩ :=
      hdrained.ready.processDrained_halt hdrained.halt_ne inputs outputs automation
    obtain ⟨p', hblock, hready, hrouter, -⟩ :=
      hdrained.ready.processDrained inputs outputs automation
    rw [status_of_running hstopped, process_of_running hstopped, Processor.taken,
      if_neg hstopped]
    rw [hblock] at hhalt ⊢
    exact ⟨hstatus, hready, hrouter.trans hdrained.router, hhalt ▸ hdrained.halt⟩

end Processor

/-! ### Runs -/

namespace Session

variable {m : CompiledModule} {config : EngineConfig} {s : Session} {r : Router} {rate : ℕ}
  {fields : Scope → List (ℕ × Single)} {taken : List Command}

theorem safe_act (h : s.processor.Safe r rate fields taken) (call : HostCall) :
    (s.act call).processor.Safe r rate fields (taken ++ s.taken call) := by
  cases call with
  | process inputs outputs automation =>
    exact (h.process s.handle.commands inputs outputs automation).2
  | poll =>
    simp only [Session.taken, List.append_nil]
    exact ⟨h.ready.withStatus _ _ _, h.router, h.halt⟩
  | _ =>
    simp only [Session.taken, List.append_nil]
    exact h

theorem safe_run (h : s.processor.Safe r rate fields taken) (calls : List HostCall) :
    (s.run calls).processor.Safe r rate fields (taken ++ s.takenBy calls) := by
  induction calls generalizing s taken with
  | nil =>
    rw [takenBy, List.append_nil]
    exact h
  | cons call rest ih =>
    rw [takenBy, ← List.append_assoc]
    exact ih (safe_act h call)

/-- No run of a new processor faults if its code minds its fields. -/
theorem safe_of_attach (h : (attach m config).value = .ok s)
    (hminds : s.processor.Minds config.sampleRate fields) (calls : List HostCall) :
    (s.run calls).processor.Safe s.processor.router config.sampleRate fields
      (s.takenBy calls) := by
  obtain ⟨hready, -⟩ := ready_of_attach h hminds
  obtain ⟨width, plan, arena, -, -, rfl⟩ := attach_eq_ok h
  have hfresh : (connect m config plan arena).processor.Safe _ config.sampleRate fields [] :=
    ⟨hready, rfl, .inl rfl⟩
  exact safe_run hfresh calls

end Session

end DspHost
