import DspHost.Engine.Apply
import DspHost.Engine.HostBlock
import DspHost.Engine.Render

/-!
# Processing blocks

A block is processed in order: pending commands are applied, the host's inputs are copied into the
arena, the host's automation is applied, the block is rendered, meters are read back if it is their
turn, and the outputs are copied out. A block whose buffers do not suffice is skipped after the
commands were applied; then, and when the processor has stopped, nothing is written to the host's
buffers.

## Main definitions

* `BlockStatus` — the outcome of a block
* `Processor.process` — one block
-/

namespace DspHost

/-- The outcome of a block. -/
inductive BlockStatus where
  /-- The outputs hold a fresh block. -/
  | rendered
  /-- A channel was missing or too short. -/
  | skipped
  /-- The processor has stopped. -/
  | stopped
  /-- Module code reached outside the arena, and the processor has stopped now. -/
  | faulted (fault : Fault)
  deriving DecidableEq, Repr

/-- A value for the control with a path. -/
structure Automation where
  /-- The control path. -/
  path : String
  /-- The value. -/
  value : Single
  deriving DecidableEq, Repr

namespace Processor

/-- Copies buffers of the host into the buffers of the arena. -/
def writeInputs (buffers : List SampleBuffer) (inputs : HostBlock) (a : Arena) : Arena :=
  (buffers.zip inputs).foldl (fun a pair => a.writeSamples pair.1 pair.2) a

/-- The host's buffers with the buffers of the arena copied over them. -/
def readOutputs (buffers : List SampleBuffer) (a : Arena) : HostBlock → HostBlock
  | [] => []
  | output :: rest =>
    match buffers with
    | [] => output :: rest
    | buffer :: buffers => a.readSamples buffer output :: readOutputs buffers a rest

/-- Applies the host's automation. -/
def automate (p : Processor) (automation : List Automation) : Processor :=
  p.mapArena fun a => automation.foldl (fun a item => (p.router.setPath item.path item.value a).2) a

/-- The current values of all meters, in their order. -/
def meterReadbacks (p : Processor) : List Readback :=
  p.table.meters.filterMap fun id => (p.router.read? p.arena id).map (Readback.mk id)

/-- Counts a rendered block and reads meters back if it is their turn. -/
def countBlock (p : Processor) : Processor :=
  let p := { p with rendered := p.rendered + 1 }
  if p.rendered % p.interval = 0 then
    { p with readbacks := p.readbacks.pushAll p.meterReadbacks }
  else p

/-- Renders a block from buffers that suffice. -/
def renderBlock (p : Processor) (inputs outputs : HostBlock) (automation : List Automation) :
    BlockStatus × HostBlock × Processor :=
  let staged := (p.mapArena (writeInputs p.plan.inputBuffers inputs)).automate automation
  match staged.renderCode.run staged.arena with
  -- What was written before the fault stays written, and the host's buffers stay as they were.
  | (.error fault, arena) => (.faulted fault, outputs, (staged.withArena arena).stopAt fault)
  | (.ok (), arena) =>
    let counted := (staged.withArena arena).countBlock
    (.rendered, readOutputs p.plan.outputBuffers arena outputs, counted)

/-- Whether the host's buffers suffice for a block. -/
def fitsBlock (p : Processor) (inputs outputs : HostBlock) : Bool :=
  inputs.covers p.plan.inputs p.plan.blockLength && outputs.covers p.plan.outputs p.plan.blockLength

/-- What comes after pending commands were applied. -/
def processDrained (p : Processor) (inputs outputs : HostBlock) (automation : List Automation) :
    BlockStatus × HostBlock × Processor :=
  match p.halt with
  | some (.faulted fault) => (.faulted fault, outputs, p)
  | some .destroyed => (.stopped, outputs, p)
  | none =>
    if p.fitsBlock inputs outputs then p.renderBlock inputs outputs automation
    else (.skipped, outputs, p)

/-- Processes one block: the outcome, the host's output buffers, the processor, and the commands
that are still pending. -/
def process (p : Processor) (commands : Queue Command) (inputs outputs : HostBlock)
    (automation : List Automation) : BlockStatus × HostBlock × Processor × Queue Command :=
  if p.isStopped then (.stopped, outputs, p, commands)
  else
    -- Commands are applied before the buffers are looked at, and so even if the block is skipped.
    let (drained, rest) := p.drain commands
    let (status, outputs, after) := drained.processDrained inputs outputs automation
    (status, outputs, after, rest)

/-- A stopped processor changes nothing. -/
theorem process_of_isStopped {p : Processor} (stopped : p.isStopped = true)
    (commands : Queue Command) (inputs outputs : HostBlock) (automation : List Automation) :
    p.process commands inputs outputs automation = (.stopped, outputs, p, commands) := by
  simp [process, stopped]

end Processor

end DspHost
