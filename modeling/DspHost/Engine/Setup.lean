import DspHost.Config.Basic
import DspHost.Control.TableNotices
import DspHost.Engine.Session

/-!
# Setting up a processor

A module is attached in order: the configuration is checked, the arena is planned, every word of the
pointer tables is pointed at its samples, every instance is set up by the module's own code, and the
parameter table is built. The effect is hosted with voices only, and only if it reads and writes as
many channels as the module writes.

Allocation is taken to succeed: the arena of every plan and queues of every capacity are there when
they are asked for, and a `SetupError` is the only way to fail. Page sizes and capacities that pass
the checks, such as `2 ^ 62`, can be more than a machine has.

## Main definitions

* `SetupError` — why a module could not be attached
* `hostedEffect?` — the effect that is hosted
* `layoutFor` — what the planner is asked for
* `pointTables` — the words of the pointer tables
* `initInstances` — the instances
* `attach` — both ends of a new processor
-/

namespace DspHost

/-- Why a module could not be attached. -/
inductive SetupError where
  /-- The configuration is not accepted. -/
  | config (flaw : ConfigFlaw)
  /-- The arena could not be planned. -/
  | layout (error : LayoutError)
  /-- The arena could not be filled. -/
  | init (fault : Fault)
  deriving DecidableEq, Repr

/-- The message of a setup error. -/
def SetupError.message : SetupError → String
  | config flaw => flaw.fullMessage
  | layout error => s!"layout failed: {error.message}"
  | init fault => s!"module init faulted: {fault.message}"

/-! ### The effect -/

/-- Whether an effect reads and writes as many channels as its instrument writes. -/
def PlainModule.suits (effect : PlainModule) (outputs : Nat) : Bool :=
  effect.metadata.inputs == outputs && effect.metadata.outputs == outputs

/-- The effect of a module that would be hosted if it suits. -/
def candidateEffect? (m : CompiledModule) (voices : Nat) : Option PlainModule :=
  if (Polyphony.ofRequested voices).isPoly then m.effect else none

/-- The effect that is hosted. -/
def hostedEffect? (m : CompiledModule) (voices : Nat) : Option PlainModule :=
  (candidateEffect? m voices).filter (·.suits m.metadata.outputs)

/-- What there is to say about an effect that does not suit. -/
def effectNotices (m : CompiledModule) (voices : Nat) : List Notice :=
  match candidateEffect? m voices with
  | some effect =>
    if effect.suits m.metadata.outputs then []
    else [.unfitEffect effect.metadata.inputs effect.metadata.outputs m.metadata.outputs]
  | none => []

/-! ### The arena -/

/-- What the planner is asked for. -/
def layoutFor (m : ModuleMetadata) (effect : Option ModuleMetadata) (config : EngineConfig)
    (width : PointerWidth) : LayoutRequest where
  instanceSize := m.size
  inputs := m.inputs
  outputs := m.outputs
  voices := config.voices
  blockLength := config.blockLength
  pointerWidth := width
  effectSize := effect.map (·.size)
  pageSize := config.pageSize

/-- Points one word of a table at a buffer, where there are both. -/
def pointWord (slot : Option Nat) (buffer : Option SampleBuffer) : Access Unit :=
  match slot, buffer with
  | some address, some b => Access.storePointer address b.offset
  | _, _ => return ()

/-- Points the words of an output channel at its output and its mixing samples. -/
def pointOutput (plan : MemoryPlan) (channel : Nat) : Access Unit := do
  pointWord (plan.outputTable.slot? channel) (plan.outputBuffer? channel)
  pointWord (plan.mixing.bind (·.table.slot? channel)) (plan.mixingBuffer? channel)

/-- Points every word of the pointer tables at the samples of its channel. -/
def pointTables (plan : MemoryPlan) : Access Unit := do
  Access.forEach (fun c => pointWord (plan.inputTable.slot? c) (plan.inputBuffer? c))
    (List.range plan.inputs)
  Access.forEach (pointOutput plan) (List.range plan.outputs)

/-- Sets up every instance by its module's own code. -/
def initInstances (plan : MemoryPlan) (kernel : Kernel) (effect : Option Kernel)
    (sampleRate : Nat) : Access Unit := do
  Access.forEach (fun r => kernel.init r.offset sampleRate) plan.voiceInstances
  match effect, plan.effect with
  | some effect, some region => effect.init region.offset sampleRate
  | _, _ => return ()

/-- The code that fills a fresh arena. -/
def setupCode (plan : MemoryPlan) (kernel : Kernel) (effect : Option Kernel) (sampleRate : Nat) :
    Access Unit := do
  pointTables plan
  initInstances plan kernel effect sampleRate

/-! ### Both ends -/

/-- Plans the arena of a module and fills it. -/
def prepare (m : CompiledModule) (config : EngineConfig) :
    Except SetupError (MemoryPlan × Arena) := do
  config.validate.mapError .config
  let width ← config.width.mapError .config
  let effect := hostedEffect? m config.voices
  let plan ← (layoutFor m.metadata (effect.map (·.metadata)) config width).plan.mapError .layout
  let (outcome, arena) :=
    (setupCode plan m.kernel (effect.map (·.kernel)) config.sampleRate).run plan.arena
  outcome.mapError .init
  return (plan, arena)

/-- The parameter table of a hosted module. -/
def hostedTable (m : CompiledModule) (voices : Nat) : ParameterTable :=
  .build m.metadata ((hostedEffect? m voices).map (·.metadata))
    (Polyphony.ofRequested voices).isPoly

/-- Both ends of a processor whose arena is filled. -/
def connect (m : CompiledModule) (config : EngineConfig) (plan : MemoryPlan) (arena : Arena) :
    Session :=
  let table := hostedTable m config.voices
  { processor := {
      plan, table, arena
      kernel := m.kernel
      effect := (hostedEffect? m config.voices).map (·.kernel)
      voices := VoiceTable.ofPlan? plan
      halt := none
      interval := config.bargraphInterval
      rendered := 0
      readbacks := .empty config.readbackCapacity }
    handle := .create table config.queueCapacity config.eventLogCapacity }

/-- What there is to say about a new processor and its table. -/
def attachNotices (m : CompiledModule) (config : EngineConfig) (p : Processor) : List Notice :=
  ParameterTable.buildNotices m.metadata ((hostedEffect? m config.voices).map (·.metadata))
      (Polyphony.ofRequested config.voices).isPoly
    ++ [.attached m.name p.plan.polyphony.voices p.hasEffect p.table.size p.plan.arenaSize]

/-- Attaches a module: both ends of a new processor. -/
def attach (m : CompiledModule) (config : EngineConfig) :
    Noted (Except SetupError Session) := do
  -- An effect that does not suit is reported even if the module cannot be attached in the end.
  if config.check?.isNone then
    Noted.noteAll (effectNotices m config.voices)
  match prepare m config with
  | .error error => return .error error
  | .ok (plan, arena) =>
    let session := connect m config plan arena
    Noted.noteAll (attachNotices m config session.processor)
    return .ok session

end DspHost
