import DspHost.Control.Queue
import DspHost.Control.Router
import DspHost.Module
import DspHost.Voices

/-!
# The audio end

A processor owns an arena and everything that changes while blocks are rendered. What it does is
spread over the modules beside this one: applying commands, rendering, and processing whole blocks.

## Main definitions

* `Halt` — why a processor does not render any more
* `Processor` — the audio end
* `Processor.parameter?` — the value of a control as the module sees it
-/

namespace DspHost

/-- Why a processor does not render any more. -/
inductive Halt where
  /-- It was torn down. -/
  | destroyed
  /-- Module code reached outside the arena. -/
  | faulted (fault : Fault)
  deriving DecidableEq, Repr

/-- The audio end: one module, hosted in an arena. -/
structure Processor where
  /-- Where everything in the arena lies. -/
  plan : MemoryPlan
  /-- The controls. -/
  table : ParameterTable
  /-- The code of the module. -/
  kernel : Kernel
  /-- The code of the effect, if it is hosted. -/
  effect : Option Kernel
  /-- The memory. -/
  arena : Arena
  /-- The voices, if there are any. -/
  voices : Option VoiceTable
  /-- Why it stopped, if it did. -/
  halt : Option Halt
  /-- Meters are read back every this many rendered blocks. -/
  interval : Nat
  /-- How many blocks were rendered. -/
  rendered : Nat
  /-- Readbacks that the control end has not taken. -/
  readbacks : Queue Readback

namespace Processor

/-- The router to the instances. -/
def router (p : Processor) : Router := ⟨p.plan, p.table⟩

/-- The processor with a changed arena. -/
def mapArena (p : Processor) (change : Arena → Arena) : Processor :=
  { p with arena := change p.arena }

/-- The processor with another arena. -/
def withArena (p : Processor) (arena : Arena) : Processor := { p with arena }

/-- Whether the processor has stopped for good. -/
def isStopped (p : Processor) : Bool := p.halt.isSome

/-- Whether an effect is hosted. -/
def hasEffect (p : Processor) : Bool := p.effect.isSome

/-- What every voice is doing; empty without voices. -/
def voiceStates (p : Processor) : List VoiceState :=
  match p.voices with
  | some voices => voices.states
  | none => []

/-- The value of a control in the arena. -/
def parameter? (p : Processor) (path : String) : Option Single :=
  (p.table.lookup? path).bind (p.router.read? p.arena)

end Processor

end DspHost
