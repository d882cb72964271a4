import DspHost.Engine.Processor

/-!
# Rendering

A single instance renders straight into the output samples. With voices the output samples begin at
zero; every voice renders into the mixing samples, which are added to them, one voice after the
other; at last the effect runs on the output samples in place.

## Main definitions

* `Processor.mixVoice`, `Processor.mixVoices` — the voices, added up
* `Processor.renderCode` — a whole block
-/

namespace DspHost.Processor

/-- Adds the mixing samples of every channel to its output samples. -/
def addMixed (plan : MemoryPlan) (a : Arena) : Arena :=
  plan.mixPairs.foldl (fun a pair => a.accumulate pair.1 pair.2) a

/-- Zeroes a sample buffer. -/
def clearBuffer (b : SampleBuffer) : Access Unit := Access.zero b.offset b.byteLength

/-- Renders one voice and adds it to the output samples. -/
def mixVoice (p : Processor) (mixing : MixingArea) (region : InstanceRegion) : Access Unit := do
  p.kernel.compute region.offset p.plan.blockLength p.plan.inputTable.offset mixing.table.offset
  Access.change (addMixed p.plan)

/-- Renders voices one after the other. -/
def mixVoices (p : Processor) (mixing : MixingArea) (regions : List InstanceRegion) : Access Unit :=
  Access.forEach (p.mixVoice mixing) regions

/-- Runs the effect, if there is one, on the output samples. -/
def runEffect (p : Processor) : Access Unit :=
  match p.effect, p.plan.effect with
  | some effect, some region =>
    let outputs := p.plan.outputTable.offset
    effect.compute region.offset p.plan.blockLength outputs outputs
  | _, _ => return ()

/-- Renders one block from the input samples to the output samples. -/
def renderCode (p : Processor) : Access Unit :=
  match p.plan.mixing with
  | none =>
    p.kernel.compute p.plan.instances p.plan.blockLength p.plan.inputTable.offset
      p.plan.outputTable.offset
  | some mixing => do
    -- The output samples are where the voices are added up.
    Access.forEach clearBuffer p.plan.outputBuffers
    p.mixVoices mixing p.plan.voiceInstances
    p.runEffect

end DspHost.Processor
