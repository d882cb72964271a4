import DspHost.Module
import DspHost.Programs.Frames

/-!
# A volume stage

## Main definitions

* `volumeKernel` — a number of channels times one control value
-/

namespace DspHost

/-- Multiplies the samples of one channel. -/
def volumeChannel (count inputs outputs : Nat) (volume : Single) (channel : Nat) : Access Unit := do
  let source ← Access.channel inputs channel
  let target ← Access.channel outputs channel
  scaleFrames count source target volume

/-- A volume stage for a number of channels. Its control value lies at the beginning of the
instance. -/
def volumeKernel (channels : Nat) (initial : Single) : Kernel where
  init dsp _ := Access.storeSingle dsp initial
  clear _ := return ()
  compute dsp count inputs outputs := do
    let volume ← Access.loadSingle dsp
    Access.forEach (volumeChannel count inputs outputs volume) (List.range channels)

end DspHost
