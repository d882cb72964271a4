import DspHost.Memory.Arena

/-!
# Loops over frames

Module code walks through the samples of a block, one frame after the other. Samples of a channel
lie next to each other from the address in the channel's word on.

## Main definitions

* `frameAddress` — where a frame lies
* `forFrames`, `foldFrames` — code for every frame of a block
* `fillFrames`, `scaleFrames` — a constant block, and a block times a factor
-/

namespace DspHost

/-- The address of a frame of a channel whose samples begin at `base`. -/
def frameAddress (base frame : Nat) : Nat := base + frame * sampleWidth

/-- Runs code for every frame of a block. -/
def forFrames (count : Nat) (code : Nat → Access Unit) : Access Unit :=
  Access.forEach code (List.range count)

/-- Runs code for every frame of a block and hands a value on from one to the next. -/
def foldFrames (count : Nat) (code : σ → Nat → Access σ) (state : σ) : Access σ :=
  Access.foldEach code state (List.range count)

/-- Fills a block with one value. -/
def fillFrames (count target : Nat) (value : Single) : Access Unit :=
  forFrames count fun i => Access.storeSingle (frameAddress target i) value

/-- Writes the samples of one channel times a factor to another channel. -/
def scaleFrames (count source target : Nat) (factor : Single) : Access Unit :=
  forFrames count fun i => do
    let sample ← Access.loadSingle (frameAddress source i)
    Access.storeSingle (frameAddress target i) (sample * factor)

end DspHost
