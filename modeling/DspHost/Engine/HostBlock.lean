import DspHost.Number.Single

/-!
# Host buffers

## Main definitions

* `HostBlock` — one buffer of samples for every channel
* `HostBlock.silence`, `HostBlock.ramp` — silent buffers, and buffers to try a module with
* `HostBlock.samples` — all samples in a row
* `HostBlock.covers` — whether the first buffers hold a block
-/

namespace DspHost

/-- One buffer of samples for every channel. -/
abbrev HostBlock := List (List Single)

namespace HostBlock

/-- Silent buffers. -/
def silence (channels frames : Nat) : HostBlock :=
  List.replicate channels (List.replicate frames .zero)

/-- A rising ramp in every channel, half a unit lower from one channel to the next. -/
def ramp (channels frames : Nat) : HostBlock :=
  (List.range channels).map fun channel => (List.range frames).map fun frame =>
    (.ofNat frame / .ofNat frames - .ofQuotient false 1 2 * .ofNat channel : Single)

/-- Every sample of every channel, channel after channel. -/
def samples (block : HostBlock) : List Single := block.flatten

/-- Whether there are enough channels and each of the needed ones is long enough. -/
def covers (block : HostBlock) (channels frames : Nat) : Bool :=
  decide (channels ≤ block.length) && (block.take channels).all fun c => decide (frames ≤ c.length)

theorem covers_iff {block : HostBlock} {channels frames : Nat} :
    block.covers channels frames = true ↔
      channels ≤ block.length ∧ ∀ c ∈ block.take channels, frames ≤ c.length := by
  simp [covers]

theorem covers_silence (channels frames : Nat) :
    (silence channels frames).covers channels frames = true := by
  rw [covers_iff]
  refine ⟨by simp [silence], fun c hc => ?_⟩
  have inside := List.mem_of_mem_take hc
  simp only [silence, List.mem_replicate] at inside
  simp [inside.2]

end HostBlock

end DspHost
