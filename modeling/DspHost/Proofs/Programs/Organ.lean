import DspHost.Programs.Organ
import DspHost.Proofs.Programs.Parts

/-!
# The demo organ keeps the contract

The organ reads its settings and its state, walks through the frames of one channel, and stores its
state. Of its nine fields it writes six: the five controls are stored when an instance is set up and
are read from then on.

## Main definitions

* `Organ.inputs` — the controls of the organ and their values at first

## Main results

* `organKernel_minds` — the organ stores its controls at first and then leaves them alone
-/

namespace DspHost

namespace Organ

/-- The controls of the organ and their values at first. -/
def inputs : List (ℕ × Single) :=
  [(freq, .ofNat 440), (gain, .ofQuotient false 1 2), (gate, .zero),
    (bright, .ofQuotient false 3 10), (bend, .zero)]

/-- What an instance holds when it was set up. -/
def fresh (rate : ℕ) : List (ℕ × Single) :=
  inputs ++ [(sampleRate, .ofNat rate), (level, .zero), (phase, .zero), (lowpass, .zero)]

/-- The bytes of an instance. -/
def size : ℕ := 36

/-- The description of the organ. -/
def metadata : ModuleMetadata where
  name := "organ"
  filename := "organ.dsp"
  size
  inputs := 0
  outputs := 1
  annotations := []
  ui := [.group .vertical "organ"
    [.slider .horizontal
      ⟨"freq", "/organ/freq", freq, .ofNat 440, .ofNat 20, .ofNat 2000, .one, []⟩,
    .slider .horizontal ⟨"gain", "/organ/gain", gain, .ofQuotient false 1 2, .zero, .one,
      .ofQuotient false 1 100, []⟩,
    .toggle .button ⟨"gate", "/organ/gate", gate, []⟩,
    .slider .horizontal ⟨"bright", "/organ/bright", bright, .ofQuotient false 3 10,
      .ofQuotient false 1 100, .one, .ofQuotient false 1 100, [[("midi", "ctrl 74")]]⟩,
    .slider .horizontal ⟨"bend", "/organ/bend", bend, .zero, -Single.ofNat 2, .ofNat 2,
      .ofQuotient false 1 100, [[("midi", "pitchwheel")]]⟩,
    .bargraph .horizontal ⟨"level", "/organ/level", level, .zero, .one, []⟩]]

theorem fits_fresh (rate : ℕ) : ∀ field ∈ fresh rate, field.1 + 4 ≤ size := by
  simp [fresh, inputs, freq, gain, gate, bright, bend, level, phase, lowpass, sampleRate, size]

theorem pairwise_fresh (rate : ℕ) :
    (fresh rate).Pairwise fun f g => f.1 + 4 ≤ g.1 ∨ g.1 + 4 ≤ f.1 := by
  simp [fresh, inputs, freq, gain, gate, bright, bend, level, phase, lowpass, sampleRate]

variable {a : Arena} {region : InstanceRegion}

/-- Fields of the organ lie in the arena. -/
theorem field_le_size (hsize : size ≤ region.size) (hinside : region.offset + region.size ≤ a.size)
    {index : ℕ} (hindex : index + 4 ≤ size) : region.offset + index + 4 ≤ a.size := by
  omega

/-- Setting up an instance stores its fields. -/
theorem init_ends (hsize : size ≤ region.size) (hinside : region.offset + region.size ≤ a.size)
    (rate : ℕ) :
    (init region.offset rate).Ends a fun _ b => b = a.storeFields region (fresh rate) := by
  have hroom {b : Arena} (hb : b.size = a.size) (index : ℕ) (hindex : index + 4 ≤ size) :
      region.offset + index + 4 ≤ b.size := hb ▸ field_le_size hsize hinside hindex
  refine .bind (.storeSingle (hroom rfl freq (by decide)) ?_)
  refine .bind (.storeSingle (hroom (by simp) gain (by decide)) ?_)
  refine .bind (.storeSingle (hroom (by simp) gate (by decide)) ?_)
  refine .bind (.storeSingle (hroom (by simp) bright (by decide)) ?_)
  refine .bind (.storeSingle (hroom (by simp) bend (by decide)) ?_)
  refine .bind (.storeSingle (hroom (by simp) sampleRate (by decide)) ?_)
  refine .bind (.storeSingle (hroom (by simp) level (by decide)) ?_)
  refine .bind (.storeSingle (hroom (by simp) phase (by decide)) ?_)
  exact .storeSingle (hroom (by simp) lowpass (by decide)) rfl

/-- The offsets of what the organ hands on from one block to the next. -/
def state : List ℕ := [level, phase, lowpass]

/-- The state lies inside the instance and overlaps no control. -/
theorem state_apart : ∀ index ∈ state, index + 4 ≤ size ∧
    ∀ field ∈ inputs, field.1 + 4 ≤ index ∨ index + 4 ≤ field.1 := by
  simp [state, inputs, freq, gain, gate, bright, bend, level, phase, lowpass, size]

/-- Storing the state ends and changes nothing else. -/
theorem storeState_ends (hsize : size ≤ region.size)
    (hinside : region.offset + region.size ≤ a.size) (last : State) :
    (do
      Access.storeSingle (region.offset + level) last.level
      Access.storeSingle (region.offset + phase) last.phase
      Access.storeSingle (region.offset + lowpass) last.lowpass : Access Unit).Ends a fun _ b =>
        Arena.ChangedWithin {i | ∃ index ∈ state, i ∈ region.fieldSpan index} a b := by
  have hroom {b : Arena} (hb : b.size = a.size) (index : ℕ) (hindex : index + 4 ≤ size) :
      region.offset + index + 4 ≤ b.size := hb ▸ field_le_size hsize hinside hindex
  have hstored := a.changedWithin_storeFields region
    [(level, last.level), (phase, last.phase), (lowpass, last.lowpass)]
  refine .bind (.storeSingle (hroom rfl level (by decide)) ?_)
  refine .bind (.storeSingle (hroom (by simp) phase (by decide)) ?_)
  refine .storeSingle (hroom (by simp) lowpass (by decide)) (hstored.mono ?_)
  rintro i ⟨field, hfield, hi⟩
  exact ⟨field.1, List.mem_map_of_mem hfield, hi⟩

/-- Rendering a block changes samples of the channel and the state. -/
theorem compute_ends {outputs : ℕ} {target : SampleBuffer} (hsize : size ≤ region.size)
    (hinside : region.offset + region.size ≤ a.size)
    (hpointer : a.loadPointer outputs = .ok target.offset)
    (htarget : target.offset + target.byteLength ≤ a.size) :
    (compute region.offset target.frames outputs).Ends a fun _ b =>
      Arena.ChangedWithin (target.span ∪ {i | ∃ index ∈ state, i ∈ region.fieldSpan index})
        a b := by
  have hlength : target.byteLength = 4 * target.frames := Nat.mul_comm _ _
  have hroom (index : ℕ) (hindex : index + 4 ≤ size) : region.offset + index + 4 ≤ a.size :=
    field_le_size hsize hinside hindex
  refine .bind (.loadSingle (hroom sampleRate (by decide)) ?_)
  refine .bind (.loadSingle (hroom gate (by decide)) ?_)
  refine .bind (.loadSingle (hroom gain (by decide)) ?_)
  refine .bind (.loadSingle (hroom bend (by decide)) ?_)
  refine .bind (.loadSingle (hroom freq (by decide)) ?_)
  refine .bind (.loadSingle (hroom bright (by decide)) ?_)
  refine .bind (.loadSingle (hroom level (by decide)) ?_)
  refine .bind (.loadSingle (hroom phase (by decide)) ?_)
  refine .bind (.loadSingle (hroom lowpass (by decide)) ?_)
  refine .bind (.loadPointer hpointer ?_)
  refine .bind ((Access.Ends.foldFrames (fun _ _ b => Arena.ChangedWithin target.span a b)
    (fun i hi s b hb => ?_) (.refl _ a)).mono fun last b hb => ?_)
  · -- Whatever the tone and the filter make of the state, one frame writes one sample.
    have hframe := SampleBuffer.frame_subset_span hi
    rw [frameAddress_eq]
    refine .bind (.storeSingle (by rw [hb.size_eq]; omega) (.pure (hb.trans ?_)))
    exact (Arena.changedWithin_setSample b _ _).mono hframe
  · have hinside' : region.offset + region.size ≤ b.size := hb.size_eq ▸ hinside
    refine (storeState_ends hsize hinside' last).mono fun _ c hc => ?_
    exact (hb.mono Set.subset_union_left).trans (hc.mono Set.subset_union_right)

end Organ

/-- The organ stores its controls when an instance is set up and leaves them alone from then on. -/
theorem organKernel_minds {r : Router} {scope : Scope} {region : InstanceRegion}
    (hwell : r.plan.WellFormed) (hregion : region ∈ r.regions scope)
    (hsize : Organ.size ≤ region.size) (houtputs : 0 < r.plan.outputs) (rate : ℕ) :
    organKernel.Minds r.plan (r.plan.seat scope region) rate Organ.inputs := by
  have hinside := Router.region_le_arenaSize hwell hregion
  obtain ⟨target, htarget⟩ := r.plan.exists_buffer scope region houtputs
  have hstate : {i | ∃ index ∈ Organ.state, i ∈ region.fieldSpan index} ⊆
      (r.plan.seat scope region).writable \ region.bytesOf Organ.inputs := by
    rintro i ⟨index, hindex, hi⟩
    obtain ⟨hfits, hapart⟩ := Organ.state_apart index hindex
    exact fieldSpan_subset_writable (hfits.trans hsize) hapart hi
  refine ⟨fun a ha => ?_, fun a ha => ?_, fun a ha => ?_⟩
  · rw [← ha.size_eq] at hinside
    rw [MemoryPlan.region_seat]
    refine (Organ.init_ends hsize hinside rate).mono fun _ b hb => ?_
    rw [hb]
    exact storeFields_spec (fun field hfield => (Organ.fits_fresh rate field hfield).trans hsize)
      hinside (Organ.pairwise_fresh rate) (List.subset_append_left _ _)
  · rw [← ha.size_eq] at hinside
    rw [MemoryPlan.region_seat]
    exact (Organ.storeState_ends hsize hinside ⟨.zero, .zero, .zero⟩).mono fun _ b hb =>
      hb.mono hstate
  · have hpointer := ha.loadPointer_buffer hwell htarget
    rw [Nat.zero_mul, Nat.add_zero] at hpointer
    have hbuffer := hwell.buffer_le_arenaSize htarget
    rw [← ha.size_eq] at hinside hbuffer
    have hends := Organ.compute_ends hsize hinside hpointer hbuffer
    rw [MemoryPlan.frames_of_buffer htarget] at hends
    rw [MemoryPlan.region_seat]
    refine hends.mono fun _ b hb => hb.mono (Set.union_subset ?_ hstate)
    exact span_subset_writable hwell hregion htarget

end DspHost
