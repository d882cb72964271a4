import DspHost.Engine.Process
import DspHost.Proofs.Engine.Contract

/-!
# What rendering leaves alone

The host itself writes samples only: it copies the inputs in, zeroes the output samples and adds the
mixing samples to them. Together with what module code owes the host, this means that a block can be
rendered in every hosted arena, and that the pointer tables and the fields that module code minds
are afterwards as they were.

## Main results

* `Processor.clearOutputs_ends` — the output samples are zeroed
* `Processor.addMixed_spec` — every mixing sample is added to its output sample
* `Processor.Minds.renderCode_confined` — a block can be rendered, and what is reserved is kept
-/

namespace DspHost

variable {plan : MemoryPlan} {a b : Arena}

namespace Processor

/-! ### The output samples -/

theorem outputSamples_subset (plan : MemoryPlan) :
    plan.area {.outputSamples} ⊆ plan.area RegionKind.samples :=
  MemoryPlan.area_mono (by simp [RegionKind.samples])

theorem mem_outputBuffers {out : SampleBuffer} :
    out ∈ plan.outputBuffers ↔ ∃ channel, plan.outputBuffer? channel = some out := by
  rw [MemoryPlan.outputBuffers, List.mem_filterMap]
  constructor
  · rintro ⟨channel, -, h⟩
    exact ⟨channel, h⟩
  · rintro ⟨channel, h⟩
    exact ⟨channel, List.mem_range.mpr (MemoryPlan.lt_of_buffer? h), h⟩

theorem clearBuffer_ends {out : SampleBuffer} (hinside : out.offset + out.byteLength ≤ a.size) :
    (clearBuffer out).Ends a fun _ b =>
      Arena.ChangedWithin out.span a b ∧
        ∀ i < out.frames, b.sample (out.offset + 4 * i) = .zero := by
  refine Access.Ends.zero hinside ⟨?_, fun i hi => Arena.sample_zeroed hinside hi⟩
  have hchange := a.changedWithin_writeBytes out.offset (List.replicate out.byteLength 0)
  rwa [List.length_replicate] at hchange

/-- The output samples of all channels are zeroed. -/
theorem clearOutputs_ends (hwell : plan.WellFormed) (ha : plan.Hosts a) :
    (Access.forEach clearBuffer plan.outputBuffers).Ends a fun _ b =>
      Arena.ChangedWithin (plan.area {.outputSamples}) a b ∧
        ∀ channel out, plan.outputBuffer? channel = some out →
          ∀ i < out.frames, b.sample (out.offset + 4 * i) = .zero := by
  have hinside : ∀ out ∈ plan.outputBuffers, out.offset + out.byteLength ≤ plan.arenaSize := by
    intro out hout
    obtain ⟨channel, hchannel⟩ := mem_outputBuffers.mp hout
    exact (MemoryPlan.holds_outputBuffer hchannel).stop_le_arenaSize hwell
  have hspan : ∀ out ∈ plan.outputBuffers, out.span ⊆ plan.area {.outputSamples} := by
    intro out hout
    obtain ⟨channel, hchannel⟩ := mem_outputBuffers.mp hout
    exact MemoryPlan.outputBuffer_subset_area hchannel
  have hends : (Access.forEach clearBuffer plan.outputBuffers).Ends a fun _ b =>
      b.size = plan.arenaSize := by
    refine Access.Ends.forEach (fun out hout b hb => ?_) ha.size_eq
    have hout' := hinside out hout
    rw [← hb] at hout'
    exact (clearBuffer_ends hout').mono fun _ c hc => hc.1.size_eq.trans hb
  -- Now that the loop is known to end, each of its turns establishes the zeros of one buffer.
  obtain ⟨_, b, hrun, -⟩ := hends
  obtain ⟨hchange, hzero, -⟩ := Access.forEach_establishes
    (Arena.ChangedWithin (plan.area {.outputSamples}) a)
    (fun out b => out ∈ plan.outputBuffers →
      ∀ i < out.frames, b.sample (out.offset + 4 * i) = .zero)
    (fun out hout b c hb hclear => by
      have hout' := hinside out hout
      rw [← ha.size_eq, ← hb.size_eq] at hout'
      obtain ⟨hchange, hzero⟩ := (clearBuffer_ends hout').post_of_run hclear
      refine ⟨hb.trans (hchange.mono (hspan out hout)), fun _ => hzero, ?_⟩
      intro other hother hmem i hi
      -- A buffer that was zeroed before is this one or has no byte in common with it.
      obtain ⟨channel, hchannel⟩ := mem_outputBuffers.mp hout
      obtain ⟨channel', hchannel'⟩ := mem_outputBuffers.mp hmem
      by_cases heq : channel' = channel
      · subst heq
        obtain rfl := Option.some.inj (hchannel.symm.trans hchannel')
        exact hzero i hi
      · have hapart := MemoryPlan.disjoint_outputBuffers hchannel' hchannel heq
        rw [hchange.sample_eq (hapart.mono_left (SampleBuffer.frame_subset_span hi))]
        exact hother hmem i hi)
    (.refl _ a) hrun
  refine .of_run hrun ⟨hchange, fun channel out hout i hi => ?_⟩
  have hmem := mem_outputBuffers.mpr ⟨channel, hout⟩
  exact hzero out hmem hmem i hi

/-! ### Mixing -/

/-- The pair of a channel. -/
theorem mem_mixPairs {x : SampleBuffer × SampleBuffer} (h : x ∈ plan.mixPairs) :
    ∃ channel, plan.outputBuffer? channel = some x.1 ∧ plan.mixingBuffer? channel = some x.2 := by
  obtain ⟨channel, -, hpair⟩ := List.mem_filterMap.mp h
  obtain ⟨out, hout, hpair⟩ := Option.bind_eq_some_iff.mp hpair
  obtain ⟨mix, hmix, hx⟩ := Option.bind_eq_some_iff.mp hpair
  obtain rfl := Option.some.inj hx
  exact ⟨channel, hout, hmix⟩

theorem mixPair_mem {channel : ℕ} {out mix : SampleBuffer}
    (hout : plan.outputBuffer? channel = some out) (hmix : plan.mixingBuffer? channel = some mix) :
    (out, mix) ∈ plan.mixPairs := by
  have hlt := MemoryPlan.lt_of_buffer? hout
  refine List.mem_filterMap.mpr ⟨channel, List.mem_range.mpr hlt, ?_⟩
  simp [hout, hmix]

/-- Different pairs have different targets. -/
theorem pairwise_mixPairs (plan : MemoryPlan) :
    plan.mixPairs.Pairwise fun x y => Disjoint x.1.span y.1.span := by
  refine List.Pairwise.filterMap _ (fun c c' hne x hx y hy => ?_) List.nodup_range
  obtain ⟨out, hout, hmix⟩ := Option.bind_eq_some_iff.mp hx
  obtain ⟨out', hout', hmix'⟩ := Option.bind_eq_some_iff.mp hy
  obtain ⟨mix, -, hx⟩ := Option.bind_eq_some_iff.mp hmix
  obtain ⟨mix', -, hy⟩ := Option.bind_eq_some_iff.mp hmix'
  obtain rfl := Option.some.inj hx
  obtain rfl := Option.some.inj hy
  exact MemoryPlan.disjoint_outputBuffers hout hout' hne

/-- Every mixing sample is added to its output sample, and nothing else is changed. -/
theorem addMixed_spec (hwell : plan.WellFormed) (hsize : a.size = plan.arenaSize) :
    Arena.ChangedWithin (plan.area {.outputSamples}) a (addMixed plan a) ∧
      ∀ channel out mix, plan.outputBuffer? channel = some out →
        plan.mixingBuffer? channel = some mix → ∀ i < plan.blockLength,
          (addMixed plan a).sample (out.offset + 4 * i) =
            a.sample (out.offset + 4 * i) + a.sample (mix.offset + 4 * i) := by
  have hinside : ∀ x ∈ plan.mixPairs, x.1.offset + x.1.byteLength ≤ a.size := by
    intro x hx
    obtain ⟨channel, hout, -⟩ := mem_mixPairs hx
    rw [hsize]
    exact (MemoryPlan.holds_outputBuffer hout).stop_le_arenaSize hwell
  have hsources : ∀ x ∈ plan.mixPairs, ∀ y ∈ plan.mixPairs, Disjoint x.1.span y.2.span := by
    intro x hx y hy
    obtain ⟨_, hout, -⟩ := mem_mixPairs hx
    obtain ⟨_, -, hmix⟩ := mem_mixPairs hy
    have hapart : Disjoint (plan.area {.outputSamples}) (plan.area {.mixingSamples}) :=
      hwell.disjoint_area (by simp)
    exact hapart.mono (MemoryPlan.outputBuffer_subset_area hout)
      (MemoryPlan.mixingBuffer_subset_area hmix)
  obtain ⟨hchange, hsum⟩ := Arena.foldl_accumulate hinside hsources (pairwise_mixPairs plan)
  refine ⟨hchange.mono ?_, fun channel out mix hout hmix i hi => ?_⟩
  · rintro i ⟨x, hx, hi⟩
    obtain ⟨channel, hout, -⟩ := mem_mixPairs hx
    exact MemoryPlan.outputBuffer_subset_area hout hi
  · refine hsum (out, mix) (mixPair_mem hout hmix) i ?_
    rw [MemoryPlan.frames_of_buffer? hout, MemoryPlan.frames_of_mixingBuffer? hmix, min_self]
    exact hi

/-! ### Whole blocks -/

/-- The inputs of the host are copied over input samples. -/
theorem changedWithin_writeInputs (plan : MemoryPlan) (inputs : HostBlock) (a : Arena) :
    Arena.ChangedWithin (plan.area RegionKind.samples) a
      (writeInputs plan.inputBuffers inputs a) := by
  have hspan : ∀ x ∈ plan.inputBuffers.zip inputs, x.1.span ⊆ plan.area RegionKind.samples := by
    intro x hx
    obtain ⟨channel, -, hchannel⟩ := List.mem_filterMap.mp (List.of_mem_zip hx).1
    refine (MemoryPlan.holds_inputBuffer hchannel).subset_area.trans (MemoryPlan.area_mono ?_)
    simp [MemoryPlan.bufferPart, RegionKind.samples]
  unfold writeInputs
  generalize plan.inputBuffers.zip inputs = pairs at hspan
  induction pairs generalizing a with
  | nil => exact .refl _ a
  | cons x rest ih =>
    have hfirst := a.changedWithin_writeSamples x.1 x.2
    refine (hfirst.mono (hspan x List.mem_cons_self)).trans (ih _ fun y hy => ?_)
    exact hspan y (List.mem_cons_of_mem x hy)

variable {p : Processor} {rate : ℕ} {fields : Scope → List (ℕ × Single)}

theorem outputSamples_subset_reserved_compl (hwell : p.plan.WellFormed)
    (fields : Scope → List (ℕ × Single)) :
    p.plan.area {.outputSamples} ⊆ (p.router.reserved fields)ᶜ :=
  (outputSamples_subset p.plan).trans (@Router.samples_subset_reserved_compl p.router hwell fields)

namespace Minds

/-- A voice can be cleared. -/
theorem clear_confined (h : p.Minds rate fields) (hwell : p.plan.WellFormed)
    {region : InstanceRegion} (hregion : region ∈ p.router.regions .voice) :
    (p.kernel.clear region.offset).Confined p.plan (p.router.reserved fields)ᶜ := by
  have hcode := (h .voice region hregion p.kernel rfl).clear
  rw [MemoryPlan.region_seat] at hcode
  exact hcode.mono (Router.writable_subset_reserved_compl (r := p.router) hwell fields hregion)

/-- The code of any scope can be run over a block. -/
theorem compute_confined (h : p.Minds rate fields) (hwell : p.plan.WellFormed) {scope : Scope}
    {region : InstanceRegion} {k : Kernel} (hregion : region ∈ p.router.regions scope)
    (hk : p.code? scope = some k) :
    (k.compute region.offset p.plan.blockLength (p.plan.seat scope region).inputs
      (p.plan.seat scope region).outputs).Confined p.plan (p.router.reserved fields)ᶜ := by
  have hcode := (h scope region hregion k hk).compute
  rw [MemoryPlan.region_seat] at hcode
  exact hcode.mono (Router.writable_subset_reserved_compl (r := p.router) hwell fields hregion)

/-- A voice can be mixed. -/
theorem mixVoice_confined (h : p.Minds rate fields) (hwell : p.plan.WellFormed) {m : MixingArea}
    (hm : p.plan.mixing = some m) {region : InstanceRegion}
    (hregion : region ∈ p.router.regions .voice) :
    (p.mixVoice m region).Confined p.plan (p.router.reserved fields)ᶜ := by
  have hvoice := h.compute_confined hwell hregion rfl
  rw [MemoryPlan.seat_of_mixing_eq_some hm] at hvoice
  have htables := p.router.disjoint_tables_reserved_compl fields
  refine .bind hwell htables hvoice (.change fun a ha => ?_)
  exact (addMixed_spec hwell ha.size_eq).1.mono (outputSamples_subset_reserved_compl hwell fields)

/-- The effect can be run, if there is one. -/
theorem runEffect_confined (h : p.Minds rate fields) (hwell : p.plan.WellFormed) :
    p.runEffect.Confined p.plan (p.router.reserved fields)ᶜ := by
  unfold runEffect
  split
  · next k region hk hregion =>
    exact h.compute_confined hwell (Router.mem_regions_effect.mpr hregion) hk
  · exact .pure

/-- A block can be rendered in every hosted arena, and what is reserved is kept. -/
theorem renderCode_confined (h : p.Minds rate fields) (hwell : p.plan.WellFormed) :
    p.renderCode.Confined p.plan (p.router.reserved fields)ᶜ := by
  have htables := p.router.disjoint_tables_reserved_compl fields
  unfold renderCode
  split
  · next hm =>
    -- Without mixing there is one instance, whose code writes to the output buffers itself.
    have hmono := hwell.polyphony_eq_mono hm
    have hregion : p.plan.voiceInstance? 0 = some ⟨p.plan.instances, p.plan.instanceSize⟩ := by
      simp [MemoryPlan.voiceInstance?, MemoryPlan.instanceCount, hmono, Polyphony.instances]
    have hvoice := h.compute_confined hwell (Router.mem_regions_voice.mpr ⟨0, hregion⟩) rfl
    rw [MemoryPlan.seat_of_mixing_eq_none hm] at hvoice
    exact hvoice
  · next m hm =>
    have heffect := h.runEffect_confined hwell
    refine .bind hwell htables (fun a ha => ?_) (.bind hwell htables ?_ heffect)
    · refine (clearOutputs_ends hwell ha).mono fun _ b hb => hb.1.mono ?_
      exact outputSamples_subset_reserved_compl hwell fields
    · exact .forEach hwell htables fun region hregion => h.mixVoice_confined hwell hm hregion

end Minds

end Processor

end DspHost
