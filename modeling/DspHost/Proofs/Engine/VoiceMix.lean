import DspHost.Proofs.Engine.Rendering
import DspHost.Proofs.Programs.Volume

/-!
# The mix of the voices

All voices render into the same mixing samples, one after the other, and after each of them the
mixing samples are added to the output samples. What comes out is the sum of what the voices compute
when each of them is run alone, added up in voice order from zero. The effect then runs on this sum.

A voice that is run alone may start from any hosted arena that has the instance of the voice and the
input samples in common with the arena that is rendered in. Everything else, the output samples and
the mixing samples in particular, may differ.

## Main definitions

* `Solo`, `Processor.RunsAlone` — a voice that is run alone
* `Processor.RenderedMix` — what rendering with voices does

## Main results

* `Processor.mixVoice_ends`, `Processor.mixVoices_ends` — one voice, and one after the other
* `Processor.exists_solo` — every voice can be run alone
* `Processor.renderedMix_of_plan` — rendering is the exact mix, followed by the effect
-/

namespace DspHost

/-- A voice that is run alone: its instance, the arena that its code starts from, and the arena that
its code leaves. -/
structure Solo where
  region : InstanceRegion
  before : Arena
  after : Arena

namespace Processor

variable {p : Processor} {m : MixingArea} {a : Arena}

/-- The voice is run alone, from an arena that has its instance and the input samples in common with
the given one. -/
structure RunsAlone (p : Processor) (a : Arena) (x : Solo) : Prop where
  hosts : p.plan.Hosts x.before
  agrees : Set.EqOn a.byteAt x.before.byteAt (x.region.footprint ∪ p.plan.area {.inputSamples})
  run : (p.kernel.compute x.region.offset p.plan.blockLength (p.plan.seat .voice x.region).inputs
    (p.plan.seat .voice x.region).outputs).run x.before = (.ok (), x.after)

/-- What mixing one voice can change. -/
def mixSpan (p : Processor) (region : InstanceRegion) : Set ℕ :=
  region.footprint ∪ p.plan.area {.outputSamples, .mixingSamples}

theorem mixedSamples_subset (plan : MemoryPlan) :
    plan.area {.outputSamples, .mixingSamples} ⊆ plan.area RegionKind.samples :=
  MemoryPlan.area_mono (Set.subset_insert _ _)

theorem disjoint_area_mixSpan (hwell : p.plan.WellFormed) {kinds : Set RegionKind}
    {region : InstanceRegion} (hregion : region ∈ p.router.regions .voice)
    (hinstances : Disjoint kinds RegionKind.instances)
    (hsamples : Disjoint kinds {.outputSamples, .mixingSamples}) :
    Disjoint (p.plan.area kinds) (p.mixSpan region) := by
  refine Disjoint.union_right ?_ (hwell.disjoint_area hsamples)
  exact (hwell.disjoint_area hinstances).mono_right (@Router.footprint_subset p.router _ _ hregion)

theorem disjoint_footprint_mixSpan (hwell : p.plan.WellFormed) {region region' : InstanceRegion}
    (hregion : region ∈ p.router.regions .voice)
    (hapart : Disjoint region.footprint region'.footprint) :
    Disjoint region.footprint (p.mixSpan region') := by
  refine Disjoint.union_right hapart ?_
  exact (@Router.disjoint_footprint_samples p.router _ _ hwell hregion).mono_right
    (mixedSamples_subset p.plan)

/-! ### One voice after the other -/

/-- Mixing one voice leaves its instance as the voice alone does, and adds what the voice alone
computes to the output samples. -/
theorem mixVoice_ends (hwell : p.plan.WellFormed) (hm : p.plan.mixing = some m) {x : Solo}
    (hregion : x.region ∈ p.router.regions .voice)
    (hrenders : p.kernel.Renders p.plan (p.plan.seat .voice x.region)) (ha : p.plan.Hosts a)
    (hx : p.RunsAlone a x) :
    (p.mixVoice m x.region).Ends a fun _ b =>
      Arena.ChangedWithin (p.mixSpan x.region) a b ∧
        Set.EqOn b.byteAt x.after.byteAt x.region.footprint ∧
          ∀ channel out mix, p.plan.outputBuffer? channel = some out →
            p.plan.mixingBuffer? channel = some mix → ∀ i < p.plan.blockLength,
              b.sample (out.offset + 4 * i) =
                a.sample (out.offset + 4 * i) + x.after.sample (mix.offset + 4 * i) := by
  have halone := hx.run
  rw [MemoryPlan.seat_of_mixing_eq_some hm] at hrenders halone
  -- In b the code of the voice has run and its mixing samples are not added yet. Both runs find the
  -- same instance and inputs, so what they write is the same as well.
  obtain ⟨_, b, hrun, hwritten⟩ := hrenders.confined a ha
  have hsame := hrenders.determined a b x.before x.after ha hx.hosts hx.agrees hrun halone
  obtain ⟨hadded, hsum⟩ := addMixed_spec hwell (hwritten.size_eq.trans ha.size_eq)
  have hfree := @Router.disjoint_footprint_samples p.router _ _ hwell hregion
  have hspan : Seat.writable ⟨x.region, p.plan.inputTable.offset, m.table.offset,
      p.plan.mixingBuffer?⟩ ⊆ x.region.footprint ∪ p.plan.area {.mixingSamples} := by
    refine Set.union_subset_union_right _ ?_
    rintro i ⟨channel, mix, hmix, hi⟩
    exact MemoryPlan.mixingBuffer_subset_area hmix hi
  refine .bind (.of_run hrun (.change ⟨?_, ?_, fun channel out mix hout hmix i hi => ?_⟩))
  · have hmix : p.plan.area {.mixingSamples} ⊆ p.plan.area {.outputSamples, .mixingSamples} :=
      MemoryPlan.area_mono (by simp)
    have hout : p.plan.area {.outputSamples} ⊆ p.plan.area {.outputSamples, .mixingSamples} :=
      MemoryPlan.area_mono (by simp)
    refine (hwritten.mono (hspan.trans (Set.union_subset_union_right _ hmix))).trans ?_
    exact hadded.mono (hout.trans Set.subset_union_right)
  · have hkept := hadded.eqOn_of_disjoint (hfree.mono_right (outputSamples_subset p.plan))
    exact hkept.trans (hsame.mono Set.subset_union_left)
  · -- The sum has the old output sample, which the voice cannot write, and the new mixing sample.
    have houtFrame : i < out.frames := by rwa [MemoryPlan.frames_of_buffer? hout]
    have hmixFrame : i < mix.frames := by rwa [MemoryPlan.frames_of_mixingBuffer? hmix]
    have hout' : Set.Ico (out.offset + 4 * i) (out.offset + 4 * i + 4) ⊆
        p.plan.area {.outputSamples} :=
      (SampleBuffer.frame_subset_span houtFrame).trans (MemoryPlan.outputBuffer_subset_area hout)
    have hapart : Disjoint (p.plan.area {.outputSamples})
        (x.region.footprint ∪ p.plan.area {.mixingSamples}) := by
      refine Disjoint.union_right ?_ (hwell.disjoint_area (by simp))
      exact (hfree.mono_right (outputSamples_subset p.plan)).symm
    have hold := hwritten.sample_eq (hapart.mono hout' hspan)
    have hnew : b.sample (mix.offset + 4 * i) = x.after.sample (mix.offset + 4 * i) := by
      refine Arena.sample_congr (hsame.mono fun j hj => .inr ⟨channel, mix, hmix, ?_⟩)
      exact SampleBuffer.frame_subset_span hmixFrame hj
    rw [hsum channel out mix hout hmix i hi, hold, hnew]

/-- Mixing voices one after the other leaves every instance as the voice alone does, and adds up in
order what the voices alone compute. -/
theorem mixVoices_ends (hwell : p.plan.WellFormed) (hm : p.plan.mixing = some m) {xs : List Solo}
    (hregions : ∀ x ∈ xs, x.region ∈ p.router.regions .voice)
    (hrenders : ∀ x ∈ xs, p.kernel.Renders p.plan (p.plan.seat .voice x.region))
    (hapart : xs.Pairwise fun x y => Disjoint x.region.footprint y.region.footprint)
    (ha : p.plan.Hosts a) (hxs : ∀ x ∈ xs, p.RunsAlone a x) :
    (p.mixVoices m (xs.map (·.region))).Ends a fun _ b =>
      Arena.ChangedWithin {i | ∃ x ∈ xs, i ∈ p.mixSpan x.region} a b ∧
        (∀ x ∈ xs, Set.EqOn b.byteAt x.after.byteAt x.region.footprint) ∧
          ∀ channel out mix, p.plan.outputBuffer? channel = some out →
            p.plan.mixingBuffer? channel = some mix → ∀ i < p.plan.blockLength,
              b.sample (out.offset + 4 * i) =
                xs.foldl (fun sum x => sum + x.after.sample (mix.offset + 4 * i))
                  (a.sample (out.offset + 4 * i)) := by
  -- The arena is generalized, since the later voices start from what the first one leaves.
  induction xs generalizing a with
  | nil => exact .pure ⟨.refl _ a, by simp, fun _ _ _ _ _ _ _ => rfl⟩
  | cons x rest ih =>
    obtain ⟨hlater, hrest⟩ := List.pairwise_cons.mp hapart
    have hregion := hregions x List.mem_cons_self
    have hmem {y : Solo} (hy : y ∈ rest) : y ∈ x :: rest := List.mem_cons_of_mem x hy
    have hvoice := mixVoice_ends hwell hm hregion (hrenders x List.mem_cons_self) ha
      (hxs x List.mem_cons_self)
    refine Access.Ends.bind (hvoice.mono fun _ b hdone => ?_)
    obtain ⟨hchange, hown, hsum⟩ := hdone
    have hb : p.plan.Hosts b := by
      refine ha.of_changedWithin hwell hchange (disjoint_area_mixSpan hwell hregion ?_ ?_)
      · exact RegionKind.disjoint_tables_instances
      · simp [RegionKind.tables]
    -- The first voice changes nothing that later voices read, so they still run alone.
    have hnext : ∀ y ∈ rest, p.RunsAlone b y := by
      intro y hy
      have hy' := hxs y (hmem hy)
      refine ⟨hy'.hosts, Set.EqOn.trans (hchange.eqOn_of_disjoint ?_) hy'.agrees, hy'.run⟩
      refine Disjoint.union_left ?_ (disjoint_area_mixSpan hwell hregion ?_ ?_)
      · exact disjoint_footprint_mixSpan hwell (hregions y (hmem hy)) (hlater y hy).symm
      · exact RegionKind.disjoint_samples_instances.mono_left (by simp [RegionKind.samples])
      · simp
    have hvoices := ih (fun y hy => hregions y (hmem hy)) (fun y hy => hrenders y (hmem hy)) hrest
      hb hnext
    refine hvoices.mono fun _ c hdone => ?_
    obtain ⟨hchange', howns, hsums⟩ := hdone
    refine ⟨?_, fun y hy => ?_, ?_⟩
    · have hhead : p.mixSpan x.region ⊆ {i | ∃ y ∈ x :: rest, i ∈ p.mixSpan y.region} :=
        fun i hi => ⟨x, List.mem_cons_self, hi⟩
      refine (hchange.mono hhead).trans (hchange'.mono ?_)
      rintro i ⟨y, hy, hi⟩
      exact ⟨y, hmem hy, hi⟩
    · rcases List.mem_cons.mp hy with rfl | hy
      · -- The voices after it keep away from its instance.
        refine Set.EqOn.trans (hchange'.eqOn_of_disjoint (Set.disjoint_left.mpr ?_)) hown
        rintro i hi ⟨z, hz, hi'⟩
        have hfree := disjoint_footprint_mixSpan hwell hregion (hlater z hz)
        exact Set.disjoint_left.mp hfree hi hi'
      · exact howns y hy
    · intro channel out mix hout hmix i hi
      rw [hsums channel out mix hout hmix i hi, hsum channel out mix hout hmix i hi,
        List.foldl_cons]

/-! ### Whole blocks -/

/-- What rendering with voices does to an arena, where `solo` runs every voice alone. The arena
`mixed` is there before the effect, and `final` is left in the end. -/
structure RenderedMix (p : Processor) (a : Arena) (solo : ℕ → Solo) (mixed final : Arena) :
    Prop where
  /-- Rendering ends. -/
  run : p.renderCode.run a = (.ok (), final)
  /-- Output samples are the sum over the voices, added up in voice order from zero. -/
  outputs : ∀ channel < p.plan.outputs, ∃ out mix, p.plan.outputBuffer? channel = some out ∧
    p.plan.mixingBuffer? channel = some mix ∧ ∀ i < p.plan.blockLength,
      mixed.sample (out.offset + 4 * i) =
        (List.range p.plan.instanceCount).foldl
          (fun sum v => sum + (solo v).after.sample (mix.offset + 4 * i)) .zero
  /-- The effect runs once, on these samples, with the output table for both tables. -/
  effect : ∀ k region, p.effect = some k → p.plan.effect = some region →
    (k.compute region.offset p.plan.blockLength p.plan.outputTable.offset
      p.plan.outputTable.offset).run mixed = (.ok (), final)
  /-- Without an effect the mix is what is left. -/
  no_effect : p.effect = none ∨ p.plan.effect = none → final = mixed
  /-- The effect finds its own instance as it was. -/
  effect_fresh : Set.EqOn mixed.byteAt a.byteAt (p.plan.area {.effect})
  /-- The effect finds the tables as they were. -/
  mixed_hosts : p.plan.Hosts mixed
  /-- Every instance is left as the voice alone leaves it. -/
  voices : ∀ v < p.plan.instanceCount,
    Set.EqOn final.byteAt (solo v).after.byteAt (solo v).region.footprint
  /-- Pointer tables are left alone. -/
  tables : Set.EqOn final.byteAt a.byteAt (p.plan.area RegionKind.tables)
  /-- Input samples are left alone. -/
  inputs : Set.EqOn final.byteAt a.byteAt (p.plan.area {.inputSamples})

/-- The instances in voice order, where every voice is run alone. -/
theorem voiceInstances_eq_map_solo {plan : MemoryPlan} {solo : ℕ → Solo}
    (hsolo : ∀ v < plan.instanceCount, plan.voiceInstance? v = some (solo v).region) :
    plan.voiceInstances = ((List.range plan.instanceCount).map solo).map (·.region) := by
  rw [MemoryPlan.voiceInstances, List.map_map, ← List.filterMap_eq_map]
  exact List.filterMap_congr fun v hv => hsolo v (List.mem_range.mp hv)

/-- The effect ends, if there is one, and writes its own instance and output samples only. -/
theorem runEffect_ends
    (heffect : ∀ k region, p.effect = some k → p.plan.effect = some region →
      (k.compute region.offset p.plan.blockLength p.plan.outputTable.offset
        p.plan.outputTable.offset).Confined p.plan (p.plan.seat .effect region).writable)
    (ha : p.plan.Hosts a) :
    p.runEffect.Ends a fun _ b =>
      Arena.ChangedWithin (p.plan.area {.effect, .outputSamples}) a b := by
  unfold runEffect
  split
  · next k region hk hregion =>
    refine (heffect k region hk hregion a ha).mono fun _ b hchange => hchange.mono ?_
    rw [MemoryPlan.seat_effect]
    have hown : p.plan.area {.effect} ⊆ p.plan.area {.effect, .outputSamples} :=
      MemoryPlan.area_mono (by simp)
    have hout : p.plan.area {.outputSamples} ⊆ p.plan.area {.effect, .outputSamples} :=
      MemoryPlan.area_mono (by simp)
    rintro i (hi | ⟨channel, out, hb, hi⟩)
    · exact hown (MemoryPlan.effect_subset_area hregion hi)
    · exact hout (MemoryPlan.outputBuffer_subset_area hb hi)
  · exact .pure (.refl _ a)

/-- The kinds of regions that mixing can change: samples that are rendered, and instances of
voices. -/
def mixKinds : Set RegionKind := {k | k ∉ RegionKind.tables ∧ k ≠ .inputSamples ∧ k ≠ .effect}

theorem mixSpan_subset {region : InstanceRegion} (hregion : region ∈ p.router.regions .voice) :
    p.mixSpan region ⊆ p.plan.area mixKinds := by
  obtain ⟨index, hindex⟩ := Router.mem_regions_voice.mp hregion
  refine Set.union_subset ((MemoryPlan.footprint_subset_area hindex).trans ?_)
    (MemoryPlan.area_mono ?_)
  · refine MemoryPlan.area_mono (Set.singleton_subset_iff.mpr ?_)
    rw [MemoryPlan.instanceKind]
    split <;> simp [mixKinds, RegionKind.tables]
  · simp [Set.insert_subset_iff, mixKinds, RegionKind.tables]

/-- The output samples are zeroed and the voices are mixed into them. -/
theorem mixed_ends {solo : ℕ → Solo} (hwell : p.plan.WellFormed) (hm : p.plan.mixing = some m)
    (hrenders : ∀ region ∈ p.plan.voiceInstances,
      p.kernel.Renders p.plan (p.plan.seat .voice region))
    (ha : p.plan.Hosts a)
    (hsolo : ∀ v < p.plan.instanceCount,
      p.plan.voiceInstance? v = some (solo v).region ∧ p.RunsAlone a (solo v)) :
    (do
      Access.forEach clearBuffer p.plan.outputBuffers
      p.mixVoices m p.plan.voiceInstances : Access Unit).Ends a fun _ b =>
        Arena.ChangedWithin (p.plan.area mixKinds) a b ∧
          (∀ v < p.plan.instanceCount,
            Set.EqOn b.byteAt (solo v).after.byteAt (solo v).region.footprint) ∧
          ∀ channel out mix, p.plan.outputBuffer? channel = some out →
            p.plan.mixingBuffer? channel = some mix → ∀ i < p.plan.blockLength,
              b.sample (out.offset + 4 * i) =
                (List.range p.plan.instanceCount).foldl
                  (fun sum v => sum + (solo v).after.sample (mix.offset + 4 * i)) .zero := by
  have hregion {v : ℕ} (hv : v < p.plan.instanceCount) :
      (solo v).region ∈ p.router.regions .voice :=
    Router.mem_regions_voice.mpr ⟨v, (hsolo v hv).1⟩
  have hzeroed : p.plan.area {.outputSamples} ⊆ p.plan.area mixKinds :=
    MemoryPlan.area_mono (by simp [mixKinds, RegionKind.tables])
  have htables : Disjoint (p.plan.area RegionKind.tables) (p.plan.area mixKinds) :=
    hwell.disjoint_area (Set.disjoint_left.mpr fun _ hk hk' => hk'.1 hk)
  rw [voiceInstances_eq_map_solo fun v hv => (hsolo v hv).1]
  refine Access.Ends.bind ((clearOutputs_ends hwell ha).mono fun _ b hcleared => ?_)
  obtain ⟨hchange, hzero⟩ := hcleared
  have hb := ha.of_changedWithin hwell (hchange.mono hzeroed) htables
  -- Zeroing output samples takes nothing from what the voices read.
  have halone : ∀ v < p.plan.instanceCount, p.RunsAlone b (solo v) := by
    intro v hv
    have hv' := (hsolo v hv).2
    refine ⟨hv'.hosts, Set.EqOn.trans (hchange.eqOn_of_disjoint ?_) hv'.agrees, hv'.run⟩
    refine Disjoint.union_left ?_ (hwell.disjoint_area (by simp))
    exact (@Router.disjoint_footprint_samples p.router _ _ hwell (hregion hv)).mono_right
      (outputSamples_subset p.plan)
  have hmem {x : Solo} (hx : x ∈ (List.range p.plan.instanceCount).map solo) :
      ∃ v < p.plan.instanceCount, solo v = x := by
    obtain ⟨v, hv, hx⟩ := List.mem_map.mp hx
    exact ⟨v, List.mem_range.mp hv, hx⟩
  have hapart : ((List.range p.plan.instanceCount).map solo).Pairwise fun x y =>
      Disjoint x.region.footprint y.region.footprint := by
    refine List.pairwise_map.mpr (List.nodup_range.imp_of_mem fun {v w} hv hw hne => ?_)
    exact hwell.disjoint_footprint (hsolo v (List.mem_range.mp hv)).1
      (hsolo w (List.mem_range.mp hw)).1 hne
  have hvoices := mixVoices_ends hwell hm
    (fun x hx => by
      obtain ⟨v, hv, rfl⟩ := hmem hx
      exact hregion hv)
    (fun x hx => by
      obtain ⟨v, hv, rfl⟩ := hmem hx
      exact hrenders _ (hregion hv))
    hapart hb fun x hx => by
      obtain ⟨v, hv, rfl⟩ := hmem hx
      exact halone v hv
  refine hvoices.mono fun _ c hdone => ?_
  obtain ⟨hchange', howns, hsums⟩ := hdone
  refine ⟨(hchange.mono hzeroed).trans (hchange'.mono ?_), fun v hv => ?_, ?_⟩
  · rintro i ⟨x, hx, hi⟩
    obtain ⟨v, hv, rfl⟩ := List.mem_map.mp hx
    exact mixSpan_subset (hregion (List.mem_range.mp hv)) hi
  · exact howns _ (List.mem_map_of_mem (List.mem_range.mpr hv))
  · intro channel out mix hout hmix i hi
    have hframe : i < out.frames := by rwa [MemoryPlan.frames_of_buffer? hout]
    rw [hsums channel out mix hout hmix i hi, hzero channel out hout i hframe, List.foldl_map]

/-- Every voice can be run alone. -/
theorem exists_solo (hrenders : ∀ region ∈ p.plan.voiceInstances,
      p.kernel.Renders p.plan (p.plan.seat .voice region)) (ha : p.plan.Hosts a) :
    ∃ solo : ℕ → Solo, ∀ v < p.plan.instanceCount,
      p.plan.voiceInstance? v = some (solo v).region ∧ p.RunsAlone a (solo v) := by
  have hone (v : ℕ) : ∃ x : Solo, v < p.plan.instanceCount →
      p.plan.voiceInstance? v = some x.region ∧ p.RunsAlone a x := by
    by_cases hv : v < p.plan.instanceCount
    · have hregion : p.plan.voiceInstance? v = some _ := if_pos hv
      have hmem := (@Router.mem_regions_voice p.router _).mpr ⟨v, hregion⟩
      obtain ⟨_, b, hrun, -⟩ := (hrenders _ hmem).confined a ha
      rw [MemoryPlan.region_seat] at hrun
      exact ⟨⟨_, a, b⟩, fun _ => ⟨hregion, ha, fun _ _ => rfl, hrun⟩⟩
    · exact ⟨⟨⟨0, 0⟩, a, a⟩, fun hlt => absurd hlt hv⟩
  choose solo hsolo using hone
  exact ⟨solo, hsolo⟩

/-- Rendering with voices is the exact mix of the voices, followed by the effect. -/
theorem renderedMix_of_plan {request : LayoutRequest} {solo : ℕ → Solo}
    (hplan : request.plan = .ok p.plan) (hpoly : p.plan.polyphony.isPoly = true)
    (hrenders : ∀ region ∈ p.plan.voiceInstances,
      p.kernel.Renders p.plan (p.plan.seat .voice region))
    (heffect : ∀ k region, p.effect = some k → p.plan.effect = some region →
      (k.compute region.offset p.plan.blockLength p.plan.outputTable.offset
        p.plan.outputTable.offset).Confined p.plan (p.plan.seat .effect region).writable)
    (ha : p.plan.Hosts a)
    (hsolo : ∀ v < p.plan.instanceCount,
      p.plan.voiceInstance? v = some (solo v).region ∧ p.RunsAlone a (solo v)) :
    ∃ mixed final, p.RenderedMix a solo mixed final := by
  have hwell := LayoutRequest.wellFormed_of_plan hplan
  obtain ⟨m, hm⟩ : ∃ m, p.plan.mixing = some m :=
    Option.isSome_iff_exists.mp (hwell.mixing_isSome.trans hpoly)
  obtain ⟨_, mixed, hmixed, hchange, howns, hsums⟩ := mixed_ends hwell hm hrenders ha hsolo
  have htables : Disjoint (p.plan.area RegionKind.tables) (p.plan.area mixKinds) :=
    hwell.disjoint_area (Set.disjoint_left.mpr fun _ hk hk' => hk'.1 hk)
  have hinputs : Disjoint (p.plan.area {.inputSamples}) (p.plan.area mixKinds) :=
    hwell.disjoint_area (by simp [mixKinds])
  have hhosts := ha.of_changedWithin hwell hchange htables
  obtain ⟨_, final, hrun, hfinal⟩ := runEffect_ends heffect hhosts
  -- All that the effect does not write is left as the mix has left it.
  have hkept {kinds : Set RegionKind} (h : Disjoint kinds {.effect, .outputSamples}) :
      Set.EqOn final.byteAt mixed.byteAt (p.plan.area kinds) :=
    hfinal.eqOn_of_disjoint (hwell.disjoint_area h)
  refine ⟨mixed, final, ?_⟩
  exact {
    run := by
      rw [renderCode, hm]
      obtain ⟨_, b, hclear, hmix⟩ := Access.run_bind_eq_ok_iff.mp hmixed
      refine Access.run_bind_eq_ok_iff.mpr ⟨(), b, hclear, ?_⟩
      exact Access.run_bind_eq_ok_iff.mpr ⟨(), mixed, hmix, hrun⟩
    outputs := fun channel hchannel => by
      have hout : p.plan.outputBuffer? channel = some _ := if_pos hchannel
      have hmix : p.plan.mixingBuffer? channel = some _ :=
        Option.bind_eq_some_iff.mpr ⟨m, hm, if_pos hchannel⟩
      exact ⟨_, _, hout, hmix, hsums channel _ _ hout hmix⟩
    effect := fun k region hk hregion => by
      rw [runEffect, hk, hregion] at hrun
      exact hrun
    no_effect := fun hnone => by
      have hidle : p.runEffect = pure () := by
        rw [runEffect]
        rcases hnone with hnone | hnone
        · rw [hnone]
        · rw [hnone]
          cases p.effect <;> rfl
      rw [hidle] at hrun
      exact (Prod.mk.inj hrun).2.symm
    effect_fresh := hchange.eqOn_of_disjoint (hwell.disjoint_area (by simp [mixKinds]))
    mixed_hosts := hhosts
    voices := fun v hv => by
      have hregion := (hsolo v hv).1
      refine Set.EqOn.trans (Set.EqOn.mono (MemoryPlan.footprint_subset_area hregion) (hkept ?_))
        (howns v hv)
      rw [Set.disjoint_singleton_left, MemoryPlan.instanceKind]
      split <;> simp
    tables := (hkept (by simp [RegionKind.tables])).trans (hchange.eqOn_of_disjoint htables)
    inputs := (hkept (by simp)).trans (hchange.eqOn_of_disjoint hinputs) }

/-- A processor whose voices are volume stages, with one more volume stage as the effect. -/
def ofVolumes (plan : MemoryPlan) (a : Arena) : Processor where
  plan
  table := .empty true
  kernel := volumeKernel plan.outputs .one
  effect := some (volumeKernel plan.outputs .one)
  arena := a
  voices := VoiceTable.ofPlan? plan
  halt := none
  interval := 1
  rendered := 0
  readbacks := .empty 1

/-- Four volume stages for two channels, and their effect. -/
def volumesRequest : LayoutRequest where
  instanceSize := 4
  inputs := 2
  outputs := 2
  voices := 4
  blockLength := 64
  effectSize := some 4

/-- Four volume stages are mixed exactly, and their effect runs on the mix. -/
theorem renderedMix_of_plan_volumes : ∃ plan a solo mixed final,
    volumesRequest.plan = .ok plan ∧ plan.polyphony = .poly 4 ∧
      (ofVolumes plan a).RenderedMix a solo mixed final := by
  obtain ⟨plan, hplan, hpoly, hroom⟩ : ∃ plan, volumesRequest.plan = .ok plan ∧
      plan.polyphony = .poly 4 ∧ plan.arenaSize < power 256 plan.pointerWidth.bytes :=
    ⟨_, rfl, rfl, by decide⟩
  have hwell := LayoutRequest.wellFormed_of_plan hplan
  have hanswer := LayoutRequest.answeredBy_of_plan hplan
  have hchannels : plan.outputs = plan.inputs := hanswer.outputs.trans hanswer.inputs.symm
  have hsize : plan.arena.size = plan.arenaSize := by
    simp [MemoryPlan.arena, Arena.zeroed, Arena.size]
  obtain ⟨_, a, -, ha⟩ := MemoryPlan.pointTables_ends hwell hroom hsize rfl
  have hrenders : ∀ region ∈ plan.voiceInstances,
      (volumeKernel plan.outputs .one).Renders plan (plan.seat .voice region) := by
    intro region hregion
    refine @volumeKernel_renders (ofVolumes plan a).router region hwell hregion ?_ hchannels.le .one
    obtain ⟨v, hv⟩ := (@Router.mem_regions_voice (ofVolumes plan a).router region).mp hregion
    obtain ⟨-, hv⟩ := Option.ite_none_right_eq_some.mp hv
    obtain rfl := Option.some.inj hv
    exact hanswer.instanceSize.ge
  have heffect : ∀ k region, (ofVolumes plan a).effect = some k → plan.effect = some region →
      (k.compute region.offset plan.blockLength plan.outputTable.offset
        plan.outputTable.offset).Confined plan (plan.seat .effect region).writable := by
    intro k region hk hregion
    obtain rfl := Option.some.inj hk
    have heffect := hanswer.effect
    rw [hregion, hpoly] at heffect
    have hfour : region.size = 4 := Option.some.inj heffect
    have hminds := @volumeKernel_minds (ofVolumes plan a).router .effect region plan.outputs hwell
      (Router.mem_regions_effect.mpr hregion) hfour.ge (fun _ hlt => ⟨_, if_pos hlt⟩) le_rfl .one 0
    have hconfined := hminds.compute.mono Set.sdiff_subset
    rw [MemoryPlan.seat_effect] at hconfined ⊢
    exact hconfined
  obtain ⟨solo, hsolo⟩ := exists_solo (p := ofVolumes plan a) hrenders ha
  obtain ⟨mixed, final, hmix⟩ := renderedMix_of_plan (p := ofVolumes plan a) hplan
    (by change plan.polyphony.isPoly = true; rw [hpoly]; rfl) hrenders heffect ha hsolo
  exact ⟨plan, a, solo, mixed, final, hplan, hpoly, hmix⟩

end Processor

end DspHost
