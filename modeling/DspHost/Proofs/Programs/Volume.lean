import DspHost.Programs.Volume
import DspHost.Proofs.Programs.Parts

/-!
# The volume stage keeps the contract

The volume stage multiplies every sample that it reads by the one value that it keeps. It works
between different buffers and in place as well, since every frame is read before it is written.

## Main results

* `scaleFrames_ends` — what scaling a channel leaves behind
* `volumeKernel_ends` — what a block of all channels leaves behind
* `volumeKernel_minds`, `volumeKernel_renders` — the volume stage owes its host nothing
-/

namespace DspHost

/-- Scaling changes the target only, and every sample of the target is the sample of the source
times the factor. -/
theorem scaleFrames_ends {a : Arena} {source target : SampleBuffer} (factor : Single)
    (hframes : source.frames = target.frames) (hsource : source.offset + source.byteLength ≤ a.size)
    (htarget : target.offset + target.byteLength ≤ a.size)
    (hapart : source = target ∨ Disjoint source.span target.span) :
    (scaleFrames target.frames source.offset target.offset factor).Ends a fun _ b =>
      Arena.ChangedWithin target.span a b ∧ ∀ i < target.frames,
        b.sample (target.offset + 4 * i) = a.sample (source.offset + 4 * i) * factor := by
  have hlength : source.byteLength = 4 * source.frames := Nat.mul_comm _ _
  have hlength' : target.byteLength = 4 * target.frames := Nat.mul_comm _ _
  have hends : (scaleFrames target.frames source.offset target.offset factor).Ends a fun _ b =>
      Arena.ChangedWithin (Set.Ico target.offset (target.offset + 4 * target.frames)) a b ∧
        ∀ i < target.frames,
          b.sample (target.offset + 4 * i) = a.sample (source.offset + 4 * i) * factor := by
    refine Access.Ends.forFrames (fun n b =>
      Arena.ChangedWithin (Set.Ico target.offset (target.offset + 4 * n)) a b ∧
        ∀ i < n, b.sample (target.offset + 4 * i) = a.sample (source.offset + 4 * i) * factor)
      (fun n hn b hb => ?_) ⟨.refl _ a, fun i hi => absurd hi (Nat.not_lt_zero i)⟩
    obtain ⟨hchange, hscaled⟩ := hb
    have hsize := hchange.size_eq
    -- Frames that were written so far are no longer read.
    have hfresh : b.sample (source.offset + 4 * n) = a.sample (source.offset + 4 * n) := by
      refine hchange.sample_eq (Set.disjoint_left.mpr ?_)
      rintro i ⟨hlow, hhigh⟩ ⟨hlow', hhigh'⟩
      rcases hapart with rfl | hapart
      · omega
      · exact Set.disjoint_left.mp hapart ⟨by omega, by omega⟩ ⟨hlow', by omega⟩
    simp only [frameAddress_eq]
    refine .bind (.loadSingle (by omega) (.storeSingle (by omega) ⟨?_, fun i hi => ?_⟩))
    · refine (hchange.mono (Set.Ico_subset_Ico le_rfl (by omega))).trans
        ((Arena.changedWithin_setSample b _ _).mono ?_)
      exact Set.Ico_subset_Ico (by omega) (by omega)
    · rw [hfresh]
      rcases Nat.lt_succ_iff_lt_or_eq.mp hi with hlt | rfl
      · refine ((Arena.changedWithin_setSample b _ _).sample_eq
          (Set.disjoint_left.mpr ?_)).trans (hscaled i hlt)
        rintro j ⟨-, hhigh⟩ ⟨hlow, -⟩
        omega
      · exact Arena.sample_setSample (by omega) _
  rwa [← hlength'] at hends

section Seats

variable {p : MemoryPlan} {a : Arena} {scope : Scope} {region : InstanceRegion} {channels : ℕ}
  {initial : Single}

/-- One channel in a seat. -/
theorem volumeChannel_ends (hwell : p.WellFormed) (ha : p.Hosts a) (factor : Single) {channel : ℕ}
    {source target : SampleBuffer} (hsource : p.source? scope channel = some source)
    (htarget : (p.seat scope region).buffer? channel = some target) :
    (volumeChannel p.blockLength (p.seat scope region).inputs (p.seat scope region).outputs factor
      channel).Ends a fun _ b =>
        Arena.ChangedWithin target.span a b ∧ ∀ i < p.blockLength,
          b.sample (target.offset + 4 * i) = a.sample (source.offset + 4 * i) * factor := by
  have hframes := MemoryPlan.frames_of_buffer htarget
  have hscale := scaleFrames_ends (a := a) factor
    ((MemoryPlan.frames_of_source hsource).trans hframes.symm)
    (ha.size_eq ▸ hwell.source_le_arenaSize hsource)
    (ha.size_eq ▸ hwell.buffer_le_arenaSize htarget)
    ((hwell.source_apart hsource htarget).imp_left And.right)
  rw [hframes] at hscale
  exact .bind (.channel (ha.loadPointer_source hwell hsource)
    (.bind (.channel (ha.loadPointer_buffer hwell htarget) hscale)))

/-- What the output buffers of some channels cover. -/
def Seat.covered (t : Seat) (channels : ℕ) : Set ℕ :=
  {i | ∃ channel < channels, ∃ target, t.buffer? channel = some target ∧ i ∈ target.span}

theorem Seat.covered_mono {t : Seat} {n m : ℕ} (h : n ≤ m) : t.covered n ⊆ t.covered m := by
  rintro i ⟨channel, hlt, target, htarget, hi⟩
  exact ⟨channel, hlt.trans_le h, target, htarget, hi⟩

/-- Output buffers have nothing of the tables. -/
theorem disjoint_tables_covered (hwell : p.WellFormed) (scope : Scope) (region : InstanceRegion)
    (channels : ℕ) :
    Disjoint (p.area RegionKind.tables) ((p.seat scope region).covered channels) := by
  refine (hwell.disjoint_area RegionKind.disjoint_tables_samples).mono_right ?_
  rintro i ⟨channel, -, target, htarget, hi⟩
  exact p.buffers_subset scope region ⟨channel, target, htarget, hi⟩

/-- A block of all channels: every sample of a target is the sample of its source times the value
that the instance keeps. -/
theorem volumeKernel_ends (hwell : p.WellFormed)
    (hregion : region.offset + region.size ≤ p.arenaSize) (hsize : 4 ≤ region.size)
    (hsources : ∀ channel < channels, ∃ source, p.source? scope channel = some source)
    (hchannels : channels ≤ p.outputs) (ha : p.Hosts a) :
    ((volumeKernel channels initial).compute region.offset p.blockLength
      (p.seat scope region).inputs (p.seat scope region).outputs).Ends a fun _ b =>
        Arena.ChangedWithin ((p.seat scope region).covered channels) a b ∧
          ∀ channel < channels, ∀ source target, p.source? scope channel = some source →
            (p.seat scope region).buffer? channel = some target → ∀ i < p.blockLength,
              b.sample (target.offset + 4 * i) =
                a.sample (source.offset + 4 * i) * a.sample region.offset := by
  refine .bind (.loadSingle (by rw [ha.size_eq]; omega) ?_)
  refine Access.Ends.forFrames (fun n b =>
    Arena.ChangedWithin ((p.seat scope region).covered n) a b ∧
      ∀ channel < n, ∀ source target, p.source? scope channel = some source →
        (p.seat scope region).buffer? channel = some target → ∀ i < p.blockLength,
          b.sample (target.offset + 4 * i) =
            a.sample (source.offset + 4 * i) * a.sample region.offset)
    (fun n hn b hb => ?_) ⟨.refl _ a, fun _ hn => absurd hn (Nat.not_lt_zero _)⟩
  obtain ⟨hchange, hscaled⟩ := hb
  have hhosts := ha.of_changedWithin hwell hchange (disjoint_tables_covered hwell scope region n)
  obtain ⟨source, hsource⟩ := hsources n hn
  obtain ⟨target, htarget⟩ := p.exists_buffer scope region (hn.trans_le hchannels)
  refine (volumeChannel_ends hwell hhosts _ hsource htarget).mono fun _ c hc => ?_
  obtain ⟨hwrite, hnew⟩ := hc
  refine ⟨(hchange.mono (Seat.covered_mono (Nat.le_succ n))).trans (hwrite.mono ?_), ?_⟩
  · exact fun i hi => ⟨n, Nat.lt_succ_self n, target, htarget, hi⟩
  intro channel hlt source' target' hsource' htarget' i hi
  have hframe : i < target'.frames := by rwa [MemoryPlan.frames_of_buffer htarget']
  have hframe' : i < source'.frames := by rwa [MemoryPlan.frames_of_source hsource']
  rcases Nat.lt_succ_iff_lt_or_eq.mp hlt with hlt | rfl
  · have hapart := MemoryPlan.disjoint_buffers_of_ne htarget' htarget hlt.ne
    rw [hwrite.sample_eq (hapart.mono_left (SampleBuffer.frame_subset_span hframe))]
    exact hscaled channel hlt source' target' hsource' htarget' i hi
  · obtain rfl := Option.some.inj (hsource.symm.trans hsource')
    obtain rfl := Option.some.inj (htarget.symm.trans htarget')
    rw [hnew i hi, hchange.sample_eq]
    -- The channels before it have left its source alone.
    rw [Set.disjoint_left]
    rintro j hj ⟨other, hother, target', htarget', hj'⟩
    rcases hwell.source_apart hsource htarget' with ⟨rfl, -⟩ | hapart
    · exact absurd hother (lt_irrefl _)
    · exact Set.disjoint_left.mp hapart (SampleBuffer.frame_subset_span hframe' hj) hj'

end Seats

section Contract

variable {r : Router} {scope : Scope} {region : InstanceRegion} {channels : ℕ}

/-- The volume stage keeps its value and writes to its output buffers only. -/
theorem volumeKernel_minds (hwell : r.plan.WellFormed) (hregion : region ∈ r.regions scope)
    (hsize : 4 ≤ region.size)
    (hsources : ∀ channel < channels, ∃ source, r.plan.source? scope channel = some source)
    (hchannels : channels ≤ r.plan.outputs) (initial : Single) (rate : ℕ) :
    (volumeKernel channels initial).Minds r.plan (r.plan.seat scope region) rate
      [(0, initial)] := by
  have hinside := Router.region_le_arenaSize hwell hregion
  refine ⟨fun a ha => ?_, .pure, fun a ha => ?_⟩
  · rw [← ha.size_eq] at hinside
    have hfits : ∀ field ∈ [(0, initial)], field.1 + 4 ≤ region.size := by simpa using hsize
    rw [MemoryPlan.region_seat]
    exact .storeSingle (by omega)
      (storeFields_spec hfits hinside (List.pairwise_singleton _ _) (List.Subset.refl _))
  · rw [MemoryPlan.region_seat]
    refine (volumeKernel_ends hwell hinside hsize hsources hchannels ha).mono
      fun _ b hb => hb.1.mono ?_
    rintro i ⟨channel, -, target, htarget, hi⟩
    exact span_subset_writable hwell hregion htarget hi

/-- As a voice, the volume stage depends on its value and on the input samples alone. -/
theorem volumeKernel_renders (hwell : r.plan.WellFormed) (hregion : region ∈ r.regions .voice)
    (hsize : 4 ≤ region.size) (hchannels : r.plan.outputs ≤ r.plan.inputs) (initial : Single) :
    (volumeKernel r.plan.outputs initial).Renders r.plan (r.plan.seat .voice region) := by
  have hinside := Router.region_le_arenaSize hwell hregion
  have hsources : ∀ channel < r.plan.outputs, ∃ source,
      r.plan.source? .voice channel = some source :=
    fun channel hlt => ⟨_, if_pos (hlt.trans_le hchannels)⟩
  have hends := fun a => @volumeKernel_ends r.plan a .voice region r.plan.outputs initial hwell
    hinside hsize hsources le_rfl
  have hcovered : (r.plan.seat .voice region).covered r.plan.outputs ⊆
      (r.plan.seat .voice region).writable := by
    rintro i ⟨channel, -, target, htarget, hi⟩
    exact .inr ⟨channel, target, htarget, hi⟩
  have hown : Disjoint region.footprint ((r.plan.seat .voice region).covered r.plan.outputs) := by
    refine (Router.disjoint_footprint_samples hwell hregion).mono_right ?_
    rintro i ⟨channel, -, target, htarget, hi⟩
    exact r.plan.buffers_subset .voice region ⟨channel, target, htarget, hi⟩
  refine ⟨fun a ha => ?_, fun a a' b b' ha hb hsame hrun hrun' => ?_⟩
  · rw [MemoryPlan.region_seat]
    exact (hends a ha).mono fun _ b hb => hb.1.mono hcovered
  rw [MemoryPlan.region_seat] at hrun hrun' hsame
  obtain ⟨hchange, hscaled⟩ := (hends a ha).post_of_run hrun
  obtain ⟨hchange', hscaled'⟩ := (hends b hb).post_of_run hrun'
  rintro i (hi | ⟨channel, target, htarget, hi⟩)
  · rw [MemoryPlan.region_seat] at hi
    rw [hchange.eqOn_of_disjoint hown hi, hchange'.eqOn_of_disjoint hown hi]
    exact hsame (.inl hi)
  · have hlength : target.byteLength = 4 * target.frames := Nat.mul_comm _ _
    have hframes := MemoryPlan.frames_of_buffer htarget
    obtain ⟨hlow, hhigh⟩ := hi
    have hlt := MemoryPlan.lt_of_buffer htarget
    obtain ⟨source, hsource⟩ := hsources channel hlt
    have hframe : (i - target.offset) / 4 < r.plan.blockLength := by omega
    -- The byte belongs to one sample, and that is the same product in both runs.
    have hinput : a.sample (source.offset + 4 * ((i - target.offset) / 4)) =
        b.sample (source.offset + 4 * ((i - target.offset) / 4)) := by
      refine Arena.sample_congr (hsame.mono fun j hj => .inr ?_)
      refine (MemoryPlan.holds_inputBuffer hsource).subset_area
        (SampleBuffer.frame_subset_span ?_ hj)
      rwa [MemoryPlan.frames_of_source hsource]
    have hvalue : a.sample region.offset = b.sample region.offset := by
      refine Arena.sample_congr (hsame.mono fun j hj => .inl ⟨hj.1, ?_⟩)
      have := hj.2
      omega
    have hsample := hscaled channel hlt source target hsource htarget _ hframe
    rw [hinput, hvalue, ← hscaled' channel hlt source target hsource htarget _ hframe] at hsample
    exact Arena.eqOn_of_sample_eq hsample ⟨by omega, by omega⟩

end Contract

end DspHost
