import DspHost.Proofs.Memory.Frame
import DspHost.Proofs.Memory.Placement

/-!
# Areas of an arena

The bytes of all regions of some kinds make an area. Areas of different kinds have no byte in
common, so whoever writes to the one leaves the other alone, and everything that a plan names lies
in the area of its kind.

## Main definitions

* `MemoryPlan.area` — the bytes of all regions of some kinds
* `RegionKind.tables`, `RegionKind.samples`, `RegionKind.instances` — groups of kinds

## Main results

* `MemoryPlan.WellFormed.disjoint_area` — areas of different kinds are disjoint
* `MemoryPlan.holds_inputBuffer`, `MemoryPlan.holds_outputBuffer`, `MemoryPlan.holds_mixingBuffer`,
  `MemoryPlan.holds_slot`, `MemoryPlan.footprint_subset_area` — what lies in which area
-/

namespace DspHost

/-- The kinds of pointer tables. -/
def RegionKind.tables : Set RegionKind := {.inputTable, .outputTable, .mixingTable}

/-- The kinds of samples. -/
def RegionKind.samples : Set RegionKind := {.inputSamples, .outputSamples, .mixingSamples}

/-- The kinds of instances. -/
def RegionKind.instances : Set RegionKind := {k | k ∉ tables ∧ k ∉ samples}

theorem RegionKind.disjoint_tables_samples : Disjoint tables samples := by
  simp [tables, samples]

theorem RegionKind.disjoint_tables_instances : Disjoint tables instances :=
  Set.disjoint_left.mpr fun _ hk hk' => hk'.1 hk

theorem RegionKind.disjoint_samples_instances : Disjoint samples instances :=
  Set.disjoint_left.mpr fun _ hk hk' => hk'.2 hk

namespace MemoryPlan

variable {p : MemoryPlan} {kinds kinds' : Set RegionKind} {channel index : ℕ}

/-- The bytes of all regions of some kinds. -/
def area (p : MemoryPlan) (kinds : Set RegionKind) : Set ℕ :=
  {i | ∃ r ∈ p.allRegions, r.kind ∈ kinds ∧ i ∈ Set.Ico r.start r.stop}

theorem area_mono (h : kinds ⊆ kinds') : p.area kinds ⊆ p.area kinds' := by
  rintro i ⟨r, hr, hkind, hi⟩
  exact ⟨r, hr, h hkind, hi⟩

/-- Areas of different kinds have no byte in common. -/
theorem WellFormed.disjoint_area (h : p.WellFormed) (hd : Disjoint kinds kinds') :
    Disjoint (p.area kinds) (p.area kinds') := by
  rw [Set.disjoint_left]
  rintro i ⟨r, hr, hkind, hi⟩ ⟨s, hs, hkind', hi'⟩
  have hne : r.kind ≠ s.kind := fun heq => Set.disjoint_left.mp hd hkind (heq ▸ hkind')
  exact Set.disjoint_left.mp (h.apart_of_kind_ne hr hs hne).disjoint hi hi'

@[simp] theorem size_arena (p : MemoryPlan) : p.arena.size = p.arenaSize :=
  Array.size_replicate

/-- Regions lie in the arena. -/
theorem WellFormed.stop_le_arenaSize (h : p.WellFormed) :
    ∀ r ∈ p.allRegions, r.stop ≤ p.arenaSize := by
  obtain ⟨_, -, -, -, hused, -⟩ := LayoutRequest.pages_of_arenaFor h.pageSize_pos h.arena
  exact fun r hr => (h.stop_le_used r hr).trans hused

/-! ### Parts of regions -/

theorem Holds.subset_area {s : PlacedRegion} (h : p.Holds s) :
    Set.Ico s.start s.stop ⊆ p.area {s.kind} := by
  obtain ⟨r, hr, hkind, hstart, -, hstop, -⟩ := h
  exact fun i hi => ⟨r, hr, hkind, hstart.trans hi.1, hi.2.trans_le hstop⟩

theorem Holds.stop_le_arenaSize {s : PlacedRegion} (h : p.Holds s) (hwell : p.WellFormed) :
    s.stop ≤ p.arenaSize := by
  obtain ⟨r, hr, -, -, -, hstop, -⟩ := h
  exact hstop.trans (hwell.stop_le_arenaSize r hr)

theorem Serves.holds {count : ℕ} {part? : ℕ → Option PlacedRegion} {s : PlacedRegion}
    (h : p.Serves count part?) (hpart : part? index = some s) : p.Holds s := by
  rcases Nat.lt_or_ge index count with hlt | hge
  · obtain ⟨s', hs', hholds⟩ := h.answers index hlt
    obtain rfl := Option.some.inj (hs'.symm.trans hpart)
    exact hholds
  · rw [h.refuses index hge] at hpart
    cases hpart

theorem holds_inputBuffer {b : SampleBuffer} (h : p.inputBuffer? channel = some b) :
    p.Holds (bufferPart .inputSamples b) :=
  (serves_buffers p.inputSamples_mem).holds (Option.map_eq_some_iff.mpr ⟨b, h, rfl⟩)

theorem holds_outputBuffer {b : SampleBuffer} (h : p.outputBuffer? channel = some b) :
    p.Holds (bufferPart .outputSamples b) :=
  (serves_buffers p.outputSamples_mem).holds (Option.map_eq_some_iff.mpr ⟨b, h, rfl⟩)

theorem holds_mixingBuffer {b : SampleBuffer} (h : p.mixingBuffer? channel = some b) :
    p.Holds (bufferPart .mixingSamples b) := by
  obtain ⟨m, hm, hb⟩ := Option.bind_eq_some_iff.mp h
  exact (serves_buffers (mixingSamples_mem hm)).holds (Option.map_eq_some_iff.mpr ⟨b, hb, rfl⟩)

theorem outputBuffer_subset_area {b : SampleBuffer} (h : p.outputBuffer? channel = some b) :
    b.span ⊆ p.area {.outputSamples} :=
  (holds_outputBuffer h).subset_area

theorem mixingBuffer_subset_area {b : SampleBuffer} (h : p.mixingBuffer? channel = some b) :
    b.span ⊆ p.area {.mixingSamples} :=
  (holds_mixingBuffer h).subset_area

/-- The buffers of different channels have no byte in common. -/
theorem disjoint_buffers {kind : RegionKind} {base channels c c' : ℕ} {b b' : SampleBuffer}
    (hmem : p.samplesRegion kind base channels ∈ p.allRegions)
    (hb : p.buffer? base c channels = some b) (hb' : p.buffer? base c' channels = some b')
    (hne : c ≠ c') : Disjoint b.span b'.span := by
  have hapart := (serves_buffers hmem).apart c c' _ _ hne
    (Option.map_eq_some_iff.mpr ⟨b, hb, rfl⟩) (Option.map_eq_some_iff.mpr ⟨b', hb', rfl⟩)
  exact hapart.disjoint

theorem disjoint_outputBuffers {c c' : ℕ} {b b' : SampleBuffer} (hb : p.outputBuffer? c = some b)
    (hb' : p.outputBuffer? c' = some b') (hne : c ≠ c') : Disjoint b.span b'.span :=
  disjoint_buffers p.outputSamples_mem hb hb' hne

theorem disjoint_mixingBuffers {c c' : ℕ} {b b' : SampleBuffer} (hb : p.mixingBuffer? c = some b)
    (hb' : p.mixingBuffer? c' = some b') (hne : c ≠ c') : Disjoint b.span b'.span := by
  obtain ⟨m, hm, hb⟩ := Option.bind_eq_some_iff.mp hb
  rw [mixingBuffer?, hm, Option.bind_some] at hb'
  exact disjoint_buffers (mixingSamples_mem hm) hb hb' hne

theorem lt_of_buffer? {base channels : ℕ} {b : SampleBuffer}
    (h : p.buffer? base channel channels = some b) : channel < channels := by
  unfold buffer? at h
  split_ifs at h with hlt
  exact hlt

theorem frames_of_buffer? {base channels : ℕ} {b : SampleBuffer}
    (h : p.buffer? base channel channels = some b) : b.frames = p.blockLength := by
  unfold buffer? at h
  split_ifs at h
  obtain rfl := Option.some.inj h
  rfl

theorem frames_of_mixingBuffer? {b : SampleBuffer} (h : p.mixingBuffer? channel = some b) :
    b.frames = p.blockLength := by
  obtain ⟨m, -, hb⟩ := Option.bind_eq_some_iff.mp h
  exact frames_of_buffer? hb

theorem holds_slot {kind : RegionKind} {t : PointerTable} {address : ℕ}
    (hmem : tableRegion kind t ∈ p.allRegions) (h : t.slot? channel = some address) :
    p.Holds ⟨kind, address, address + t.width.bytes⟩ :=
  (serves_slots hmem rfl).holds (Option.map_eq_some_iff.mpr ⟨address, h, rfl⟩)

theorem footprint_subset_area {r : InstanceRegion} (h : p.voiceInstance? index = some r) :
    r.footprint ⊆ p.area {p.instanceKind index} :=
  fun _ hi => ⟨_, instance_mem h, rfl, hi⟩

theorem effect_subset_area {e : InstanceRegion} (h : p.effect = some e) :
    e.footprint ⊆ p.area {.effect} :=
  fun _ hi => ⟨_, effect_mem h, rfl, hi⟩

/-- Instances lie in the arena. -/
theorem WellFormed.instance_le_arenaSize (hwell : p.WellFormed) {r : InstanceRegion}
    (h : p.voiceInstance? index = some r) : r.offset + r.size ≤ p.arenaSize :=
  hwell.stop_le_arenaSize _ (instance_mem h)

theorem WellFormed.effect_le_arenaSize (hwell : p.WellFormed) {e : InstanceRegion}
    (h : p.effect = some e) : e.offset + e.size ≤ p.arenaSize :=
  hwell.stop_le_arenaSize _ (effect_mem h)

/-- Different instances have no byte in common. -/
theorem WellFormed.disjoint_footprint (hwell : p.WellFormed) {i j : ℕ} {r s : InstanceRegion}
    (hr : p.voiceInstance? i = some r) (hs : p.voiceInstance? j = some s) (hne : i ≠ j) :
    Disjoint r.footprint s.footprint := by
  have hkinds := instanceKind_ne (lt_instanceCount hr) (lt_instanceCount hs) hne
  exact (hwell.disjoint_area (Set.disjoint_singleton.mpr hkinds)).mono (footprint_subset_area hr)
    (footprint_subset_area hs)

theorem instanceKind_ne_effect (p : MemoryPlan) (index : ℕ) : p.instanceKind index ≠ .effect := by
  unfold instanceKind
  split <;> simp

/-- The instances of the voices have no byte in common with the effect's. -/
theorem WellFormed.disjoint_effect (hwell : p.WellFormed) {r e : InstanceRegion}
    (hr : p.voiceInstance? index = some r) (he : p.effect = some e) :
    Disjoint r.footprint e.footprint :=
  (hwell.disjoint_area (Set.disjoint_singleton.mpr (p.instanceKind_ne_effect index))).mono
    (footprint_subset_area hr) (effect_subset_area he)

end MemoryPlan

end DspHost
