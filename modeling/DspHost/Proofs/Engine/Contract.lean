import DspHost.Engine.Render
import DspHost.Proofs.Engine.Hosting

/-!
# What module code owes its host

Module code is given an instance and two pointer tables. It may write to the instance and to the
buffers of its output table. The host relies on two things: that the code ends in every arena whose
tables point at the planned buffers, and that some fields of the instance are stored at first and
left alone from then on.

## Main definitions

* `Seat`, `MemoryPlan.seat` — an instance with the tables that its code is given
* `Seat.writable` — what the code may write
* `Access.Confined` — code that ends in every hosted arena and writes to some bytes only
* `Kernel.Minds`, `Processor.Minds` — code that stores some fields and then leaves them alone
* `Kernel.Renders` — code whose result depends on its instance and on the input samples alone
* `Router.reserved` — the bytes that no code may write while blocks are rendered

## Main results

* `Router.writable_subset_reserved_compl` — what code may write has nothing of what is reserved
-/

namespace DspHost

/-! ### Seats -/

/-- The bytes of an instance that belong to some fields. -/
def InstanceRegion.bytesOf (r : InstanceRegion) (fields : List (ℕ × Single)) : Set ℕ :=
  {i ∈ r.footprint | ∃ field ∈ fields, i ∈ r.fieldSpan field.1}

/-- An instance with the addresses of the tables that its code is given, and the buffers that its
output table names. -/
structure Seat where
  region : InstanceRegion
  inputs : ℕ
  outputs : ℕ
  buffer? : ℕ → Option SampleBuffer

/-- What code may write: its instance and its output buffers. -/
def Seat.writable (t : Seat) : Set ℕ :=
  t.region.footprint ∪ {i | ∃ channel b, t.buffer? channel = some b ∧ i ∈ b.span}

/-- The seat of an instance. Voices that are mixed write to the mixing buffers; the effect reads and
writes the output buffers. -/
def MemoryPlan.seat (p : MemoryPlan) (scope : Scope) (region : InstanceRegion) : Seat :=
  match scope, p.mixing with
  | .voice, none => ⟨region, p.inputTable.offset, p.outputTable.offset, p.outputBuffer?⟩
  | .voice, some m => ⟨region, p.inputTable.offset, m.table.offset, p.mixingBuffer?⟩
  | .effect, _ => ⟨region, p.outputTable.offset, p.outputTable.offset, p.outputBuffer?⟩

@[simp] theorem MemoryPlan.region_seat (p : MemoryPlan) (scope : Scope) (region : InstanceRegion) :
    (p.seat scope region).region = region := by
  unfold seat
  split <;> rfl

theorem MemoryPlan.seat_of_mixing_eq_none {p : MemoryPlan} (h : p.mixing = none)
    (region : InstanceRegion) : p.seat .voice region =
      ⟨region, p.inputTable.offset, p.outputTable.offset, p.outputBuffer?⟩ := by
  simp [seat, h]

theorem MemoryPlan.seat_of_mixing_eq_some {p : MemoryPlan} {m : MixingArea}
    (h : p.mixing = some m) (region : InstanceRegion) : p.seat .voice region =
      ⟨region, p.inputTable.offset, m.table.offset, p.mixingBuffer?⟩ := by
  simp [seat, h]

theorem MemoryPlan.seat_effect (p : MemoryPlan) (region : InstanceRegion) : p.seat .effect region =
    ⟨region, p.outputTable.offset, p.outputTable.offset, p.outputBuffer?⟩ := by
  cases h : p.mixing <;> rfl

/-- A seat writes to the output buffers, or to the mixing buffers if there are some. -/
theorem MemoryPlan.seat_cases (p : MemoryPlan) (scope : Scope) (region : InstanceRegion) :
    ((p.seat scope region).outputs = p.outputTable.offset ∧
        (p.seat scope region).buffer? = p.outputBuffer?) ∨
      ∃ m, p.mixing = some m ∧ (p.seat scope region).outputs = m.table.offset ∧
        (p.seat scope region).buffer? = p.mixingBuffer? := by
  cases scope with
  | voice =>
    cases hm : p.mixing with
    | none => simp [seat_of_mixing_eq_none hm]
    | some m => exact .inr ⟨m, rfl, by simp [seat_of_mixing_eq_some hm]⟩
  | effect => simp [seat_effect]

/-- The output buffers of a seat hold samples. -/
theorem MemoryPlan.buffers_subset (p : MemoryPlan) (scope : Scope) (region : InstanceRegion) :
    {i | ∃ channel b, (p.seat scope region).buffer? channel = some b ∧ i ∈ b.span} ⊆
      p.area RegionKind.samples := by
  rintro i ⟨channel, b, hb, hi⟩
  rcases p.seat_cases scope region with ⟨-, hbuffer⟩ | ⟨m, -, -, hbuffer⟩
  · rw [hbuffer] at hb
    exact area_mono (by simp [RegionKind.samples]) (outputBuffer_subset_area hb hi)
  · rw [hbuffer] at hb
    exact area_mono (by simp [RegionKind.samples]) (mixingBuffer_subset_area hb hi)

/-! ### Code in hosted arenas -/

namespace Access

/-- The code ends in every hosted arena and writes to some bytes only. -/
def Confined (code : Access Unit) (p : MemoryPlan) (s : Set ℕ) : Prop :=
  ∀ a, p.Hosts a → code.Ends a fun _ b => Arena.ChangedWithin s a b

namespace Confined

variable {ι : Type} {p : MemoryPlan} {s t : Set ℕ} {code next : Access Unit}

theorem mono (h : code.Confined p s) (hst : s ⊆ t) : code.Confined p t :=
  fun a ha => (h a ha).mono fun _ _ hchange => hchange.mono hst

theorem pure : (Pure.pure () : Access Unit).Confined p s := fun a _ => Ends.pure (.refl s a)

/-- Code that does not write to the tables can be followed by other code. -/
theorem bind (hwell : p.WellFormed) (hs : Disjoint (p.area RegionKind.tables) s)
    (h : code.Confined p s) (hnext : next.Confined p s) :
    (do code; next : Access Unit).Confined p s := by
  intro a ha
  refine Ends.bind ((h a ha).mono fun _ b hab => ?_)
  exact (hnext b (ha.of_changedWithin hwell hab hs)).mono fun _ c hbc => hab.trans hbc

theorem forEach {code : ι → Access Unit} {items : List ι} (hwell : p.WellFormed)
    (hs : Disjoint (p.area RegionKind.tables) s)
    (h : ∀ item ∈ items, (code item).Confined p s) : (Access.forEach code items).Confined p s := by
  induction items with
  | nil => exact pure
  | cons item rest ih =>
    refine bind hwell hs (h item List.mem_cons_self) (ih fun other hother => ?_)
    exact h other (List.mem_cons_of_mem item hother)

theorem change {write : Arena → Arena}
    (h : ∀ a, p.Hosts a → Arena.ChangedWithin s a (write a)) : (Access.change write).Confined p s :=
  fun a ha => Ends.change (h a ha)

end Confined

end Access

/-! ### The contract -/

/-- Module code in a seat: it ends, keeps to the seat, stores the values of some fields when the
instance is set up, and leaves these fields alone from then on. -/
structure Kernel.Minds (k : Kernel) (p : MemoryPlan) (t : Seat) (rate : ℕ)
    (fields : List (ℕ × Single)) : Prop where
  init : ∀ a, p.Hosts a → (k.init t.region.offset rate).Ends a fun _ b =>
    Arena.ChangedWithin t.writable a b ∧ ∀ f ∈ fields, b.readField? t.region f.1 = some f.2
  clear : (k.clear t.region.offset).Confined p (t.writable \ t.region.bytesOf fields)
  compute : (k.compute t.region.offset p.blockLength t.inputs t.outputs).Confined p
    (t.writable \ t.region.bytesOf fields)

/-- Code that minds some fields minds each of them. -/
theorem Kernel.Minds.mono {k : Kernel} {p : MemoryPlan} {t : Seat} {rate : ℕ}
    {fields fields' : List (ℕ × Single)} (h : k.Minds p t rate fields)
    (hfields : fields' ⊆ fields) : k.Minds p t rate fields' := by
  have hbytes : t.region.bytesOf fields' ⊆ t.region.bytesOf fields := by
    rintro i ⟨hinside, field, hfield, hi⟩
    exact ⟨hinside, field, hfields hfield, hi⟩
  refine ⟨fun a ha => ?_, h.clear.mono ?_, h.compute.mono ?_⟩
  · refine (h.init a ha).mono fun _ b hb => ⟨hb.1, fun field hfield => ?_⟩
    exact hb.2 field (hfields hfield)
  · exact Set.sdiff_subset_sdiff_right hbytes
  · exact Set.sdiff_subset_sdiff_right hbytes

/-- Code that renders: it ends, writes its instance and its output buffers only, and what it leaves
there depends on its instance and on the input samples alone. -/
structure Kernel.Renders (k : Kernel) (p : MemoryPlan) (t : Seat) : Prop where
  confined : (k.compute t.region.offset p.blockLength t.inputs t.outputs).Confined p t.writable
  determined : ∀ a a' b b', p.Hosts a → p.Hosts b →
    Set.EqOn a.byteAt b.byteAt (t.region.footprint ∪ p.area {.inputSamples}) →
      (k.compute t.region.offset p.blockLength t.inputs t.outputs).run a = (.ok (), a') →
        (k.compute t.region.offset p.blockLength t.inputs t.outputs).run b = (.ok (), b') →
          Set.EqOn a'.byteAt b'.byteAt t.writable

namespace Processor

/-- The code that runs in the instances of a scope. -/
def code? (p : Processor) : Scope → Option Kernel
  | .voice => some p.kernel
  | .effect => p.effect

/-- All module code of a processor minds the fields of its scope. -/
def Minds (p : Processor) (rate : ℕ) (fields : Scope → List (ℕ × Single)) : Prop :=
  ∀ scope, ∀ region ∈ p.router.regions scope, ∀ k, p.code? scope = some k →
    k.Minds p.plan (p.plan.seat scope region) rate (fields scope)

theorem Minds.mono {p : Processor} {rate : ℕ} {fields fields' : Scope → List (ℕ × Single)}
    (h : p.Minds rate fields) (hfields : ∀ scope, fields' scope ⊆ fields scope) :
    p.Minds rate fields' :=
  fun scope region hregion k hk => (h scope region hregion k hk).mono (hfields scope)

end Processor

/-! ### Reserved bytes -/

namespace Router

variable {r : Router} {scope scope' : Scope} {region region' : InstanceRegion}

/-- The bytes that the host relies on while blocks are rendered: the tables, and the fields that are
minded. -/
def reserved (r : Router) (fields : Scope → List (ℕ × Single)) : Set ℕ :=
  r.plan.area RegionKind.tables ∪
    {i | ∃ scope, ∃ region ∈ r.regions scope, i ∈ region.bytesOf (fields scope)}

theorem mem_regions_voice :
    region ∈ r.regions .voice ↔ ∃ index, r.plan.voiceInstance? index = some region := by
  change region ∈ r.plan.voiceInstances ↔ _
  rw [MemoryPlan.voiceInstances, List.mem_filterMap]
  constructor
  · rintro ⟨index, -, h⟩
    exact ⟨index, h⟩
  · rintro ⟨index, h⟩
    exact ⟨index, List.mem_range.mpr (MemoryPlan.lt_instanceCount h), h⟩

theorem mem_regions_effect : region ∈ r.regions .effect ↔ r.plan.effect = some region :=
  Option.mem_toList

/-- Instances lie in the areas of instances. -/
theorem footprint_subset (h : region ∈ r.regions scope) :
    region.footprint ⊆ r.plan.area RegionKind.instances := by
  cases scope with
  | voice =>
    obtain ⟨index, hindex⟩ := mem_regions_voice.mp h
    refine (MemoryPlan.footprint_subset_area hindex).trans (MemoryPlan.area_mono ?_)
    rw [Set.singleton_subset_iff, MemoryPlan.instanceKind]
    split <;> simp [RegionKind.instances, RegionKind.tables, RegionKind.samples]
  | effect =>
    refine (MemoryPlan.effect_subset_area (mem_regions_effect.mp h)).trans
      (MemoryPlan.area_mono ?_)
    simp [RegionKind.instances, RegionKind.tables, RegionKind.samples]

/-- Instances lie in the arena. -/
theorem region_le_arenaSize (hwell : r.plan.WellFormed) (h : region ∈ r.regions scope) :
    region.offset + region.size ≤ r.plan.arenaSize := by
  cases scope with
  | voice =>
    obtain ⟨index, hindex⟩ := mem_regions_voice.mp h
    exact hwell.instance_le_arenaSize hindex
  | effect => exact hwell.effect_le_arenaSize (mem_regions_effect.mp h)

/-- Instances are the same or have no byte in common. -/
theorem regions_apart (hwell : r.plan.WellFormed) (h : region ∈ r.regions scope)
    (h' : region' ∈ r.regions scope') :
    (scope = scope' ∧ region = region') ∨ Disjoint region.footprint region'.footprint := by
  cases scope with
  | voice =>
    obtain ⟨index, hindex⟩ := mem_regions_voice.mp h
    cases scope' with
    | voice =>
      obtain ⟨index', hindex'⟩ := mem_regions_voice.mp h'
      by_cases heq : index = index'
      · subst heq
        exact .inl ⟨rfl, Option.some.inj (hindex.symm.trans hindex')⟩
      · exact .inr (hwell.disjoint_footprint hindex hindex' heq)
    | effect => exact .inr (hwell.disjoint_effect hindex (mem_regions_effect.mp h'))
  | effect =>
    cases scope' with
    | voice =>
      obtain ⟨index', hindex'⟩ := mem_regions_voice.mp h'
      exact .inr (hwell.disjoint_effect hindex' (mem_regions_effect.mp h)).symm
    | effect =>
      have heffect := (mem_regions_effect.mp h).symm.trans (mem_regions_effect.mp h')
      exact .inl ⟨rfl, Option.some.inj heffect⟩

/-- Instances hold no samples. -/
theorem disjoint_footprint_samples (hwell : r.plan.WellFormed) (h : region ∈ r.regions scope) :
    Disjoint region.footprint (r.plan.area RegionKind.samples) :=
  ((hwell.disjoint_area RegionKind.disjoint_samples_instances).mono_right (footprint_subset h)).symm

/-- What code may write has nothing of the tables, and nothing of other instances. -/
theorem disjoint_writable {s : Set ℕ} (hsamples : Disjoint s (r.plan.area RegionKind.samples))
    (hapart : Disjoint s region.footprint) :
    Disjoint s (r.plan.seat scope region).writable := by
  refine Disjoint.union_right ?_ (hsamples.mono_right (r.plan.buffers_subset scope region))
  rwa [MemoryPlan.region_seat]

/-- Samples are not reserved. -/
theorem samples_subset_reserved_compl (hwell : r.plan.WellFormed)
    (fields : Scope → List (ℕ × Single)) :
    r.plan.area RegionKind.samples ⊆ (r.reserved fields)ᶜ := by
  rintro i hi (htable | ⟨scope, region, hregion, hkept, -⟩)
  · have hapart := hwell.disjoint_area RegionKind.disjoint_tables_samples
    exact Set.disjoint_left.mp hapart htable hi
  · exact Set.disjoint_left.mp (disjoint_footprint_samples hwell hregion) hkept hi

/-- What code may write, but for the fields that it minds, is not reserved. -/
theorem writable_subset_reserved_compl (hwell : r.plan.WellFormed)
    (fields : Scope → List (ℕ × Single)) (h : region ∈ r.regions scope) :
    (r.plan.seat scope region).writable \ region.bytesOf (fields scope) ⊆
      (r.reserved fields)ᶜ := by
  rintro i ⟨hi | hi, hfree⟩
  · -- A byte of the instance is no table's, and it is reserved only for fields of this instance.
    rw [MemoryPlan.region_seat] at hi
    rintro (htable | ⟨scope', region', hregion', hkept⟩)
    · have hapart := hwell.disjoint_area RegionKind.disjoint_tables_instances
      exact Set.disjoint_left.mp hapart htable (footprint_subset h hi)
    · rcases regions_apart hwell h hregion' with ⟨rfl, rfl⟩ | hapart
      · exact hfree hkept
      · exact Set.disjoint_left.mp hapart hi hkept.1
  · exact samples_subset_reserved_compl hwell fields (r.plan.buffers_subset scope region hi)

theorem disjoint_tables_reserved_compl (r : Router) (fields : Scope → List (ℕ × Single)) :
    Disjoint (r.plan.area RegionKind.tables) (r.reserved fields)ᶜ :=
  Set.disjoint_compl_right_iff_subset.mpr Set.subset_union_left

end Router

end DspHost
