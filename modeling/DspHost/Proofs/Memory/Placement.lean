import DspHost.Proofs.Memory.Cursor
import DspHost.Proofs.Outcome
import Mathlib

/-!
# Where a plan puts things

Whatever is asked for, the regions of a plan lie apart from each other inside the arena, in either
order that the planner uses. Every table word, sample buffer and instance that a plan names lies in
the region of its kind, and the arena is the smallest power of two of pages that will do.

## Main definitions

* `MemoryPlan.Tiled` — the regions follow one another up to the end of what is used
* `MemoryPlan.WellFormed` — what planning makes sure of
* `MemoryPlan.Serves` — an accessor names parts of its own region, one for every index
* `MemoryPlan.Sound` — what can be relied on by whoever uses a plan

## Main results

* `LayoutRequest.wellFormed_of_plan` — plans are well formed
* `LayoutRequest.sound_of_plan` — plans can be relied on
-/

namespace DspHost

/-! ### The planner's steps -/

namespace LayoutRequest

theorem checked_eq_ok_iff {n m : ℕ} : checked n = .ok m ↔ n < addressLimit ∧ n = m := by
  unfold checked
  split <;> simp_all

theorem take_eq_ok_iff {align cursor length : ℕ} {x : ℕ × ℕ} :
    take align cursor length = .ok x ↔
      alignUp cursor align < addressLimit ∧ alignUp cursor align + length < addressLimit ∧
        (alignUp cursor align, alignUp cursor align + length) = x := by
  simp only [take, bind_eq_ok_iff, checked_eq_ok_iff, pure, Except.pure, Except.ok.injEq]
  constructor
  · rintro ⟨start, ⟨hstart, rfl⟩, stop, ⟨hstop, rfl⟩, hx⟩
    exact ⟨hstart, hstop, hx⟩
  · rintro ⟨hstart, hstop, hx⟩
    exact ⟨_, ⟨hstart, rfl⟩, _, ⟨hstop, rfl⟩, hx⟩

variable {align cursor length : ℕ} {x : ℕ × ℕ}

/-- What is taken is laid out. -/
theorem laid_of_take (positive : 0 < align) (kind : RegionKind)
    (h : take align cursor length = .ok x) :
    Laid align cursor [⟨kind, x.1, x.1 + length⟩] x.2 := by
  obtain ⟨-, -, rfl⟩ := take_eq_ok_iff.mp h
  exact Laid.region positive kind cursor length

/-- An instance is laid out with the padding behind it. -/
theorem laid_of_take_padded (positive : 0 < align) (kind : RegionKind)
    (h : take align cursor (alignUp length align) = .ok x) :
    Laid align cursor [⟨kind, x.1, x.1 + length⟩] x.2 := by
  obtain ⟨-, -, rfl⟩ := take_eq_ok_iff.mp h
  exact Laid.padded positive kind cursor length

/-- Instances that are taken together are laid out one by one. -/
theorem laid_of_take_replicated (positive : 0 < align) (kind : ℕ → RegionKind) {count : ℕ}
    (h : take align cursor (alignUp length align * count) = .ok x) :
    Laid align cursor
      ((List.range count).map fun i =>
        ⟨kind i, x.1 + i * alignUp length align, x.1 + i * alignUp length align + length⟩) x.2 := by
  obtain ⟨-, -, rfl⟩ := take_eq_ok_iff.mp h
  rw [Nat.mul_comm]
  exact Laid.replicated positive kind cursor length count

/-- The effect, if there is one, is laid out with the padding behind it. -/
theorem laid_of_takeEffect (positive : 0 < align) {size : Option ℕ}
    {y : Option InstanceRegion × ℕ} (h : takeEffect align cursor size = .ok y) :
    Laid align cursor (y.1.map (MemoryPlan.instanceRegion .effect)).toList y.2 := by
  cases size with
  | none =>
    obtain rfl := Except.ok.inj h
    exact .nil le_rfl (le_alignUp positive cursor)
  | some size =>
    simp only [takeEffect, bind_eq_ok_iff, checked_eq_ok_iff] at h
    obtain ⟨_, ⟨-, rfl⟩, x, htake, hy⟩ := h
    obtain rfl := Except.ok.inj hy
    exact laid_of_take_padded positive .effect htake

/-! ### Pages -/

theorem le_leastPowerOfTwo (n : ℕ) : n ≤ leastPowerOfTwo n := by
  unfold leastPowerOfTwo
  split
  · assumption
  · -- The power is taken of n - 1, so that it is n itself if n is a power of two.
    have hlt : n - 1 < 2 ^ ((n - 1).log2 + 1) := Nat.lt_log2_self
    exact Nat.le_of_pred_lt hlt

theorem leastPowerOfTwo_eq_pow (n : ℕ) : ∃ k, leastPowerOfTwo n = 2 ^ k := by
  unfold leastPowerOfTwo
  split
  · exact ⟨0, rfl⟩
  · exact ⟨_, rfl⟩

/-- Half the least power of two is too little. -/
theorem half_leastPowerOfTwo_lt {n : ℕ} (h : 1 < n) : leastPowerOfTwo n / 2 < n := by
  have hne : n - 1 ≠ 0 := by omega
  have hlow : 2 ^ (n - 1).log2 ≤ n - 1 := Nat.log2_self_le hne
  have hpower : leastPowerOfTwo n = 2 ^ (n - 1).log2 * 2 := if_neg (by omega)
  omega

/-- The pages of an arena: a power of two of them, and the least that holds what is used. -/
theorem pages_of_arenaFor {pageSize used arenaSize : ℕ} (positive : 0 < pageSize)
    (h : arenaFor pageSize used = .ok arenaSize) :
    ∃ pages, arenaSize = pages * pageSize ∧ 2 ≤ pages ∧ (∃ k, pages = 2 ^ k) ∧
      used ≤ arenaSize ∧ (2 < pages → pages / 2 * pageSize < used) := by
  simp only [arenaFor, bind_eq_ok_iff, checked_eq_ok_iff] at h
  obtain ⟨_, ⟨-, rfl⟩, -, hsize⟩ := h
  set needed := (used + (pageSize - 1)) / pageSize with hneeded
  have hcover : used ≤ needed * pageSize := le_alignUp positive used
  refine ⟨max (leastPowerOfTwo needed) leastPages, hsize.symm, le_max_right _ _, ?_, ?_, ?_⟩
  · rcases max_choice (leastPowerOfTwo needed) leastPages with heq | heq
    · rw [heq]
      exact leastPowerOfTwo_eq_pow needed
    · exact ⟨1, heq⟩
  · rw [← hsize]
    exact hcover.trans (Nat.mul_le_mul_right pageSize
      ((le_leastPowerOfTwo needed).trans (le_max_left _ _)))
  · intro hmany
    -- More than the least number of pages are there only because they are needed.
    have hlarge : leastPages < leastPowerOfTwo needed := by
      rcases lt_max_iff.mp hmany with hlt | hlt
      · exact hlt
      · exact absurd hlt (lt_irrefl _)
    rw [max_eq_left hlarge.le]
    have hneed : 1 < needed := by
      by_contra hfew
      have hone : leastPowerOfTwo needed = 1 := if_pos (by omega)
      rw [hone] at hlarge
      exact absurd hlarge (by decide)
    have hhalf := half_leastPowerOfTwo_lt hneed
    calc
      leastPowerOfTwo needed / 2 * pageSize ≤ (needed - 1) * pageSize :=
        Nat.mul_le_mul_right pageSize (by omega)
      _ = needed * pageSize - pageSize := Nat.sub_one_mul needed pageSize
      _ < used := by
        -- The pages that are needed were rounded up by less than one page.
        have hround := alignUp_lt positive used
        have hpage := Nat.mul_le_mul_right pageSize hneed.le
        unfold alignUp at hround
        rw [← hneeded] at hround
        omega

end LayoutRequest

/-- However many voices are asked for, there is an instance. -/
theorem Polyphony.instances_ofRequested_pos (voices : ℕ) : 0 < (ofRequested voices).instances := by
  unfold ofRequested
  split <;> simp [instances, leastVoices]

/-! ### Well-formed plans -/

namespace MemoryPlan

/-- The regions of a plan, empty ones included, follow one another from the beginning of the arena
to the end of what is used. -/
def Tiled (p : MemoryPlan) (align : ℕ) : Prop :=
  ∃ rs : List PlacedRegion, rs.Perm p.allRegions ∧ Laid align 0 rs p.used

/-- Every region starts at a multiple of this. -/
def alignment (p : MemoryPlan) : ℕ := max p.pointerWidth.bytes sampleWidth

/-- What planning makes sure of. -/
structure WellFormed (p : MemoryPlan) : Prop where
  /-- Regions lie one behind the other. -/
  tiled : p.Tiled p.alignment
  /-- The input table has a word for every input. -/
  inputTable : p.inputTable = ⟨p.inputTable.offset, p.inputs, p.pointerWidth⟩
  /-- The output table has a word for every output. -/
  outputTable : p.outputTable = ⟨p.outputTable.offset, p.outputs, p.pointerWidth⟩
  /-- The mixing table has a word for every output. -/
  mixingTable : ∀ m, p.mixing = some m → m.table = ⟨m.table.offset, p.outputs, p.pointerWidth⟩
  /-- Voices are mixed, a single instance is not. -/
  mixing_isSome : p.mixing.isSome = p.polyphony.isPoly
  /-- The arena is made of pages. -/
  arena : LayoutRequest.arenaFor p.pageSize p.used = .ok p.arenaSize
  /-- Pages are not empty. -/
  pageSize_pos : 0 < p.pageSize

end MemoryPlan

namespace LayoutRequest

theorem alignment_pos (r : LayoutRequest) : 0 < r.alignment :=
  r.pointerWidth.bytes_pos.trans_le (le_max_left _ _)

theorem samplesRegion_eq (p : MemoryPlan) (kind : RegionKind) (base channels : ℕ) :
    p.samplesRegion kind base channels =
      ⟨kind, base, base + channels * (p.blockLength * DspHost.sampleWidth)⟩ := by
  rw [MemoryPlan.samplesRegion, Nat.mul_assoc]

theorem wellFormed_planMono {r : LayoutRequest} {p : MemoryPlan} (hpage : 0 < r.pageSize)
    (hwidth : r.sampleWidth = DspHost.sampleWidth)
    (h : r.planMono (alignUp r.instanceSize r.alignment) (r.blockLength * r.sampleWidth) = .ok p) :
    p.WellFormed := by
  have positive := r.alignment_pos
  have halign : r.alignment = max r.pointerWidth.bytes DspHost.sampleWidth := by
    rw [alignment, hwidth]
  simp only [planMono, bind_eq_ok_iff, checked_eq_ok_iff] at h
  obtain ⟨x₁, hsole, _, ⟨-, rfl⟩, x₂, hinTable, _, ⟨-, rfl⟩, x₃, houtTable, _, ⟨-, rfl⟩, x₄, hin,
    _, ⟨-, rfl⟩, x₅, hout, arenaSize, harena, hp⟩ := h
  obtain rfl := Except.ok.inj hp
  -- Every take is a piece of the layout, in the order in which the planner goes.
  have hlaid := ((((laid_of_take_padded positive .soleInstance hsole).append positive
    (laid_of_take positive .inputTable hinTable)).append positive
    (laid_of_take positive .outputTable houtTable)).append positive
    (laid_of_take positive .inputSamples hin)).append positive
    (laid_of_take positive .outputSamples hout)
  refine ⟨?_, rfl, rfl, by simp, rfl, harena, hpage⟩
  rw [MemoryPlan.alignment, ← halign]
  refine ⟨_, ?_, hlaid⟩
  simp only [MemoryPlan.allRegions, samplesRegion_eq, MemoryPlan.tableRegion,
    MemoryPlan.instanceRegion, PointerTable.byteLength, hwidth, Option.map_none, Option.toList_none,
    List.append_nil]
  -- The single instance is taken first and listed last.
  exact (List.perm_append_singleton _ _).symm

theorem wellFormed_planPoly {r : LayoutRequest} {p : MemoryPlan} {voices : ℕ}
    (hpage : 0 < r.pageSize) (hwidth : r.sampleWidth = DspHost.sampleWidth)
    (h : r.planPoly voices (alignUp r.instanceSize r.alignment) (r.blockLength * r.sampleWidth) =
      .ok p) :
    p.WellFormed := by
  have positive := r.alignment_pos
  have halign : r.alignment = max r.pointerWidth.bytes DspHost.sampleWidth := by
    rw [alignment, hwidth]
  simp only [planPoly, bind_eq_ok_iff, checked_eq_ok_iff] at h
  obtain ⟨_, ⟨-, rfl⟩, x₁, hinTable, _, ⟨-, rfl⟩, x₂, houtTable, _, ⟨-, rfl⟩, x₃, hmixTable,
    _, ⟨-, rfl⟩, x₄, hin, _, ⟨-, rfl⟩, x₅, hout, _, ⟨-, rfl⟩, x₆, hmix, _, ⟨-, rfl⟩, x₇, hvoices,
    x₈, heffect, arenaSize, harena, hp⟩ := h
  obtain rfl := Except.ok.inj hp
  have hlaid := (((((((laid_of_take positive .inputTable hinTable).append positive
    (laid_of_take positive .outputTable houtTable)).append positive
    (laid_of_take positive .mixingTable hmixTable)).append positive
    (laid_of_take positive .inputSamples hin)).append positive
    (laid_of_take positive .outputSamples hout)).append positive
    (laid_of_take positive .mixingSamples hmix)).append positive
    (laid_of_take_replicated positive .voice hvoices)).append positive
    (laid_of_takeEffect positive heffect)
  refine ⟨?_, rfl, rfl, by simp, rfl, harena, hpage⟩
  rw [MemoryPlan.alignment, ← halign]
  refine ⟨_, ?_, hlaid⟩
  simp only [MemoryPlan.allRegions, samplesRegion_eq, MemoryPlan.tableRegion,
    MemoryPlan.instanceRegion, PointerTable.byteLength, hwidth]
  -- Only the mixing table and the input and output samples stand in another order.
  refine (List.Perm.append_right _ ?_).append_right _
  exact ((@List.perm_middle _ _ [_, _] [_]).symm.cons _).cons _

theorem validate_eq_ok_iff {r : LayoutRequest} :
    r.validate = .ok () ↔
      r.blockLength ≠ 0 ∧ r.pageSize ≠ 0 ∧ r.sampleWidth = DspHost.sampleWidth := by
  unfold validate
  split_ifs <;> simp_all

/-- What is left of planning once the request is valid. -/
theorem plan_eq_ok {r : LayoutRequest} {p : MemoryPlan} (h : r.plan = .ok p) :
    r.validate = .ok () ∧
      ((Polyphony.ofRequested r.voices = .mono ∧
          r.planMono (alignUp r.instanceSize r.alignment) (r.blockLength * r.sampleWidth) = .ok p) ∨
        ∃ voices, Polyphony.ofRequested r.voices = .poly voices ∧
          r.planPoly voices (alignUp r.instanceSize r.alignment) (r.blockLength * r.sampleWidth) =
            .ok p) := by
  simp only [plan, bind_eq_ok_iff, checked_eq_ok_iff] at h
  obtain ⟨_, hvalid, _, ⟨-, rfl⟩, _, ⟨-, rfl⟩, h⟩ := h
  refine ⟨hvalid, ?_⟩
  cases hpolyphony : Polyphony.ofRequested r.voices with
  | mono => exact .inl ⟨rfl, by rwa [hpolyphony] at h⟩
  | poly voices => exact .inr ⟨voices, rfl, by rwa [hpolyphony] at h⟩

/-- Plans are well formed. -/
theorem wellFormed_of_plan {r : LayoutRequest} {p : MemoryPlan} (h : r.plan = .ok p) :
    p.WellFormed := by
  obtain ⟨hvalid, hcases⟩ := plan_eq_ok h
  obtain ⟨-, hpage, hwidth⟩ := validate_eq_ok_iff.mp hvalid
  rcases hcases with ⟨-, h⟩ | ⟨voices, -, h⟩
  · exact wellFormed_planMono (Nat.pos_of_ne_zero hpage) hwidth h
  · exact wellFormed_planPoly (Nat.pos_of_ne_zero hpage) hwidth h

/-- The plan is of the sizes that were asked for. -/
structure AnsweredBy (r : LayoutRequest) (p : MemoryPlan) : Prop where
  polyphony : p.polyphony = Polyphony.ofRequested r.voices
  blockLength : p.blockLength = r.blockLength
  pointerWidth : p.pointerWidth = r.pointerWidth
  inputs : p.inputs = r.inputs
  outputs : p.outputs = r.outputs
  instanceSize : p.instanceSize = r.instanceSize
  effect : p.effect.map (·.size) = if p.polyphony.isPoly then r.effectSize else none

/-- The effect takes its size from the request. -/
theorem size_of_takeEffect {align cursor : ℕ} {size : Option ℕ}
    {y : Option InstanceRegion × ℕ} (h : takeEffect align cursor size = .ok y) :
    y.1.map (·.size) = size := by
  cases size with
  | none =>
    obtain rfl := Except.ok.inj h
    rfl
  | some size =>
    simp only [takeEffect, bind_eq_ok_iff] at h
    obtain ⟨_, -, _, -, hy⟩ := h
    obtain rfl := Except.ok.inj hy
    rfl

theorem answeredBy_of_plan {r : LayoutRequest} {p : MemoryPlan} (h : r.plan = .ok p) :
    r.AnsweredBy p := by
  obtain ⟨-, ⟨hpolyphony, h⟩ | ⟨voices, hpolyphony, h⟩⟩ := plan_eq_ok h
  · simp only [planMono, bind_eq_ok_iff] at h
    obtain ⟨_, -, _, -, _, -, _, -, _, -, _, -, _, -, _, -, _, -, _, -, hp⟩ := h
    obtain rfl := Except.ok.inj hp
    exact ⟨hpolyphony.symm, rfl, rfl, rfl, rfl, rfl, rfl⟩
  · simp only [planPoly, bind_eq_ok_iff] at h
    -- Of all that was taken, only the effect depends on more than the request's numbers.
    obtain ⟨_, -, _, -, _, -, _, -, _, -, _, -, _, -, _, -, _, -, _, -, _, -, _, -, _, -, _, -,
      _, heffect, _, -, hp⟩ := h
    obtain rfl := Except.ok.inj hp
    exact ⟨hpolyphony.symm, rfl, rfl, rfl, rfl, rfl, size_of_takeEffect heffect⟩

end LayoutRequest

/-! ### What lies where -/

namespace MemoryPlan

namespace WellFormed

variable {p : MemoryPlan}

theorem alignment_pos (p : MemoryPlan) : 0 < p.alignment :=
  p.pointerWidth.bytes_pos.trans_le (le_max_left _ _)

/-- Regions share no byte. -/
theorem apart (h : p.WellFormed) : p.allRegions.Pairwise PlacedRegion.Apart := by
  obtain ⟨rs, hperm, hlaid⟩ := h.tiled
  refine (hperm.pairwise_iff PlacedRegion.Apart.symm).mp ?_
  exact (hlaid.pairwise (alignment_pos p)).imp fun {_ _} => Or.inl

theorem dvd_start (h : p.WellFormed) : ∀ r ∈ p.allRegions, p.alignment ∣ r.start := by
  obtain ⟨rs, hperm, hlaid⟩ := h.tiled
  exact fun r hr => hlaid.dvd_start r (hperm.mem_iff.mpr hr)

theorem stop_le_used (h : p.WellFormed) : ∀ r ∈ p.allRegions, r.stop ≤ p.used := by
  obtain ⟨rs, hperm, hlaid⟩ := h.tiled
  exact fun r hr => hlaid.stop_le (alignment_pos p) r (hperm.mem_iff.mpr hr)

/-- Without samples to mix there is a single instance. -/
theorem polyphony_eq_mono (h : p.WellFormed) (hmixing : p.mixing = none) :
    p.polyphony = .mono := by
  have hpoly := h.mixing_isSome
  rw [hmixing] at hpoly
  cases hpolyphony : p.polyphony with
  | mono => rfl
  | poly voices =>
    rw [hpolyphony] at hpoly
    cases hpoly

/-- Regions of different kinds share no byte. -/
theorem apart_of_kind_ne (h : p.WellFormed) {r s : PlacedRegion} (hr : r ∈ p.allRegions)
    (hs : s ∈ p.allRegions) (hne : r.kind ≠ s.kind) : r.Apart s := by
  have : Std.Symm PlacedRegion.Apart := ⟨fun _ _ => PlacedRegion.Apart.symm⟩
  exact h.apart.forall hr hs fun heq => hne (congrArg _ heq)

end WellFormed

/-! ### Accessors -/

/-- What a single instance or a voice is for. -/
def instanceKind (p : MemoryPlan) (index : ℕ) : RegionKind :=
  match p.polyphony with
  | .mono => .soleInstance
  | .poly _ => .voice index

/-- The word of a channel as a part of its table. -/
def slotPart (kind : RegionKind) (t : PointerTable) (channel : ℕ) : Option PlacedRegion :=
  (t.slot? channel).map fun address => ⟨kind, address, address + t.width.bytes⟩

/-- A sample buffer as a part of an area of them. -/
def bufferPart (kind : RegionKind) (b : SampleBuffer) : PlacedRegion :=
  ⟨kind, b.offset, b.offset + b.byteLength⟩

/-- A part lies in the region of its kind, and that region is listed unless the part is empty. -/
def Holds (p : MemoryPlan) (s : PlacedRegion) : Prop :=
  ∃ r ∈ p.allRegions, r.kind = s.kind ∧ r.start ≤ s.start ∧ s.start ≤ s.stop ∧ s.stop ≤ r.stop ∧
    (s.start < s.stop → r ∈ p.regions)

/-- An accessor answers exactly the indices below a count, each with a part of its own region, and
different indices with parts that share no byte. -/
structure Serves (p : MemoryPlan) (count : ℕ) (part? : ℕ → Option PlacedRegion) : Prop where
  answers : ∀ i < count, ∃ s, part? i = some s ∧ p.Holds s
  refuses : ∀ i, count ≤ i → part? i = none
  apart : ∀ i j s t, i ≠ j → part? i = some s → part? j = some t → s.Apart t

theorem holds_of_mem {p : MemoryPlan} {r s : PlacedRegion} (hr : r ∈ p.allRegions)
    (hkind : r.kind = s.kind) (hstart : r.start ≤ s.start) (hordered : s.start ≤ s.stop)
    (hstop : s.stop ≤ r.stop) : p.Holds s := by
  refine ⟨r, hr, hkind, hstart, hordered, hstop, fun hfull => ?_⟩
  exact List.mem_filter.mpr ⟨hr, by simpa using (hstart.trans_lt hfull).trans_le hstop⟩

/-- Rows of one length behind each other serve the indices below their number. -/
theorem serves_of_rows {p : MemoryPlan} {kind : RegionKind} {base count width : ℕ}
    {part? : ℕ → Option PlacedRegion}
    (hmem : ⟨kind, base, base + count * width⟩ ∈ p.allRegions)
    (hrow : ∀ i, part? i =
      if i < count then some ⟨kind, base + i * width, base + i * width + width⟩ else none) :
    p.Serves count part? := by
  -- A row ends before every later one begins, and before the region ends.
  have hbelow {i j : ℕ} (h : i < j) : i * width + width ≤ j * width := by
    rw [← Nat.succ_mul]
    exact Nat.mul_le_mul_right width h
  refine ⟨fun i hi => ?_, fun i hi => ?_, fun i j s t hne hs ht => ?_⟩
  · refine ⟨_, (hrow i).trans (if_pos hi), holds_of_mem hmem rfl ?_ ?_ ?_⟩
    · exact Nat.le_add_right _ _
    · exact Nat.le_add_right _ _
    · have := hbelow hi
      change base + i * width + width ≤ base + count * width
      omega
  · exact (hrow i).trans (if_neg hi.not_gt)
  · rw [hrow] at hs ht
    split_ifs at hs ht
    obtain rfl := Option.some.inj hs
    obtain rfl := Option.some.inj ht
    rcases Nat.lt_or_gt_of_ne hne with hlt | hlt
    · have := hbelow hlt
      exact .inl (by change base + i * width + width ≤ base + j * width; omega)
    · have := hbelow hlt
      exact .inr (by change base + j * width + width ≤ base + i * width; omega)

/-- The words of a table serve its channels. -/
theorem serves_slots {p : MemoryPlan} {kind : RegionKind} {t : PointerTable} {count : ℕ}
    (hmem : tableRegion kind t ∈ p.allRegions) (hentries : t.entries = count) :
    p.Serves count (slotPart kind t) := by
  subst hentries
  refine serves_of_rows hmem fun i => ?_
  unfold slotPart PointerTable.slot?
  split_ifs <;> rfl

/-- The buffers of an area serve its channels. -/
theorem serves_buffers {p : MemoryPlan} {kind : RegionKind} {base channels : ℕ}
    (hmem : p.samplesRegion kind base channels ∈ p.allRegions) :
    p.Serves channels fun channel => (p.buffer? base channel channels).map (bufferPart kind) := by
  rw [samplesRegion, Nat.mul_assoc] at hmem
  refine serves_of_rows hmem fun i => ?_
  unfold buffer?
  split_ifs
  · rw [Nat.mul_assoc]
    rfl
  · rfl

theorem inputTable_mem (p : MemoryPlan) : tableRegion .inputTable p.inputTable ∈ p.allRegions := by
  simp [allRegions]

theorem outputTable_mem (p : MemoryPlan) :
    tableRegion .outputTable p.outputTable ∈ p.allRegions := by
  simp [allRegions]

theorem inputSamples_mem (p : MemoryPlan) :
    p.samplesRegion .inputSamples p.inputSamples p.inputs ∈ p.allRegions := by
  simp [allRegions]

theorem outputSamples_mem (p : MemoryPlan) :
    p.samplesRegion .outputSamples p.outputSamples p.outputs ∈ p.allRegions := by
  simp [allRegions]

theorem mixingTable_mem {p : MemoryPlan} {m : MixingArea} (h : p.mixing = some m) :
    tableRegion .mixingTable m.table ∈ p.allRegions := by
  simp [allRegions, h]

theorem mixingSamples_mem {p : MemoryPlan} {m : MixingArea} (h : p.mixing = some m) :
    p.samplesRegion .mixingSamples m.samples p.outputs ∈ p.allRegions := by
  simp [allRegions, h]

theorem effect_mem {p : MemoryPlan} {e : InstanceRegion} (h : p.effect = some e) :
    instanceRegion .effect e ∈ p.allRegions := by
  simp [allRegions, h]

theorem instance_mem {p : MemoryPlan} {index : ℕ} {r : InstanceRegion}
    (h : p.voiceInstance? index = some r) :
    instanceRegion (p.instanceKind index) r ∈ p.allRegions := by
  unfold voiceInstance? at h
  split_ifs at h with hlt
  obtain rfl := Option.some.inj h
  cases hpolyphony : p.polyphony with
  | mono =>
    have hzero : index = 0 := by
      rw [instanceCount, hpolyphony] at hlt
      exact Nat.lt_one_iff.mp hlt
    simp [allRegions, instanceKind, hpolyphony, hzero]
  | poly voices =>
    have hvoice : index < voices := by
      rwa [instanceCount, hpolyphony] at hlt
    simp only [allRegions, instanceKind, hpolyphony]
    refine List.mem_append_left _ (List.mem_append_right _ ?_)
    exact List.mem_map.mpr ⟨index, List.mem_range.mpr hvoice, rfl⟩

theorem instanceKind_ne {p : MemoryPlan} {i j : ℕ} (hi : i < p.instanceCount)
    (hj : j < p.instanceCount) (hne : i ≠ j) : p.instanceKind i ≠ p.instanceKind j := by
  unfold instanceCount Polyphony.instances at hi hj
  unfold instanceKind
  cases hpolyphony : p.polyphony with
  | mono =>
    rw [hpolyphony] at hi hj
    exact absurd ((Nat.lt_one_iff.mp hi).trans (Nat.lt_one_iff.mp hj).symm) hne
  | poly voices => simpa using hne

theorem lt_instanceCount {p : MemoryPlan} {index : ℕ} {r : InstanceRegion}
    (h : p.voiceInstance? index = some r) : index < p.instanceCount := by
  unfold voiceInstance? at h
  split_ifs at h with hlt
  exact hlt

/-- The instances serve the voices, and the single instance serves voice zero. -/
theorem WellFormed.serves_instances {p : MemoryPlan} (h : p.WellFormed) :
    p.Serves p.instanceCount fun i =>
      (p.voiceInstance? i).map (instanceRegion (p.instanceKind i)) := by
  refine ⟨fun i hi => ?_, fun i hi => ?_, fun i j s t hne hs ht => ?_⟩
  · have hsome : p.voiceInstance? i = some ⟨p.instances + i * p.stride, p.instanceSize⟩ :=
      if_pos hi
    rw [hsome]
    exact ⟨_, rfl, holds_of_mem (instance_mem hsome) rfl le_rfl (Nat.le_add_right _ _) le_rfl⟩
  · rw [show p.voiceInstance? i = none from if_neg hi.not_gt]
    rfl
  · obtain ⟨r, hr, rfl⟩ := Option.map_eq_some_iff.mp hs
    obtain ⟨r', hr', rfl⟩ := Option.map_eq_some_iff.mp ht
    exact h.apart_of_kind_ne (instance_mem hr) (instance_mem hr')
      (instanceKind_ne (lt_instanceCount hr) (lt_instanceCount hr') hne)

/-- What there is at every place below a bound, listed place by place. -/
theorem filterMap_range_eq_map {α : Type*} (count : ℕ) (f : ℕ → α) :
    ((List.range count).filterMap fun i => if i < count then some (f i) else none) =
      (List.range count).map f := by
  rw [← List.filterMap_eq_map]
  exact List.filterMap_congr fun i hi => if_pos (List.mem_range.mp hi)

theorem getElem?_filterMap_range {α : Type*} (count : ℕ) (f : ℕ → α) (index : ℕ) :
    ((List.range count).filterMap fun i => if i < count then some (f i) else none)[index]? =
      if index < count then some (f index) else none := by
  rw [filterMap_range_eq_map, List.getElem?_map]
  split_ifs with hlt
  · rw [List.getElem?_range hlt, Option.map_some]
  · rw [List.getElem?_eq_none (by simpa using hlt), Option.map_none]

theorem voiceInstances_eq (p : MemoryPlan) :
    p.voiceInstances = (List.range p.instanceCount).map fun i =>
      ⟨p.instances + i * p.stride, p.instanceSize⟩ :=
  filterMap_range_eq_map _ _

theorem length_voiceInstances (p : MemoryPlan) : p.voiceInstances.length = p.instanceCount := by
  rw [voiceInstances_eq, List.length_map, List.length_range]

theorem getElem?_voiceInstances (p : MemoryPlan) (index : ℕ) :
    p.voiceInstances[index]? = p.voiceInstance? index :=
  getElem?_filterMap_range _ _ index

theorem getElem?_outputBuffers (p : MemoryPlan) (channel : ℕ) :
    p.outputBuffers[channel]? = p.outputBuffer? channel :=
  getElem?_filterMap_range _ _ channel

/-- Where the last region ends. -/
def lastStop (p : MemoryPlan) : ℕ := (p.regions.map (·.stop)).foldr max 0

theorem lastStop_eq (p : MemoryPlan) :
    p.lastStop = (p.regions.map (·.stop)).foldr max ⊥ := rfl

theorem stop_le_lastStop {p : MemoryPlan} {r : PlacedRegion} (h : r ∈ p.regions) :
    r.stop ≤ p.lastStop := by
  have hmem : r.stop ∈ p.regions.map (·.stop) := List.mem_map_of_mem h
  rw [lastStop_eq]
  exact List.le_max_of_le hmem le_rfl

theorem lastStop_le {p : MemoryPlan} {bound : ℕ} (h : ∀ r ∈ p.regions, r.stop ≤ bound) :
    p.lastStop ≤ bound := by
  rw [lastStop_eq]
  refine List.max_le_of_forall_le _ _ fun stop hstop => ?_
  obtain ⟨r, hr, rfl⟩ := List.mem_map.mp hstop
  exact h r hr

theorem WellFormed.used_lt {p : MemoryPlan} (h : p.WellFormed) :
    p.used < p.lastStop + p.alignment := by
  have positive := WellFormed.alignment_pos p
  obtain ⟨rs, hperm, hlaid⟩ := h.tiled
  rcases hlaid.finish_le positive with hnear | ⟨r, hr, hfull, hnear⟩
  · -- Only empty regions were laid out, and the cursor never left the beginning.
    rw [alignUp_of_dvd positive (Nat.dvd_zero _)] at hnear
    omega
  · have hmem : r ∈ p.regions := List.mem_filter.mpr ⟨hperm.mem_iff.mp hr, by simpa using hfull⟩
    have hstop := stop_le_lastStop hmem
    have hround := alignUp_lt positive r.stop
    omega

/-- What can be relied on by whoever uses a plan whose regions start at multiples of `unit`. -/
structure Sound (p : MemoryPlan) (unit : ℕ) : Prop where
  /-- Regions share no byte. -/
  apart : p.regions.Pairwise PlacedRegion.Apart
  /-- Regions lie in the arena. -/
  inside : ∀ r ∈ p.regions, r.stop ≤ p.arenaSize
  /-- Regions start at multiples of the unit. -/
  aligned : ∀ r ∈ p.regions, unit ∣ r.start
  /-- Table words and sample buffers lie in their areas, those of each channel apart. -/
  inputSlots : p.Serves p.inputs (slotPart .inputTable p.inputTable)
  outputSlots : p.Serves p.outputs (slotPart .outputTable p.outputTable)
  mixingSlots : ∀ m, p.mixing = some m → p.Serves p.outputs (slotPart .mixingTable m.table)
  inputBuffers : p.Serves p.inputs fun c => (p.inputBuffer? c).map (bufferPart .inputSamples)
  outputBuffers : p.Serves p.outputs fun c => (p.outputBuffer? c).map (bufferPart .outputSamples)
  mixingBuffers : p.mixing.isSome →
    p.Serves p.outputs fun c => (p.mixingBuffer? c).map (bufferPart .mixingSamples)
  /-- Instances lie in their regions, those of each voice apart. -/
  instances : p.Serves p.instanceCount fun i =>
    (p.voiceInstance? i).map (instanceRegion (p.instanceKind i))
  effect : ∀ e, p.effect = some e → p.Holds (instanceRegion .effect e)
  /-- There are tables and buffers to mix through if there are voices. -/
  mixing_isSome : p.mixing.isSome = p.polyphony.isPoly
  /-- The pages are the least power of two that holds what is used, and two at least. -/
  pages_eq_pow : ∃ k, p.pages = 2 ^ k
  two_le_pages : 2 ≤ p.pages
  arenaSize_eq : p.arenaSize = p.pages * p.pageSize
  used_le : p.used ≤ p.arenaSize
  half_lt_used : 2 < p.pages → p.pages / 2 * p.pageSize < p.used
  /-- What is used ends less than one unit behind the last region. -/
  lastStop_le_used : p.lastStop ≤ p.used
  used_lt : p.used < p.lastStop + unit

end MemoryPlan

/-- Whatever is asked for, the regions of a plan lie apart from each other inside the arena at
aligned addresses, every accessor names parts of its own region, and the arena is as small as a
power of two of pages can be. -/
theorem LayoutRequest.sound_of_plan {r : LayoutRequest} {p : MemoryPlan} (h : r.plan = .ok p) :
    p.Sound (max r.pointerWidth.bytes 4) := by
  have hwell := wellFormed_of_plan h
  have hunit : max r.pointerWidth.bytes 4 = p.alignment := by
    rw [MemoryPlan.alignment, (answeredBy_of_plan h).pointerWidth]
    rfl
  obtain ⟨pages, hsize, htwo, hpower, hused, hhalf⟩ := pages_of_arenaFor hwell.pageSize_pos
    hwell.arena
  have hpages : p.pages = pages := by
    rw [MemoryPlan.pages, hsize, Nat.mul_div_cancel _ hwell.pageSize_pos]
  have hmem {s : PlacedRegion} (hs : s ∈ p.regions) : s ∈ p.allRegions :=
    (List.mem_filter.mp hs).1
  rw [hunit]
  exact {
    apart := hwell.apart.filter _
    inside := fun s hs => (hwell.stop_le_used s (hmem hs)).trans hused
    aligned := fun s hs => hwell.dvd_start s (hmem hs)
    inputSlots := MemoryPlan.serves_slots p.inputTable_mem (by rw [hwell.inputTable])
    outputSlots := MemoryPlan.serves_slots p.outputTable_mem (by rw [hwell.outputTable])
    mixingSlots := fun m hm =>
      MemoryPlan.serves_slots (MemoryPlan.mixingTable_mem hm) (by rw [hwell.mixingTable m hm])
    inputBuffers := MemoryPlan.serves_buffers p.inputSamples_mem
    outputBuffers := MemoryPlan.serves_buffers p.outputSamples_mem
    mixingBuffers := fun hsome => by
      obtain ⟨m, hm⟩ := Option.isSome_iff_exists.mp hsome
      simpa only [MemoryPlan.mixingBuffer?, hm, Option.bind_some] using
        MemoryPlan.serves_buffers (MemoryPlan.mixingSamples_mem hm)
    instances := hwell.serves_instances
    effect := fun e he => MemoryPlan.holds_of_mem (MemoryPlan.effect_mem he) rfl le_rfl
      (Nat.le_add_right _ _) le_rfl
    mixing_isSome := hwell.mixing_isSome
    pages_eq_pow := hpages ▸ hpower
    two_le_pages := hpages ▸ htwo
    arenaSize_eq := hpages ▸ hsize
    used_le := hused
    half_lt_used := hpages ▸ hhalf
    lastStop_le_used := MemoryPlan.lastStop_le fun s hs => hwell.stop_le_used s (hmem hs)
    used_lt := hwell.used_lt }

/-- Odd sizes, wide pointers, voices and an effect. -/
theorem LayoutRequest.sound_of_plan_padded :
    ∃ p, (LayoutRequest.mk 13 1 2 5 3 .eight 4 (some 9) 64).plan = .ok p ∧ p.Sound 8 := by
  obtain ⟨p, hp⟩ : ∃ p, (LayoutRequest.mk 13 1 2 5 3 .eight 4 (some 9) 64).plan = .ok p :=
    ⟨_, rfl⟩
  exact ⟨p, hp, LayoutRequest.sound_of_plan hp⟩

end DspHost
