import DspHost.Proofs.Memory.Area

/-!
# Planning within an address space

The planner looks at every size that it computes and refuses an arena as soon as one of them does
not fit the address space. The layout it aims at does not depend on that: it is a plan in unbounded
integers, and every size that is looked at is part of its arena, except the bytes of one channel
when there is no channel. So the planner refuses exactly the layouts whose arena, or whose
channels, do not fit, and answers the unbounded layout otherwise.

Whoever uses a plan computes addresses from it without looking at them again. Each of these
computations is said here step by step in words of the address space; none of the steps leaves it,
because what is named lies inside a region.

## Main definitions

* `LayoutRequest.layout` — the plan in an unbounded address space
* `LayoutRequest.HingesOn` — a computation fails exactly if what it comes to does not fit
* `word?` — a step of a computation in words
* `MemoryPlan.ComputedInWords` — no computation with a plan leaves the address space

## Main results

* `LayoutRequest.hingesOn_planMono`, `LayoutRequest.hingesOn_planPoly` — the planner answers the
  unbounded layout if its arena fits
* `MemoryPlan.WellFormed.computedInWords` — plans that fit can be computed with in words
* `LayoutRequest.plan_exact` — planning fails exactly when it must, and nothing wraps
-/

namespace DspHost

/-! ### The unbounded layout -/

theorem Polyphony.pos_of_ofRequested {requested voices : ℕ}
    (h : ofRequested requested = .poly voices) : 0 < voices := by
  have hpos := instances_ofRequested_pos requested
  rwa [h] at hpos

namespace LayoutRequest

/-- The bytes of the pages that hold a number of bytes. -/
def pageSpace (pageSize used : ℕ) : ℕ :=
  max (leastPowerOfTwo ((used + (pageSize - 1)) / pageSize)) leastPages * pageSize

/-- The plan of a single instance in an unbounded address space. -/
def layoutMono (r : LayoutRequest) : MemoryPlan :=
  let align := r.alignment
  let word := r.pointerWidth.bytes
  let channelBytes := r.blockLength * r.sampleWidth
  let stride := alignUp r.instanceSize align
  let single := alignUp 0 align
  let inputTable := alignUp (single + stride) align
  let outputTable := alignUp (inputTable + r.inputs * word) align
  let inputSamples := alignUp (outputTable + r.outputs * word) align
  let outputSamples := alignUp (inputSamples + r.inputs * channelBytes) align
  let used := outputSamples + r.outputs * channelBytes
  { polyphony := .mono
    blockLength := r.blockLength
    pointerWidth := r.pointerWidth
    inputs := r.inputs
    outputs := r.outputs
    inputTable := ⟨inputTable, r.inputs, r.pointerWidth⟩
    outputTable := ⟨outputTable, r.outputs, r.pointerWidth⟩
    inputSamples, outputSamples
    mixing := none
    instances := single
    stride
    instanceSize := r.instanceSize
    effect := none
    used
    pageSize := r.pageSize
    arenaSize := pageSpace r.pageSize used }

/-- The effect behind the voices, and the byte after it. -/
def layoutEffect (align cursor : ℕ) : Option ℕ → Option InstanceRegion × ℕ
  | none => (none, cursor)
  | some size => (some ⟨alignUp cursor align, size⟩, alignUp cursor align + alignUp size align)

/-- The plan of a number of voices and an optional effect in an unbounded address space. -/
def layoutPoly (r : LayoutRequest) (voices : ℕ) : MemoryPlan :=
  let align := r.alignment
  let word := r.pointerWidth.bytes
  let channelBytes := r.blockLength * r.sampleWidth
  let stride := alignUp r.instanceSize align
  let inputTable := alignUp 0 align
  let outputTable := alignUp (inputTable + r.inputs * word) align
  let mixingTable := alignUp (outputTable + r.outputs * word) align
  let inputSamples := alignUp (mixingTable + r.outputs * word) align
  let outputSamples := alignUp (inputSamples + r.inputs * channelBytes) align
  let mixingSamples := alignUp (outputSamples + r.outputs * channelBytes) align
  let instances := alignUp (mixingSamples + r.outputs * channelBytes) align
  let effect := layoutEffect align (instances + stride * voices) r.effectSize
  { polyphony := .poly voices
    blockLength := r.blockLength
    pointerWidth := r.pointerWidth
    inputs := r.inputs
    outputs := r.outputs
    inputTable := ⟨inputTable, r.inputs, r.pointerWidth⟩
    outputTable := ⟨outputTable, r.outputs, r.pointerWidth⟩
    inputSamples, outputSamples
    mixing := some ⟨⟨mixingTable, r.outputs, r.pointerWidth⟩, mixingSamples⟩
    instances, stride
    instanceSize := r.instanceSize
    effect := effect.1
    used := effect.2
    pageSize := r.pageSize
    arenaSize := pageSpace r.pageSize effect.2 }

/-- The plan in an unbounded address space. -/
def layout (r : LayoutRequest) : MemoryPlan :=
  match Polyphony.ofRequested r.voices with
  | .mono => r.layoutMono
  | .poly voices => r.layoutPoly voices

/-! ### What planning hinges on -/

variable {α : Type} {align cursor length total : ℕ} {x : Except LayoutError α} {y : α}

/-- A computation that has come to a cursor goes on to a total. It has its answer if the total fits
the address space, and otherwise what is asked for is too large. -/
def HingesOn (cursor total : ℕ) (x : Except LayoutError α) (y : α) : Prop :=
  cursor ≤ total ∧ x = if total < addressLimit then .ok y else .error .tooLarge

/-- Whether a part of the total fits makes no difference. -/
theorem HingesOn.checked {n : ℕ} {k : ℕ → Except LayoutError α} (hn : n ≤ total)
    (h : HingesOn cursor total (k n) y) :
    HingesOn cursor total (LayoutRequest.checked n >>= k) y := by
  refine ⟨h.1, ?_⟩
  unfold LayoutRequest.checked
  split_ifs with hfits htotal htotal
  · exact h.2.trans (if_pos htotal)
  · exact h.2.trans (if_neg htotal)
  · exact absurd (hn.trans_lt htotal) hfits
  · rfl

/-- What is no part of the total can be too large on its own. -/
theorem HingesOn.checked_max {n : ℕ} {k : ℕ → Except LayoutError α}
    (h : HingesOn cursor total (k n) y) :
    HingesOn cursor (max n total) (LayoutRequest.checked n >>= k) y := by
  refine ⟨h.1.trans (le_max_right _ _), ?_⟩
  unfold LayoutRequest.checked
  split_ifs with hn hmax hmax
  · exact h.2.trans (if_pos ((le_max_right _ _).trans_lt hmax))
  · exact h.2.trans (if_neg fun htotal => hmax (max_lt hn htotal))
  · exact absurd ((le_max_left _ _).trans_lt hmax) hn
  · rfl

/-- A region is taken before the total. -/
theorem HingesOn.take (positive : 0 < align) {k : ℕ × ℕ → Except LayoutError α}
    (h : HingesOn (alignUp cursor align + length) total
      (k (alignUp cursor align, alignUp cursor align + length)) y) :
    HingesOn cursor total (LayoutRequest.take align cursor length >>= k) y := by
  have hstart : alignUp cursor align ≤ total := (Nat.le_add_right _ length).trans h.1
  have hrest : HingesOn cursor total (k (alignUp cursor align, alignUp cursor align + length)) y :=
    ⟨(le_alignUp positive cursor).trans hstart, h.2⟩
  unfold LayoutRequest.take
  rw [bind_assoc]
  refine .checked hstart ?_
  rw [bind_assoc]
  exact .checked h.1 hrest

/-- A region is taken after its length was looked at. -/
theorem HingesOn.region (positive : 0 < align) {k : ℕ × ℕ → Except LayoutError α}
    (h : HingesOn (alignUp cursor align + length) total
      (k (alignUp cursor align, alignUp cursor align + length)) y) :
    HingesOn cursor total
      (LayoutRequest.checked length >>= fun length => LayoutRequest.take align cursor length >>= k)
      y :=
  .checked ((Nat.le_add_left _ _).trans h.1) (.take positive h)

/-- The effect is taken behind the voices, if there is one. -/
theorem HingesOn.effect (positive : 0 < align) {size : Option ℕ}
    {k : Option InstanceRegion × ℕ → Except LayoutError α}
    (h : HingesOn (layoutEffect align cursor size).2 total (k (layoutEffect align cursor size)) y) :
    HingesOn cursor total (takeEffect align cursor size >>= k) y := by
  cases size with
  | none => exact h
  | some size =>
    unfold takeEffect
    rw [bind_assoc]
    simp only [bind_assoc]
    exact .region positive h

theorem le_pageSpace {pageSize : ℕ} (positive : 0 < pageSize) (used : ℕ) :
    used ≤ pageSpace pageSize used := by
  have hcover : used ≤ (used + (pageSize - 1)) / pageSize * pageSize := le_alignUp positive used
  refine hcover.trans (Nat.mul_le_mul_right pageSize ?_)
  exact (le_leastPowerOfTwo _).trans (le_max_left _ _)

/-- At last the arena is looked at, which is the total. -/
theorem HingesOn.arena {pageSize used : ℕ} (positive : 0 < pageSize) {k : ℕ → α} :
    HingesOn used (pageSpace pageSize used) (arenaFor pageSize used >>= fun size => pure (k size))
      (k (pageSpace pageSize used)) := by
  have hpages : leastPowerOfTwo ((used + (pageSize - 1)) / pageSize) ≤ pageSpace pageSize used :=
    (le_max_left _ leastPages).trans (Nat.le_mul_of_pos_right _ positive)
  have hlast : HingesOn used (pageSpace pageSize used)
      (LayoutRequest.checked (pageSpace pageSize used) >>= fun size => pure (k size))
      (k (pageSpace pageSize used)) := by
    refine ⟨le_pageSpace positive used, ?_⟩
    unfold LayoutRequest.checked
    split_ifs <;> rfl
  unfold arenaFor
  rw [bind_assoc]
  exact .checked hpages hlast

variable {r : LayoutRequest}

theorem hingesOn_planMono (hpage : 0 < r.pageSize) :
    HingesOn 0 r.layoutMono.arenaSize
      (r.planMono (alignUp r.instanceSize r.alignment) (r.blockLength * r.sampleWidth))
      r.layoutMono := by
  have positive := r.alignment_pos
  exact .take positive (.region positive (.region positive (.region positive (.region positive
    (.arena hpage)))))

theorem hingesOn_planPoly (hpage : 0 < r.pageSize) (voices : ℕ) :
    HingesOn 0 (r.layoutPoly voices).arenaSize
      (r.planPoly voices (alignUp r.instanceSize r.alignment) (r.blockLength * r.sampleWidth))
      (r.layoutPoly voices) := by
  have positive := r.alignment_pos
  exact .region positive (.region positive (.region positive (.region positive (.region positive
    (.region positive (.region positive (.effect positive (.arena hpage))))))))

theorem le_next (positive : 0 < align) (cursor length : ℕ) :
    cursor ≤ alignUp cursor align + length :=
  (le_alignUp positive cursor).trans (Nat.le_add_right _ length)

theorem stride_le_layoutMono (hpage : 0 < r.pageSize) :
    alignUp r.instanceSize r.alignment ≤ r.layoutMono.arenaSize := by
  have positive := r.alignment_pos
  -- The single instance comes first, so four regions are between it and the end.
  have hused : alignUp r.instanceSize r.alignment ≤ r.layoutMono.used :=
    (Nat.le_add_left _ _).trans ((le_next positive _ _).trans ((le_next positive _ _).trans
      ((le_next positive _ _).trans (le_next positive _ _))))
  exact hused.trans (le_pageSpace hpage _)

theorem stride_le_layoutPoly (hpage : 0 < r.pageSize) {voices : ℕ} (hvoices : 0 < voices) :
    alignUp r.instanceSize r.alignment ≤ (r.layoutPoly voices).arenaSize := by
  have hinstances : alignUp r.instanceSize r.alignment ≤
      (r.layoutPoly voices).instances + alignUp r.instanceSize r.alignment * voices :=
    (Nat.le_mul_of_pos_right _ hvoices).trans (Nat.le_add_left _ _)
  have hused : alignUp r.instanceSize r.alignment ≤ (r.layoutPoly voices).used := by
    refine hinstances.trans ?_
    unfold layoutPoly layoutEffect
    dsimp only
    split
    · exact le_rfl
    · exact le_next r.alignment_pos _ _
  exact hused.trans (le_pageSpace hpage _)

/-- What is planned for a polyphony hinges on the unbounded layout, and an instance is part of
it. -/
theorem layout_spec (hpage : 0 < r.pageSize) :
    alignUp r.instanceSize r.alignment ≤ r.layout.arenaSize ∧
      HingesOn 0 r.layout.arenaSize
        (match Polyphony.ofRequested r.voices with
          | .mono => r.planMono (alignUp r.instanceSize r.alignment) (r.blockLength * r.sampleWidth)
          | .poly voices => r.planPoly voices (alignUp r.instanceSize r.alignment)
              (r.blockLength * r.sampleWidth))
        r.layout := by
  unfold layout
  cases hpolyphony : Polyphony.ofRequested r.voices with
  | mono => exact ⟨stride_le_layoutMono hpage, hingesOn_planMono hpage⟩
  | poly voices =>
    exact ⟨stride_le_layoutPoly hpage (Polyphony.pos_of_ofRequested hpolyphony),
      hingesOn_planPoly hpage voices⟩

/-- A valid request is planned as in an unbounded address space, if one channel and the arena
fit. -/
theorem plan_of_validate (h : r.validate = .ok ()) :
    r.plan =
      if max (r.blockLength * r.sampleWidth) r.layout.arenaSize < addressLimit then .ok r.layout
      else .error .tooLarge := by
  obtain ⟨-, hpage, -⟩ := validate_eq_ok_iff.mp h
  obtain ⟨hstride, hlayout⟩ := layout_spec (Nat.pos_of_ne_zero hpage)
  unfold plan
  rw [h]
  -- The room of an instance is looked at first, which is part of the arena, and then the bytes of
  -- one channel, which are part of nothing if there is no channel.
  exact (HingesOn.checked (hstride.trans (le_max_right _ _)) hlayout.checked_max).2

end LayoutRequest

/-! ### Computing in words -/

/-- A step of a computation, if a word of the address space can hold its result. -/
def word? (n : ℕ) : Option ℕ := if n < addressLimit then some n else none

theorem word?_of_lt {n : ℕ} (h : n < addressLimit) : word? n = some n := if_pos h

/-- The address of the word for a channel, computed in words. -/
def PointerTable.slotInWords (t : PointerTable) (channel : ℕ) : Option (Option ℕ) :=
  if channel < t.entries then do
    let distance ← word? (channel * t.width.bytes)
    return some (← word? (t.offset + distance))
  else return none

/-- The number of bytes of a table, computed in words. -/
def PointerTable.byteLengthInWords (t : PointerTable) : Option ℕ :=
  word? (t.entries * t.width.bytes)

/-- The addresses of the words of a table and its length do not leave the address space. -/
structure PointerTable.ComputedInWords (t : PointerTable) : Prop where
  slots : ∀ channel, t.slotInWords channel = some (t.slot? channel)
  byteLength : t.byteLengthInWords = some t.byteLength

/-- The number of bytes of a buffer, computed in words. -/
def SampleBuffer.byteLengthInWords (b : SampleBuffer) : Option ℕ := word? (b.frames * sampleWidth)

/-- The address of a field, computed in words. Where the field would end is looked at first. -/
def InstanceRegion.fieldInWords (r : InstanceRegion) (index : ℕ) : Option (Option ℕ) :=
  match word? (index + 4) with
  | none => return none
  | some stop => if stop ≤ r.size then do return some (← word? (r.offset + index)) else return none

namespace MemoryPlan

/-- The buffer of a channel, computed in words. -/
def bufferInWords (p : MemoryPlan) (base channel channels : ℕ) : Option (Option SampleBuffer) :=
  if channel < channels then do
    let frames ← word? (channel * p.blockLength)
    let distance ← word? (frames * sampleWidth)
    return some ⟨← word? (base + distance), p.blockLength⟩
  else return none

/-- The mixing buffer of a channel, computed in words. -/
def mixingBufferInWords (p : MemoryPlan) (channel : ℕ) : Option (Option SampleBuffer) :=
  match p.mixing with
  | none => return none
  | some m => p.bufferInWords m.samples channel p.outputs

/-- The instance at an index, computed in words. -/
def instanceAtInWords (p : MemoryPlan) (index : ℕ) : Option InstanceRegion := do
  let distance ← word? (index * p.stride)
  return ⟨← word? (p.instances + distance), p.instanceSize⟩

/-- The instance of a voice, computed in words. -/
def voiceInstanceInWords (p : MemoryPlan) (index : ℕ) : Option (Option InstanceRegion) :=
  if index < p.instanceCount then do return some (← p.instanceAtInWords index) else return none

/-- An area of equally long buffers as a region, computed in words. -/
def samplesRegionInWords (p : MemoryPlan) (kind : RegionKind) (base channels : ℕ) :
    Option PlacedRegion := do
  let frames ← word? (channels * p.blockLength)
  let length ← word? (frames * sampleWidth)
  return ⟨kind, base, ← word? (base + length)⟩

/-- A pointer table as a region, computed in words. -/
def tableRegionInWords (kind : RegionKind) (t : PointerTable) : Option PlacedRegion := do
  let length ← t.byteLengthInWords
  return ⟨kind, t.offset, ← word? (t.offset + length)⟩

/-- An instance as a region, computed in words. -/
def instanceRegionInWords (kind : RegionKind) (r : InstanceRegion) : Option PlacedRegion := do
  return ⟨kind, r.offset, ← word? (r.offset + r.size)⟩

/-- The regions that voices are mixed through, computed in words. -/
def mixingRegionsInWords (p : MemoryPlan) : Option (List PlacedRegion) :=
  match p.mixing with
  | none => return []
  | some m => do
    return [← tableRegionInWords .mixingTable m.table,
      ← p.samplesRegionInWords .mixingSamples m.samples p.outputs]

/-- The regions of the instances, computed in words. -/
def instanceRegionsInWords (p : MemoryPlan) : Option (List PlacedRegion) :=
  match p.polyphony with
  | .mono => do return [← instanceRegionInWords .soleInstance ⟨p.instances, p.instanceSize⟩]
  | .poly voices => (List.range voices).mapM fun v => do
    instanceRegionInWords (.voice v) (← p.instanceAtInWords v)

/-- The region of the effect, if there is one, computed in words. -/
def effectRegionInWords (p : MemoryPlan) : Option (List PlacedRegion) :=
  p.effect.toList.mapM (instanceRegionInWords .effect)

/-- Every region that is not empty, computed in words. -/
def regionsInWords (p : MemoryPlan) : Option (List PlacedRegion) := do
  let shared := [← tableRegionInWords .inputTable p.inputTable,
    ← tableRegionInWords .outputTable p.outputTable,
    ← p.samplesRegionInWords .inputSamples p.inputSamples p.inputs,
    ← p.samplesRegionInWords .outputSamples p.outputSamples p.outputs]
  let regions := shared ++ (← p.mixingRegionsInWords) ++ (← p.instanceRegionsInWords)
    ++ (← p.effectRegionInWords)
  return regions.filter fun r => r.start < r.stop

/-- What a plan records is in the address space, and what it names is computed in words without
leaving it. -/
structure ComputedInWords (p : MemoryPlan) : Prop where
  bounds : ∀ r ∈ p.allRegions, r.start < addressLimit ∧ r.stop < addressLimit
  stride : p.stride < addressLimit
  used : p.used ≤ p.arenaSize
  arenaSize : p.arenaSize < addressLimit
  inputTable : p.inputTable.ComputedInWords
  outputTable : p.outputTable.ComputedInWords
  mixingTable : ∀ m, p.mixing = some m → m.table.ComputedInWords
  inputBuffers : ∀ channel,
    p.bufferInWords p.inputSamples channel p.inputs = some (p.inputBuffer? channel)
  outputBuffers : ∀ channel,
    p.bufferInWords p.outputSamples channel p.outputs = some (p.outputBuffer? channel)
  mixingBuffers : ∀ channel, p.mixingBufferInWords channel = some (p.mixingBuffer? channel)
  byteLengths : ∀ b : SampleBuffer, (∃ channel, p.inputBuffer? channel = some b ∨
    p.outputBuffer? channel = some b ∨ p.mixingBuffer? channel = some b) →
      b.byteLengthInWords = some b.byteLength
  instances : ∀ index, p.voiceInstanceInWords index = some (p.voiceInstance? index)
  fields : ∀ r, (∃ index, p.voiceInstance? index = some r) ∨ p.effect = some r →
    ∀ index, r.fieldInWords index = some (r.field? index)
  regions : p.regionsInWords = some p.regions

variable {p : MemoryPlan} {kind : RegionKind}

theorem computedInWords_of_tableRegion {t : PointerTable}
    (h : (tableRegion kind t).stop < addressLimit) : t.ComputedInWords := by
  change t.offset + t.entries * t.width.bytes < addressLimit at h
  refine ⟨fun channel => ?_, word?_of_lt ((Nat.le_add_left _ _).trans_lt h)⟩
  unfold PointerTable.slotInWords PointerTable.slot?
  split_ifs with hchannel
  · have hdistance := Nat.mul_le_mul_right t.width.bytes hchannel.le
    rw [word?_of_lt (by omega), Option.bind_eq_bind, Option.bind_some, word?_of_lt (by omega)]
    rfl
  · rfl

theorem tableRegionInWords_eq {t : PointerTable} (h : (tableRegion kind t).stop < addressLimit) :
    tableRegionInWords kind t = some (tableRegion kind t) := by
  unfold tableRegionInWords
  rw [(computedInWords_of_tableRegion h).byteLength, Option.bind_eq_bind, Option.bind_some,
    show word? (t.offset + t.byteLength) = _ from word?_of_lt h]
  rfl

theorem bufferInWords_eq {base channels : ℕ}
    (h : (p.samplesRegion kind base channels).stop < addressLimit) (channel : ℕ) :
    p.bufferInWords base channel channels = some (p.buffer? base channel channels) := by
  change base + channels * p.blockLength * 4 < addressLimit at h
  unfold bufferInWords buffer? sampleWidth
  split_ifs with hchannel
  · have hframes := Nat.mul_le_mul_right p.blockLength hchannel.le
    rw [word?_of_lt (by omega), Option.bind_eq_bind, Option.bind_some, word?_of_lt (by omega),
      Option.bind_some, word?_of_lt (by omega)]
    rfl
  · rfl

theorem samplesRegionInWords_eq {base channels : ℕ}
    (h : (p.samplesRegion kind base channels).stop < addressLimit) :
    p.samplesRegionInWords kind base channels = some (p.samplesRegion kind base channels) := by
  change base + channels * p.blockLength * 4 < addressLimit at h
  unfold samplesRegionInWords samplesRegion sampleWidth
  rw [word?_of_lt (by omega), Option.bind_eq_bind, Option.bind_some, word?_of_lt (by omega),
    Option.bind_some, word?_of_lt h]
  rfl

theorem instanceRegionInWords_eq {r : InstanceRegion}
    (h : (instanceRegion kind r).stop < addressLimit) :
    instanceRegionInWords kind r = some (instanceRegion kind r) := by
  change r.offset + r.size < addressLimit at h
  unfold instanceRegionInWords
  rw [word?_of_lt h]
  rfl

/-- A field is inside its instance, so that only the look at its end can leave the address
space. -/
theorem fieldInWords_eq {r : InstanceRegion} (h : (instanceRegion kind r).stop < addressLimit)
    (index : ℕ) : r.fieldInWords index = some (r.field? index) := by
  change r.offset + r.size < addressLimit at h
  unfold InstanceRegion.fieldInWords InstanceRegion.field?
  by_cases hstop : index + 4 < addressLimit
  · rw [word?_of_lt hstop]
    dsimp only
    split_ifs with hfits
    · rw [word?_of_lt (by omega)]
      rfl
    · rfl
  · rw [show word? (index + 4) = none from if_neg hstop, if_neg (by omega)]
    rfl

theorem instanceAtInWords_eq {index : ℕ}
    (h : p.instances + index * p.stride + p.instanceSize < addressLimit) :
    p.instanceAtInWords index = some ⟨p.instances + index * p.stride, p.instanceSize⟩ := by
  unfold instanceAtInWords
  rw [word?_of_lt (by omega), Option.bind_eq_bind, Option.bind_some, word?_of_lt (by omega)]
  rfl

/-! ### Plans that fit -/

theorem start_le_stop (p : MemoryPlan) : ∀ r ∈ p.allRegions, r.start ≤ r.stop := by
  -- Every region is made of a first byte and a number of bytes.
  have hrange {r : PlacedRegion} (h : ∃ kind base length, r = ⟨kind, base, base + length⟩) :
      r.start ≤ r.stop := by
    obtain ⟨_, _, _, rfl⟩ := h
    exact Nat.le_add_right _ _
  intro r hr
  refine hrange ?_
  simp only [allRegions, List.mem_append] at hr
  rcases hr with ((hr | hr) | hr) | hr
  · simp only [List.mem_cons, List.not_mem_nil, or_false] at hr
    rcases hr with rfl | rfl | rfl | rfl <;> exact ⟨_, _, _, rfl⟩
  · split at hr
    · cases hr
    · simp only [List.mem_cons, List.not_mem_nil, or_false] at hr
      rcases hr with rfl | rfl <;> exact ⟨_, _, _, rfl⟩
  · split at hr
    · obtain rfl := List.mem_singleton.mp hr
      exact ⟨_, _, _, rfl⟩
    · obtain ⟨v, -, rfl⟩ := List.mem_map.mp hr
      exact ⟨_, _, _, rfl⟩
  · obtain ⟨e, -, rfl⟩ := Option.map_eq_some_iff.mp (Option.mem_toList.mp hr)
    exact ⟨_, _, _, rfl⟩

/-- The regions that voices are mixed through. -/
def mixingRegions (p : MemoryPlan) : List PlacedRegion :=
  match p.mixing with
  | none => []
  | some m =>
    [tableRegion .mixingTable m.table, p.samplesRegion .mixingSamples m.samples p.outputs]

/-- The regions of the instances. -/
def instanceRegions (p : MemoryPlan) : List PlacedRegion :=
  match p.polyphony with
  | .mono => [instanceRegion .soleInstance ⟨p.instances, p.instanceSize⟩]
  | .poly voices =>
    (List.range voices).map fun v =>
      instanceRegion (.voice v) ⟨p.instances + v * p.stride, p.instanceSize⟩

namespace WellFormed

/-- Every region of a plan whose arena fits ends in the address space. -/
theorem stop_lt (hwell : p.WellFormed) (hfits : p.arenaSize < addressLimit) :
    ∀ r ∈ p.allRegions, r.stop < addressLimit :=
  fun r hr => (hwell.stop_le_arenaSize r hr).trans_lt hfits

theorem voiceInstanceInWords_eq (hwell : p.WellFormed) (hfits : p.arenaSize < addressLimit)
    (index : ℕ) : p.voiceInstanceInWords index = some (p.voiceInstance? index) := by
  unfold voiceInstanceInWords voiceInstance?
  split_ifs with hindex
  · have hvoice : p.voiceInstance? index = some ⟨p.instances + index * p.stride, p.instanceSize⟩ :=
      if_pos hindex
    rw [instanceAtInWords_eq (hwell.stop_lt hfits _ (instance_mem hvoice))]
    rfl
  · rfl

theorem mixingBufferInWords_eq (hwell : p.WellFormed) (hfits : p.arenaSize < addressLimit)
    (channel : ℕ) : p.mixingBufferInWords channel = some (p.mixingBuffer? channel) := by
  unfold mixingBufferInWords mixingBuffer?
  cases hmixing : p.mixing with
  | none => rfl
  | some m => exact bufferInWords_eq (hwell.stop_lt hfits _ (mixingSamples_mem hmixing)) channel

theorem mixingRegionsInWords_eq (hwell : p.WellFormed) (hfits : p.arenaSize < addressLimit) :
    p.mixingRegionsInWords = some p.mixingRegions := by
  unfold mixingRegionsInWords mixingRegions
  cases hmixing : p.mixing with
  | none => rfl
  | some m =>
    dsimp only
    rw [tableRegionInWords_eq (hwell.stop_lt hfits _ (mixingTable_mem hmixing)),
      samplesRegionInWords_eq (hwell.stop_lt hfits _ (mixingSamples_mem hmixing))]
    rfl

theorem instanceRegionsInWords_eq (hwell : p.WellFormed) (hfits : p.arenaSize < addressLimit) :
    p.instanceRegionsInWords = some p.instanceRegions := by
  have hstop {index : ℕ} (h : index < p.instanceCount) :
      p.instances + index * p.stride + p.instanceSize < addressLimit :=
    (hwell.instance_le_arenaSize (if_pos h)).trans_lt hfits
  unfold instanceCount at hstop
  unfold instanceRegionsInWords instanceRegions
  cases hpolyphony : p.polyphony with
  | mono =>
    have hsole := @hstop 0 (by rw [hpolyphony]; exact Nat.zero_lt_one)
    rw [Nat.zero_mul, Nat.add_zero] at hsole
    have hregion : instanceRegionInWords .soleInstance ⟨p.instances, p.instanceSize⟩ =
        some (instanceRegion .soleInstance ⟨p.instances, p.instanceSize⟩) :=
      instanceRegionInWords_eq hsole
    dsimp only
    rw [hregion]
    rfl
  | poly voices =>
    refine mapM_eq_some_of_forall₂ (List.forall₂_map_right_iff.mpr
      (List.forall₂_same.mpr fun v hv => ?_))
    have hvoice := @hstop v (by rw [hpolyphony]; exact List.mem_range.mp hv)
    rw [instanceAtInWords_eq hvoice]
    exact instanceRegionInWords_eq hvoice

theorem effectRegionInWords_eq (hwell : p.WellFormed) (hfits : p.arenaSize < addressLimit) :
    p.effectRegionInWords = some (p.effect.map (instanceRegion .effect)).toList := by
  unfold effectRegionInWords
  cases heffect : p.effect with
  | none => rfl
  | some e =>
    have hregion : instanceRegionInWords .effect e = some (instanceRegion .effect e) :=
      instanceRegionInWords_eq (hwell.stop_lt hfits _ (effect_mem heffect))
    exact mapM_eq_some_of_forall₂ (.cons hregion .nil)

theorem regionsInWords_eq (hwell : p.WellFormed) (hfits : p.arenaSize < addressLimit) :
    p.regionsInWords = some p.regions := by
  have hstop := hwell.stop_lt hfits
  unfold regionsInWords
  rw [tableRegionInWords_eq (hstop _ p.inputTable_mem),
    tableRegionInWords_eq (hstop _ p.outputTable_mem),
    samplesRegionInWords_eq (hstop _ p.inputSamples_mem),
    samplesRegionInWords_eq (hstop _ p.outputSamples_mem),
    hwell.mixingRegionsInWords_eq hfits, hwell.instanceRegionsInWords_eq hfits,
    hwell.effectRegionInWords_eq hfits]
  rfl

/-- Plans whose arena, stride and channels fit the address space are computed with in words. -/
theorem computedInWords (hwell : p.WellFormed) (hfits : p.arenaSize < addressLimit)
    (hstride : p.stride < addressLimit) (hchannel : p.blockLength * sampleWidth < addressLimit) :
    p.ComputedInWords := by
  have hstop := hwell.stop_lt hfits
  obtain ⟨_, -, -, -, hused, -⟩ := LayoutRequest.pages_of_arenaFor hwell.pageSize_pos hwell.arena
  exact {
    bounds := fun r hr => ⟨(p.start_le_stop r hr).trans_lt (hstop r hr), hstop r hr⟩
    stride := hstride
    used := hused
    arenaSize := hfits
    inputTable := computedInWords_of_tableRegion (hstop _ p.inputTable_mem)
    outputTable := computedInWords_of_tableRegion (hstop _ p.outputTable_mem)
    mixingTable := fun m hm => computedInWords_of_tableRegion (hstop _ (mixingTable_mem hm))
    inputBuffers := bufferInWords_eq (hstop _ p.inputSamples_mem)
    outputBuffers := bufferInWords_eq (hstop _ p.outputSamples_mem)
    mixingBuffers := hwell.mixingBufferInWords_eq hfits
    byteLengths := fun b hb => by
      have hframes : b.frames = p.blockLength := by
        obtain ⟨channel, hb | hb | hb⟩ := hb
        · exact frames_of_buffer? hb
        · exact frames_of_buffer? hb
        · exact frames_of_mixingBuffer? hb
      exact word?_of_lt (hframes ▸ hchannel)
    instances := hwell.voiceInstanceInWords_eq hfits
    fields := fun r hr index => by
      obtain ⟨voice, hvoice⟩ | heffect := hr
      · exact fieldInWords_eq (hstop _ (instance_mem hvoice)) index
      · exact fieldInWords_eq (hstop _ (effect_mem heffect)) index
    regions := hwell.regionsInWords_eq hfits }

end WellFormed

end MemoryPlan

/-! ### Exactness -/

namespace LayoutRequest

variable {r : LayoutRequest}

theorem layout_stride (r : LayoutRequest) :
    r.layout.stride = alignUp r.instanceSize r.alignment := by
  unfold layout
  cases Polyphony.ofRequested r.voices <;> rfl

theorem computedInWords_of_plan {p : MemoryPlan} (h : r.plan = .ok p) : p.ComputedInWords := by
  obtain ⟨hvalid, -⟩ := plan_eq_ok h
  obtain ⟨-, hpage, hwidth⟩ := validate_eq_ok_iff.mp hvalid
  have hwell := wellFormed_of_plan h
  have hblock := (answeredBy_of_plan h).blockLength
  rw [plan_of_validate hvalid] at h
  split_ifs at h with hfits
  obtain rfl := Except.ok.inj h
  obtain ⟨hchannel, harena⟩ := max_lt_iff.mp hfits
  have hstride : r.layout.stride < addressLimit :=
    (layout_stride r).trans_lt ((layout_spec (Nat.pos_of_ne_zero hpage)).1.trans_lt harena)
  rw [← hblock, hwidth] at hchannel
  exact hwell.computedInWords harena hstride hchannel

/-- Planning fails exactly when it must. The first of three checks that fails says why; after them
it hinges on the bytes of one channel and on the arena that the request has in an unbounded address
space. A plan that is had is the unbounded one, and no computation with it wraps. -/
theorem plan_exact (r : LayoutRequest) :
    (r.plan =
      if r.blockLength = 0 then .error .zeroBlockLength
      else if r.pageSize = 0 then .error .zeroPageSize
      else if r.sampleWidth ≠ 4 then .error (.unsupportedSampleWidth r.sampleWidth)
      else if 2 ^ 64 ≤ r.blockLength * 4 ∨ 2 ^ 64 ≤ r.layout.arenaSize then .error .tooLarge
      else .ok r.layout) ∧
    ∀ p, r.plan = .ok p → p.ComputedInWords := by
  refine ⟨?_, fun p => computedInWords_of_plan⟩
  have hinvalid {e : LayoutError} (h : r.validate = .error e) : r.plan = .error e := by
    unfold plan
    rw [h]
    rfl
  split_ifs with hblock hpage hwidth hlarge
  · exact hinvalid (if_pos hblock)
  · exact hinvalid (by rw [validate, if_neg hblock, if_pos hpage])
  · exact hinvalid (by rw [validate, if_neg hblock, if_neg hpage]; exact if_pos hwidth)
  · rw [plan_of_validate (validate_eq_ok_iff.mpr ⟨hblock, hpage, not_not.mp hwidth⟩),
      not_not.mp hwidth]
    exact if_neg fun h => hlarge.elim (max_lt_iff.mp h).1.not_ge (max_lt_iff.mp h).2.not_ge
  · rw [plan_of_validate (validate_eq_ok_iff.mpr ⟨hblock, hpage, not_not.mp hwidth⟩),
      not_not.mp hwidth]
    obtain ⟨hchannel, harena⟩ := not_or.mp hlarge
    exact if_pos (max_lt (not_le.mp hchannel) (not_le.mp harena))

/-- Odd sizes, wide pointers, voices and an effect. -/
theorem plan_exact_padded :
    ∃ p, (LayoutRequest.mk 13 1 2 5 3 .eight 4 (some 9) 64).plan = .ok p ∧ p.ComputedInWords :=
  ⟨_, rfl, (plan_exact (.mk 13 1 2 5 3 .eight 4 (some 9) 64)).2 _ rfl⟩

/-- Without channels, the bytes of one are looked at all the same. -/
example :
    { instanceSize := 1, inputs := 0, outputs := 0, blockLength := 2 ^ 62 : LayoutRequest }.plan =
      .error .tooLarge := rfl

end LayoutRequest

end DspHost
