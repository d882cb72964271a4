import DspHost.Proofs.Memory.Slices
import DspHost.Proofs.Number.Arithmetic

/-!
# Blocks of samples are moved exactly

Different sample buffers of a plan have no byte in common and lie inside the arena, whatever they
are for and whichever of them lies higher. So any two of them are added and every one of them is
written and read without fail, in every arena of the plan's size. What is moved are the samples that
both sides have room for. They arrive bit for bit, and everything else is left as it is.

## Main definitions

* `Arena.AddsBlock`, `Arena.WritesBlock`, `Arena.ReadsBlock` — what moving a block does
* `MemoryPlan.Names` — the sample buffers of a plan
* `MemoryPlan.Transfers` — blocks are moved exactly

## Main results

* `Arena.addsBlock`, `Arena.writesBlock`, `Arena.readsBlock` — moving a block inside an arena
* `MemoryPlan.WellFormed.disjoint_span` — different buffers of a plan have no byte in common
* `LayoutRequest.transfers_of_plan` — blocks are moved exactly in the arena of every plan
-/

namespace DspHost

namespace Arena

variable {a : Arena} {buffer target source : SampleBuffer}

/-! ### What moving a block does -/

/-- Adding one buffer to another ends. Every frame of the target becomes the sum of what stood there
and in the source, and no byte outside the target is changed. -/
structure AddsBlock (a : Arena) (target source : SampleBuffer) : Prop where
  ends : a.accumulateInSlices target source = some (a.accumulate target source)
  sum : ∀ i < target.frames, (a.accumulate target source).sample (target.offset + 4 * i) =
    a.sample (target.offset + 4 * i) + a.sample (source.offset + 4 * i)
  /-- The sum of finite samples is the exact one, rounded once. -/
  rounds : ∀ i < target.frames, (a.sample (target.offset + 4 * i)).isFinite = true →
    (a.sample (source.offset + 4 * i)).isFinite = true →
    ((a.accumulate target source).sample (target.offset + 4 * i)).Rounds
      ((a.sample (target.offset + 4 * i)).value + (a.sample (source.offset + 4 * i)).value)
  within : ChangedWithin target.span a (a.accumulate target source)

/-- Writing samples to a buffer ends. As many of them as the buffer holds are found there, and no
other byte is changed. -/
structure WritesBlock (a : Arena) (buffer : SampleBuffer) (samples : List Single) : Prop where
  ends : a.writeInSlices buffer samples = some (a.writeSamples buffer samples)
  written : ∀ i < min buffer.frames samples.length,
    some ((a.writeSamples buffer samples).sample (buffer.offset + 4 * i)) = samples[i]?
  within : ChangedWithin
    (Set.Ico buffer.offset (buffer.offset + 4 * min buffer.frames samples.length)) a
    (a.writeSamples buffer samples)

/-- Reading a buffer over samples ends. As many of them as the buffer holds are the ones that it
holds, and the others are left as they are. -/
structure ReadsBlock (a : Arena) (buffer : SampleBuffer) (samples : List Single) : Prop where
  ends : a.readInSlices buffer samples = some (a.readSamples buffer samples)
  front : ∀ i < min buffer.frames samples.length,
    (a.readSamples buffer samples)[i]? = some (a.sample (buffer.offset + 4 * i))
  rest : ∀ i, min buffer.frames samples.length ≤ i →
    (a.readSamples buffer samples)[i]? = samples[i]?

/-- Buffers apart from each other are added. -/
theorem addsBlock (htarget : target.offset + target.byteLength ≤ a.size)
    (hsource : source.offset + source.byteLength ≤ a.size) (hlimit : a.size < addressLimit)
    (hapart : Disjoint target.span source.span) (hframes : target.frames ≤ source.frames) :
    a.AddsBlock target source := by
  have hsum (i : ℕ) (hi : i < target.frames) :=
    sample_accumulate htarget hapart (lt_min hi (hi.trans_le hframes))
  exact {
    ends := accumulateInSlices_eq htarget hsource hlimit hapart
    sum := hsum
    rounds := fun i hi hx hy => by
      rw [hsum i hi]
      exact Single.rounds_add hx hy
    within := changedWithin_accumulate htarget hapart }

/-- Buffers inside the arena are written. -/
theorem writesBlock (hinside : buffer.offset + buffer.byteLength ≤ a.size)
    (hlimit : a.size < addressLimit) (samples : List Single) : a.WritesBlock buffer samples := by
  have hlength := buffer.byteLength_eq
  have hfront : (samples.take buffer.frames).length = min buffer.frames samples.length :=
    List.length_take
  refine ⟨writeInSlices_eq hinside hlimit samples, fun i hi => ?_,
    a.changedWithin_writeBytes_flatMap buffer.offset hfront⟩
  rw [writeSamples_eq, ← getElem?_block hi, block_writeBytes hfront (by omega),
    List.getElem?_take_of_lt (lt_min_iff.mp hi).1]

/-- Buffers inside the arena are read. -/
theorem readsBlock (hinside : buffer.offset + buffer.byteLength ≤ a.size)
    (hlimit : a.size < addressLimit) (samples : List Single) : a.ReadsBlock buffer samples := by
  have hread : a.readSamples buffer samples =
      a.block buffer.offset (min buffer.frames samples.length) ++
        samples.drop (min buffer.frames samples.length) := rfl
  refine ⟨readInSlices_eq hinside hlimit samples, fun i hi => ?_, fun i hi => ?_⟩
  · rw [hread, List.getElem?_append_left (by rwa [length_block]), getElem?_block hi]
  · rw [hread, List.getElem?_append_right (by rwa [length_block]), length_block,
      List.getElem?_drop, Nat.add_sub_cancel' hi]

end Arena

/-! ### The buffers of a plan -/

namespace MemoryPlan

variable {p : MemoryPlan} {kind kind' : RegionKind} {channel channel' : ℕ} {b b' : SampleBuffer}

/-- The buffer of a channel among the samples of a kind. -/
def sampleBuffer? (p : MemoryPlan) : RegionKind → ℕ → Option SampleBuffer
  | .inputSamples => p.inputBuffer?
  | .outputSamples => p.outputBuffer?
  | .mixingSamples => p.mixingBuffer?
  | _ => fun _ => none

/-- Whether something is a sample buffer of the plan. -/
def Names (p : MemoryPlan) (b : SampleBuffer) : Prop :=
  ∃ kind channel, p.sampleBuffer? kind channel = some b

theorem holds_sampleBuffer (h : p.sampleBuffer? kind channel = some b) :
    p.Holds (bufferPart kind b) := by
  cases kind with
  | inputSamples => exact holds_inputBuffer h
  | outputSamples => exact holds_outputBuffer h
  | mixingSamples => exact holds_mixingBuffer h
  | _ => cases h

theorem frames_of_sampleBuffer? (h : p.sampleBuffer? kind channel = some b) :
    b.frames = p.blockLength := by
  cases kind with
  | inputSamples => exact frames_of_buffer? h
  | outputSamples => exact frames_of_buffer? h
  | mixingSamples => exact frames_of_mixingBuffer? h
  | _ => cases h

/-- Buffers of different channels have no byte in common. -/
theorem disjoint_sampleBuffers (h : p.sampleBuffer? kind channel = some b)
    (h' : p.sampleBuffer? kind channel' = some b') (hne : channel ≠ channel') :
    Disjoint b.span b'.span := by
  cases kind with
  | inputSamples => exact disjoint_buffers p.inputSamples_mem h h' hne
  | outputSamples => exact disjoint_outputBuffers h h' hne
  | mixingSamples => exact disjoint_mixingBuffers h h' hne
  | _ => cases h

/-- Different buffers of a plan have no byte in common, whatever they are for. -/
theorem WellFormed.disjoint_span (hwell : p.WellFormed) (h : p.Names b) (h' : p.Names b')
    (hne : b ≠ b') : Disjoint b.span b'.span := by
  obtain ⟨kind, channel, h⟩ := h
  obtain ⟨kind', channel', h'⟩ := h'
  by_cases hkind : kind = kind'
  · subst hkind
    refine disjoint_sampleBuffers h h' fun hchannel => hne ?_
    subst hchannel
    exact Option.some.inj (h.symm.trans h')
  · exact (hwell.disjoint_area (Set.disjoint_singleton.mpr hkind)).mono
      (holds_sampleBuffer h).subset_area (holds_sampleBuffer h').subset_area

theorem Names.frames_eq (h : p.Names b) : b.frames = p.blockLength := by
  obtain ⟨kind, channel, h⟩ := h
  exact frames_of_sampleBuffer? h

theorem Names.stop_le_arenaSize (h : p.Names b) (hwell : p.WellFormed) :
    b.offset + b.byteLength ≤ p.arenaSize := by
  obtain ⟨kind, channel, h⟩ := h
  exact (holds_sampleBuffer h).stop_le_arenaSize hwell

/-- Blocks are moved exactly in an arena, from and to the buffers of a plan. -/
structure Transfers (p : MemoryPlan) (a : Arena) : Prop where
  adds : ∀ target source, p.Names target → p.Names source → target ≠ source →
    a.AddsBlock target source
  writes : ∀ buffer, p.Names buffer → ∀ samples, a.WritesBlock buffer samples
  reads : ∀ buffer, p.Names buffer → ∀ samples, a.ReadsBlock buffer samples

end MemoryPlan

namespace LayoutRequest

variable {r : LayoutRequest} {p : MemoryPlan} {a : Arena}

/-- Blocks are moved exactly in the arena of a plan, whatever it holds: any two different buffers
are added, in either order, and every buffer is written and read. -/
theorem transfers_of_plan (h : r.plan = .ok p) (hsize : a.size = p.arenaSize) : p.Transfers a := by
  have hwell := wellFormed_of_plan h
  have hlimit : a.size < addressLimit := hsize.trans_lt (computedInWords_of_plan h).arenaSize
  have hinside {b : SampleBuffer} (hb : p.Names b) : b.offset + b.byteLength ≤ a.size :=
    hsize ▸ hb.stop_le_arenaSize hwell
  refine ⟨fun target source ht hs hne => ?_, fun b hb => Arena.writesBlock (hinside hb) hlimit,
    fun b hb => Arena.readsBlock (hinside hb) hlimit⟩
  have hframes : target.frames = source.frames := ht.frames_eq.trans hs.frames_eq.symm
  exact Arena.addsBlock (hinside ht) (hinside hs) hlimit (hwell.disjoint_span ht hs hne) hframes.le

/-- The last output buffer ends where the first mixing buffer begins, and either is added to the
other. -/
theorem transfers_of_plan_adjacent : ∃ p output mixing,
    (LayoutRequest.mk 16 0 2 3 1 .four 4 none 64).plan = .ok p ∧ p.arena.size = p.arenaSize ∧
      p.outputBuffer? 1 = some output ∧ p.mixingBuffer? 0 = some mixing ∧ output ≠ mixing ∧
      output.offset + output.byteLength = mixing.offset ∧
      p.arena.AddsBlock output mixing ∧ p.arena.AddsBlock mixing output := by
  obtain ⟨p, hp⟩ : ∃ p, (LayoutRequest.mk 16 0 2 3 1 .four 4 none 64).plan = .ok p := ⟨_, rfl⟩
  have htransfers := transfers_of_plan hp p.size_arena
  obtain rfl := Except.ok.inj hp
  refine ⟨_, _, _, rfl, MemoryPlan.size_arena _, rfl, rfl, by decide, rfl, ?_, ?_⟩
  · exact htransfers.adds _ _ ⟨.outputSamples, 1, rfl⟩ ⟨.mixingSamples, 0, rfl⟩ (by decide)
  · exact htransfers.adds _ _ ⟨.mixingSamples, 0, rfl⟩ ⟨.outputSamples, 1, rfl⟩ (by decide)

end LayoutRequest

end DspHost
