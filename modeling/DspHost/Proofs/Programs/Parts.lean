import DspHost.Programs.Frames
import DspHost.Proofs.Engine.Contract

/-!
# Parts of module code

Module code stores and loads fields of its instance, follows the words of its tables to samples, and
walks through the frames of a block. Each of these ends in a hosted arena. What is left then depends
on the parts in order: fields that do not overlap hold what was stored there, and a loop over frames
keeps whatever one frame hands on to the next.

## Main definitions

* `Arena.storeFields` — an arena in which several fields of an instance were stored
* `MemoryPlan.source?` — the buffers that code reads from

## Main results

* `Arena.readField?_storeFields` — fields that do not overlap are read back
* `Access.Ends.forFrames`, `Access.Ends.foldFrames` — loops over frames
* `MemoryPlan.Hosts.loadPointer_buffer`, `MemoryPlan.Hosts.loadPointer_source` — where the words of
  tables lead to
-/

namespace DspHost

/-! ### Fields -/

namespace Arena

variable {a b : Arena} {region : InstanceRegion} {fields : List (ℕ × Single)} {index : ℕ}

/-- The arena in which several fields of an instance were stored, one after the other. -/
def storeFields (a : Arena) (region : InstanceRegion) (fields : List (ℕ × Single)) : Arena :=
  fields.foldl (fun a field => a.setSample (region.offset + field.1) field.2) a

theorem storeFields_cons (a : Arena) (region : InstanceRegion) (field : ℕ × Single)
    (rest : List (ℕ × Single)) :
    a.storeFields region (field :: rest) =
      (a.setSample (region.offset + field.1) field.2).storeFields region rest := by
  rw [storeFields, List.foldl_cons, storeFields]

/-- Fields are stored where they are. -/
theorem changedWithin_storeFields (a : Arena) (region : InstanceRegion)
    (fields : List (ℕ × Single)) :
    ChangedWithin {i | ∃ field ∈ fields, i ∈ region.fieldSpan field.1} a
      (a.storeFields region fields) := by
  induction fields generalizing a with
  | nil => exact .refl _ a
  | cons field rest ih =>
    have hfirst := changedWithin_setSample a (region.offset + field.1) field.2
    rw [storeFields_cons]
    refine (hfirst.mono fun i hi => ?_).trans ((ih _).mono ?_)
    · exact ⟨field, List.mem_cons_self, hi⟩
    · rintro i ⟨other, hother, hi⟩
      exact ⟨other, List.mem_cons_of_mem field hother, hi⟩

theorem readField?_eq_sample (hfits : index + 4 ≤ region.size)
    (hinside : region.offset + region.size ≤ a.size) :
    a.readField? region index = some (a.sample (region.offset + index)) := by
  have haddress : region.field? index = some (region.offset + index) := if_pos hfits
  have hroom : a.fits (region.offset + index) 4 = true := decide_eq_true (by omega)
  rw [readField?, haddress, Option.bind_some, loadSingle, load32, if_pos hroom]
  rfl

/-- Fields that do not overlap are read back, whatever their order. -/
theorem readField?_storeFields (hfits : ∀ field ∈ fields, field.1 + 4 ≤ region.size)
    (hinside : region.offset + region.size ≤ a.size)
    (hapart : fields.Pairwise fun f g => f.1 + 4 ≤ g.1 ∨ g.1 + 4 ≤ f.1) :
    ∀ field ∈ fields, (a.storeFields region fields).readField? region field.1 = some field.2 := by
  induction fields generalizing a with
  | nil => simp
  | cons first rest ih =>
    obtain ⟨hlater, hrest⟩ := List.pairwise_cons.mp hapart
    have hfirst := hfits first List.mem_cons_self
    have hwrite := changedWithin_setSample a (region.offset + first.1) first.2
    have hinside' : region.offset + region.size ≤
        (a.setSample (region.offset + first.1) first.2).size := by rwa [hwrite.size_eq]
    intro field hfield
    rw [storeFields_cons]
    rcases List.mem_cons.mp hfield with rfl | hfield
    · -- Later fields leave the first one alone.
      refine ((changedWithin_storeFields _ region rest).readField?_eq ?_).trans ?_
      · rw [Set.disjoint_left]
        rintro i hi ⟨other, hother, hi'⟩
        exact Set.disjoint_left.mp (region.disjoint_fieldSpan (hlater other hother)) hi hi'
      · rw [readField?_eq_sample hfirst hinside', sample_setSample (by omega)]
    · exact ih (fun other hother => hfits other (List.mem_cons_of_mem first hother)) hinside' hrest
        field hfield

end Arena

/-! ### Loops -/

theorem frameAddress_eq (base frame : ℕ) : frameAddress base frame = base + 4 * frame := by
  rw [frameAddress, sampleWidth, Nat.mul_comm]

namespace Access.Ends

variable {a : Arena} {count : ℕ}

/-- Code for every frame ends, and hands on to every frame what the frames before it have
established. -/
theorem foldFrames {σ : Type} {code : σ → ℕ → Access σ} {state : σ}
    (invariant : ℕ → σ → Arena → Prop)
    (step : ∀ i < count, ∀ s b, invariant i s b → (code s i).Ends b (invariant (i + 1)))
    (h : invariant 0 state a) : (DspHost.foldFrames count code state).Ends a (invariant count) := by
  -- The induction is on the frames that are left, so the invariant knows how many are done.
  suffices hfrom : ∀ n start s b, start + n = count → invariant start s b →
      (Access.foldEach code s (List.range' start n)).Ends b (invariant count) by
    rw [DspHost.foldFrames, List.range_eq_range']
    exact hfrom count 0 state a (Nat.zero_add count) h
  intro n
  induction n with
  | zero =>
    rintro start s b rfl hb
    exact .pure hb
  | succ n ih =>
    intro start s b hcount hb
    refine .bind ((step start (by omega) s b hb).mono fun s c hc => ?_)
    exact ih (start + 1) s c (by omega) hc

theorem forFrames {code : ℕ → Access Unit} (invariant : ℕ → Arena → Prop)
    (step : ∀ i < count, ∀ b, invariant i b → (code i).Ends b fun _ c => invariant (i + 1) c)
    (h : invariant 0 a) :
    (DspHost.forFrames count code).Ends a fun _ b => invariant count b := by
  suffices hfrom : ∀ n start b, start + n = count → invariant start b →
      (Access.forEach code (List.range' start n)).Ends b fun _ c => invariant count c by
    rw [DspHost.forFrames, List.range_eq_range']
    exact hfrom count 0 a (Nat.zero_add count) h
  intro n
  induction n with
  | zero =>
    rintro start b rfl hb
    exact .pure hb
  | succ n ih =>
    intro start b hcount hb
    refine .bind ((step start (by omega) b hb).mono fun _ c hc => ?_)
    exact ih (start + 1) c (by omega) hc

end Access.Ends

/-! ### Channels -/

namespace MemoryPlan

variable {p : MemoryPlan} {a : Arena} {scope : Scope} {region : InstanceRegion}
  {channel channel' : ℕ} {source target target' : SampleBuffer}

/-- The buffers that the input table of a scope names. -/
def source? (p : MemoryPlan) : Scope → ℕ → Option SampleBuffer
  | .voice => p.inputBuffer?
  | .effect => p.outputBuffer?

theorem inputs_seat (p : MemoryPlan) (region : InstanceRegion) :
    (p.seat .voice region).inputs = p.inputTable.offset ∧
      (p.seat .effect region).inputs = p.outputTable.offset := by
  refine ⟨?_, by rw [seat_effect]⟩
  cases hm : p.mixing with
  | none => rw [seat_of_mixing_eq_none hm]
  | some m => rw [seat_of_mixing_eq_some hm]

/-- Every output channel has a buffer. -/
theorem exists_buffer (scope : Scope) (region : InstanceRegion) (h : channel < p.outputs) :
    ∃ target, (p.seat scope region).buffer? channel = some target := by
  rcases p.seat_cases scope region with ⟨-, hbuffer⟩ | ⟨m, hm, -, hbuffer⟩
  · rw [hbuffer]
    exact ⟨_, if_pos h⟩
  · rw [hbuffer, mixingBuffer?, hm]
    exact ⟨_, if_pos h⟩

/-- Only output channels have buffers. -/
theorem lt_of_buffer (h : (p.seat scope region).buffer? channel = some target) :
    channel < p.outputs := by
  rcases p.seat_cases scope region with ⟨-, hbuffer⟩ | ⟨m, hm, -, hbuffer⟩
  · rw [hbuffer] at h
    exact lt_of_buffer? h
  · rw [hbuffer, mixingBuffer?, hm] at h
    exact lt_of_buffer? h

/-- Buffers hold a block. -/
theorem frames_of_buffer (h : (p.seat scope region).buffer? channel = some target) :
    target.frames = p.blockLength := by
  rcases p.seat_cases scope region with ⟨-, hbuffer⟩ | ⟨m, -, -, hbuffer⟩
  · rw [hbuffer] at h
    exact frames_of_buffer? h
  · rw [hbuffer] at h
    exact frames_of_mixingBuffer? h

theorem frames_of_source (h : p.source? scope channel = some source) :
    source.frames = p.blockLength := by
  cases scope with
  | voice => exact frames_of_buffer? h
  | effect => exact frames_of_buffer? h

/-- Buffers lie in the arena. -/
theorem WellFormed.buffer_le_arenaSize (hwell : p.WellFormed)
    (h : (p.seat scope region).buffer? channel = some target) :
    target.offset + target.byteLength ≤ p.arenaSize := by
  rcases p.seat_cases scope region with ⟨-, hbuffer⟩ | ⟨m, -, -, hbuffer⟩
  · rw [hbuffer] at h
    exact (holds_outputBuffer h).stop_le_arenaSize hwell
  · rw [hbuffer] at h
    exact (holds_mixingBuffer h).stop_le_arenaSize hwell

theorem WellFormed.source_le_arenaSize (hwell : p.WellFormed)
    (h : p.source? scope channel = some source) :
    source.offset + source.byteLength ≤ p.arenaSize := by
  cases scope with
  | voice => exact (holds_inputBuffer h).stop_le_arenaSize hwell
  | effect => exact (holds_outputBuffer h).stop_le_arenaSize hwell

/-- Different channels have buffers that share no byte. -/
theorem disjoint_buffers_of_ne (h : (p.seat scope region).buffer? channel = some target)
    (h' : (p.seat scope region).buffer? channel' = some target') (hne : channel ≠ channel') :
    Disjoint target.span target'.span := by
  rcases p.seat_cases scope region with ⟨-, hbuffer⟩ | ⟨m, -, -, hbuffer⟩
  · rw [hbuffer] at h h'
    exact disjoint_outputBuffers h h' hne
  · rw [hbuffer] at h h'
    exact disjoint_mixingBuffers h h' hne

/-- Code reads from the buffer that it writes to, or the two share no byte. -/
theorem WellFormed.source_apart (hwell : p.WellFormed)
    (hsource : p.source? scope channel = some source)
    (htarget : (p.seat scope region).buffer? channel' = some target) :
    (channel = channel' ∧ source = target) ∨ Disjoint source.span target.span := by
  cases scope with
  | voice =>
    have hinput := (holds_inputBuffer hsource).subset_area
    refine .inr ?_
    rcases p.seat_cases .voice region with ⟨-, hbuffer⟩ | ⟨m, -, -, hbuffer⟩
    · rw [hbuffer] at htarget
      have hkinds : Disjoint (p.area {.inputSamples}) (p.area {.outputSamples}) :=
        hwell.disjoint_area (by simp)
      exact hkinds.mono hinput (outputBuffer_subset_area htarget)
    · rw [hbuffer] at htarget
      have hkinds : Disjoint (p.area {.inputSamples}) (p.area {.mixingSamples}) :=
        hwell.disjoint_area (by simp)
      exact hkinds.mono hinput (mixingBuffer_subset_area htarget)
  | effect =>
    -- The effect is in place: both tables are the output table.
    rw [seat_effect] at htarget
    by_cases heq : channel = channel'
    · subst heq
      exact .inl ⟨rfl, Option.some.inj (hsource.symm.trans htarget)⟩
    · exact .inr (disjoint_outputBuffers hsource htarget heq)

/-! ### Pointers -/

theorem Hosts.loadPointer_output (ha : p.Hosts a) (hwell : p.WellFormed)
    (h : p.outputBuffer? channel = some target) :
    a.loadPointer (p.outputTable.offset + channel * a.pointerWidth.bytes) = .ok target.offset := by
  refine ha.output channel _ target ?_ h
  rw [hwell.outputTable, PointerTable.slot?_eq_some_iff, ha.width_eq]
  exact ⟨lt_of_buffer? h, rfl⟩

/-- The output table leads to the buffers that code writes to. -/
theorem Hosts.loadPointer_buffer (ha : p.Hosts a) (hwell : p.WellFormed)
    (h : (p.seat scope region).buffer? channel = some target) :
    a.loadPointer ((p.seat scope region).outputs + channel * a.pointerWidth.bytes) =
      .ok target.offset := by
  rcases p.seat_cases scope region with ⟨houtputs, hbuffer⟩ | ⟨m, hm, houtputs, hbuffer⟩
  · rw [hbuffer] at h
    rw [houtputs]
    exact ha.loadPointer_output hwell h
  · rw [hbuffer] at h
    rw [houtputs]
    have hlt : channel < p.outputs := by
      rw [mixingBuffer?, hm] at h
      exact lt_of_buffer? h
    refine ha.mixing channel _ target ?_ h
    rw [hm, Option.bind_some, hwell.mixingTable m hm, PointerTable.slot?_eq_some_iff, ha.width_eq]
    exact ⟨hlt, rfl⟩

/-- The input table leads to the buffers that code reads from. -/
theorem Hosts.loadPointer_source (ha : p.Hosts a) (hwell : p.WellFormed)
    (h : p.source? scope channel = some source) :
    a.loadPointer ((p.seat scope region).inputs + channel * a.pointerWidth.bytes) =
      .ok source.offset := by
  cases scope with
  | voice =>
    rw [(p.inputs_seat region).1]
    refine ha.input channel _ source ?_ h
    rw [hwell.inputTable, PointerTable.slot?_eq_some_iff, ha.width_eq]
    exact ⟨lt_of_buffer? h, rfl⟩
  | effect =>
    rw [(p.inputs_seat region).2]
    exact ha.loadPointer_output hwell h

end MemoryPlan

/-! ### What code may write -/

section Writable

variable {r : Router} {scope : Scope} {region : InstanceRegion} {fields : List (ℕ × Single)}
  {index channel : ℕ} {target : SampleBuffer}

/-- Code may write a field that it need not mind. -/
theorem fieldSpan_subset_writable (hfits : index + 4 ≤ region.size)
    (hapart : ∀ field ∈ fields, field.1 + 4 ≤ index ∨ index + 4 ≤ field.1) :
    region.fieldSpan index ⊆ (r.plan.seat scope region).writable \ region.bytesOf fields := by
  intro i hi
  refine ⟨.inl ?_, ?_⟩
  · rw [MemoryPlan.region_seat]
    exact region.fieldSpan_subset hfits hi
  · rintro ⟨-, field, hfield, hi'⟩
    exact Set.disjoint_left.mp (region.disjoint_fieldSpan (hapart field hfield)) hi' hi

/-- Code may write its output buffers. -/
theorem span_subset_writable (hwell : r.plan.WellFormed) (hregion : region ∈ r.regions scope)
    (htarget : (r.plan.seat scope region).buffer? channel = some target) :
    target.span ⊆ (r.plan.seat scope region).writable \ region.bytesOf fields := by
  refine fun i hi => ⟨.inr ⟨channel, target, htarget, hi⟩, ?_⟩
  rintro ⟨hinside, -⟩
  have hapart := Router.disjoint_footprint_samples hwell hregion
  exact Set.disjoint_left.mp hapart hinside
    (r.plan.buffers_subset scope region ⟨channel, target, htarget, hi⟩)

/-- An instance in which all fields were stored holds each of them. -/
theorem storeFields_spec {a : Arena} {stored : List (ℕ × Single)}
    (hfits : ∀ field ∈ stored, field.1 + 4 ≤ region.size)
    (hinside : region.offset + region.size ≤ a.size)
    (hapart : stored.Pairwise fun f g => f.1 + 4 ≤ g.1 ∨ g.1 + 4 ≤ f.1)
    (hfields : fields ⊆ stored) :
    Arena.ChangedWithin (r.plan.seat scope region).writable a (a.storeFields region stored) ∧
      ∀ field ∈ fields, (a.storeFields region stored).readField? region field.1 = some field.2 := by
  refine ⟨(a.changedWithin_storeFields region stored).mono ?_, fun field hfield => ?_⟩
  · rintro i ⟨field, hfield, hi⟩
    refine .inl ?_
    rw [MemoryPlan.region_seat]
    exact region.fieldSpan_subset (hfits field hfield) hi
  · exact Arena.readField?_storeFields hfits hinside hapart field (hfields hfield)

end Writable

end DspHost
