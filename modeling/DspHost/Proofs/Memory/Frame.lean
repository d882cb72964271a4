import DspHost.Control.Router
import Mathlib

/-!
# What an access leaves alone

Everything that is read out of an arena is made of bytes, so a value is kept if its bytes are. Each
way of writing to an arena is described by the bytes that it can change; what was written is read
back, and everything else is as before.

## Main definitions

* `Arena.byteAt` — one byte
* `Arena.ChangedWithin` — two arenas of one shape that differ in a set of bytes at most
* `InstanceRegion.footprint`, `InstanceRegion.fieldSpan`, `SampleBuffer.span` — sets of bytes

## Main results

* `Arena.changedWithin_writeBytes`, `Arena.changedWithin_writeField` — what is changed
* `Arena.readField?_writeField` — a control that was written is read back
* `Arena.sample_accumulate` — samples are added where they stand
-/

namespace DspHost

/-- The bytes of an instance. -/
def InstanceRegion.footprint (r : InstanceRegion) : Set ℕ := Set.Ico r.offset (r.offset + r.size)

/-- The bytes of a control at an offset of an instance. -/
def InstanceRegion.fieldSpan (r : InstanceRegion) (index : ℕ) : Set ℕ :=
  Set.Ico (r.offset + index) (r.offset + index + 4)

/-- The bytes of a sample buffer. -/
def SampleBuffer.span (b : SampleBuffer) : Set ℕ := Set.Ico b.offset (b.offset + b.byteLength)

theorem InstanceRegion.fieldSpan_subset {r : InstanceRegion} {index : ℕ} (h : index + 4 ≤ r.size) :
    r.fieldSpan index ⊆ r.footprint :=
  Set.Ico_subset_Ico (Nat.le_add_right _ _) (by omega)

theorem SampleBuffer.frame_subset_span {b : SampleBuffer} {i : ℕ} (h : i < b.frames) :
    Set.Ico (b.offset + 4 * i) (b.offset + 4 * i + 4) ⊆ b.span := by
  have hlength : b.byteLength = 4 * b.frames := Nat.mul_comm _ _
  exact Set.Ico_subset_Ico (Nat.le_add_right _ _) (by omega)

/-- Fields that do not overlap within an instance have no byte in common. -/
theorem InstanceRegion.disjoint_fieldSpan {r : InstanceRegion} {index index' : ℕ}
    (h : index + 4 ≤ index' ∨ index' + 4 ≤ index) :
    Disjoint (r.fieldSpan index) (r.fieldSpan index') := by
  rw [Set.disjoint_left]
  rintro i ⟨hlow, hhigh⟩ ⟨hlow', hhigh'⟩
  omega

namespace Arena

variable {a b c : Arena} {s t : Set ℕ}

/-- The byte at an address; past the end it counts as zero. -/
def byteAt (a : Arena) (i : ℕ) : UInt8 := a.bytes.getD i 0

/-! ### Reading -/

theorem readBytes_congr {start length : ℕ}
    (h : Set.EqOn a.byteAt b.byteAt (Set.Ico start (start + length))) :
    a.readBytes start length = b.readBytes start length :=
  readBytesFrom_congr fun _ hlow hhigh => h ⟨hlow, hhigh⟩

theorem word_congr {address width : ℕ}
    (h : Set.EqOn a.byteAt b.byteAt (Set.Ico address (address + width))) :
    a.word address width = b.word address width := by
  rw [word, readBytes_congr h, word]

theorem sample_congr {address : ℕ}
    (h : Set.EqOn a.byteAt b.byteAt (Set.Ico address (address + 4))) :
    a.sample address = b.sample address := by
  rw [sample, word_congr h, sample]

/-! ### Changes within a set of bytes -/

/-- The arena has its shape, and bytes outside a set are as before. -/
structure ChangedWithin (s : Set ℕ) (a b : Arena) : Prop where
  size_eq : b.size = a.size
  width_eq : b.pointerWidth = a.pointerWidth
  eqOn : Set.EqOn b.byteAt a.byteAt sᶜ

namespace ChangedWithin

theorem refl (s : Set ℕ) (a : Arena) : ChangedWithin s a a := ⟨rfl, rfl, fun _ _ => rfl⟩

theorem trans (h : ChangedWithin s a b) (h' : ChangedWithin s b c) : ChangedWithin s a c :=
  ⟨h'.size_eq.trans h.size_eq, h'.width_eq.trans h.width_eq, h'.eqOn.trans h.eqOn⟩

theorem mono (h : ChangedWithin s a b) (hst : s ⊆ t) : ChangedWithin t a b :=
  ⟨h.size_eq, h.width_eq, h.eqOn.mono (Set.compl_subset_compl.mpr hst)⟩

/-- What is within two sets is within what they have in common. -/
theorem inter (h : ChangedWithin s a b) (h' : ChangedWithin t a b) : ChangedWithin (s ∩ t) a b := by
  refine ⟨h.size_eq, h.width_eq, fun i hi => ?_⟩
  rcases Set.compl_inter s t ▸ hi with his | hit
  · exact h.eqOn his
  · exact h'.eqOn hit

theorem eqOn_of_disjoint (h : ChangedWithin s a b) (hd : Disjoint t s) :
    Set.EqOn b.byteAt a.byteAt t :=
  h.eqOn.mono hd.subset_compl_right

theorem sample_eq {address : ℕ} (h : ChangedWithin s a b)
    (hd : Disjoint (Set.Ico address (address + 4)) s) : b.sample address = a.sample address :=
  sample_congr (h.eqOn_of_disjoint hd)

theorem fits_eq (h : ChangedWithin s a b) (address length : ℕ) :
    b.fits address length = a.fits address length := by
  rw [fits, fits, h.size_eq]

theorem loadPointer_eq {address : ℕ} (h : ChangedWithin s a b)
    (hd : Disjoint (Set.Ico address (address + a.pointerWidth.bytes)) s) :
    b.loadPointer address = a.loadPointer address := by
  simp only [loadPointer]
  rw [h.width_eq, h.fits_eq, word_congr (h.eqOn_of_disjoint hd)]

theorem readField?_eq {r : InstanceRegion} {index : ℕ} (h : ChangedWithin s a b)
    (hd : Disjoint (r.fieldSpan index) s) : b.readField? r index = a.readField? r index := by
  unfold readField? InstanceRegion.field?
  split
  · rw [Option.bind_some, Option.bind_some, loadSingle, loadSingle, load32, load32, h.fits_eq,
      word_congr (h.eqOn_of_disjoint hd)]
  · rfl

end ChangedWithin

/-! ### Writing -/

theorem changedWithin_writeBytes (a : Arena) (start : ℕ) (values : List UInt8) :
    ChangedWithin (Set.Ico start (start + values.length)) a (a.writeBytes start values) := by
  refine ⟨size_writeBytes a start values, rfl, fun i hi => ?_⟩
  refine getD_writeBytesFrom_of_outside a.bytes start values i ?_
  simpa [Nat.lt_or_ge, imp_iff_not_or] using hi

theorem changedWithin_setWord (a : Arena) (address width n : ℕ) :
    ChangedWithin (Set.Ico address (address + width)) a (a.setWord address width n) := by
  have h := changedWithin_writeBytes a address (wordBytes width n)
  rwa [length_wordBytes] at h

theorem changedWithin_setSample (a : Arena) (address : ℕ) (value : Single) :
    ChangedWithin (Set.Ico address (address + 4)) a (a.setSample address value) :=
  changedWithin_setWord a address 4 value.bits.toNat

@[simp] theorem size_setSample (a : Arena) (address : ℕ) (value : Single) :
    (a.setSample address value).size = a.size := a.size_setWord address 4 value.bits.toNat

theorem sample_setSample {address : ℕ} (h : address + 4 ≤ a.size) (value : Single) :
    (a.setSample address value).sample address = value := by
  have hbits : value.bits.toNat % power 256 4 = value.bits.toNat :=
    Nat.mod_eq_of_lt value.bits.toNat_lt
  rw [sample, setSample, word_setWord a address 4 _ h, hbits, Nat.toUInt32_eq, UInt32.ofNat_toNat]

/-! ### Controls -/

theorem changedWithin_writeField (a : Arena) (r : InstanceRegion) (index : ℕ) (value : Single) :
    ChangedWithin (r.fieldSpan index) a (a.writeField r index value) := by
  unfold writeField
  split
  · next address haddress =>
    obtain ⟨-, rfl⟩ := InstanceRegion.field?_eq_some_iff.mp haddress
    split
    · exact changedWithin_setSample a _ value
    · exact ChangedWithin.refl _ a
  · exact ChangedWithin.refl _ a

/-- A control that does not fit its instance has no address, and nothing is written. -/
theorem changedWithin_fittingField (a : Arena) (r : InstanceRegion) (index : ℕ) (value : Single) :
    ChangedWithin {i | index + 4 ≤ r.size ∧ i ∈ r.fieldSpan index} a
      (a.writeField r index value) := by
  by_cases hfits : index + 4 ≤ r.size
  · exact (changedWithin_writeField a r index value).mono fun _ hi => ⟨hfits, hi⟩
  · have hkept : a.writeField r index value = a := by
      simp [writeField, InstanceRegion.field?, hfits]
    rw [hkept]
    exact ChangedWithin.refl _ a

/-- A control is written inside its instance only. -/
theorem changedWithin_footprint_writeField (a : Arena) (r : InstanceRegion) (index : ℕ)
    (value : Single) : ChangedWithin r.footprint a (a.writeField r index value) := by
  refine (changedWithin_fittingField a r index value).mono ?_
  rintro i ⟨hfits, hi⟩
  exact r.fieldSpan_subset hfits hi

/-- A control that was written is read back. -/
theorem readField?_writeField {r : InstanceRegion} {index : ℕ} (hfits : index + 4 ≤ r.size)
    (hinside : r.offset + r.size ≤ a.size) (value : Single) :
    (a.writeField r index value).readField? r index = some value := by
  have haddress : r.field? index = some (r.offset + index) := if_pos hfits
  have hroom : r.offset + index + 4 ≤ a.size := by omega
  have hwrite : a.writeField r index value = a.setSample (r.offset + index) value := by
    simp [writeField, haddress, fits, hroom]
  have hread := sample_setSample hroom value
  have hsize := (changedWithin_setSample a (r.offset + index) value).size_eq
  rw [hwrite, readField?, haddress, Option.bind_some, loadSingle, load32, fits, hsize,
    if_pos (by simpa using hroom)]
  exact congrArg some hread

/-! ### Samples -/

theorem readBytes_eq_map (a : Arena) (start length : ℕ) :
    a.readBytes start length = (List.range length).map fun k => a.byteAt (start + k) := by
  unfold readBytes
  induction length generalizing start with
  | zero => rfl
  | succ length ih =>
    rw [readBytesFrom, ih, List.range_succ_eq_map, List.map_cons, List.map_map]
    congr 1
    refine List.map_congr_left fun k _ => ?_
    rw [Function.comp, Nat.add_assoc, Nat.add_comm 1 k]

theorem byteAt_writeBytes {start k : ℕ} {values : List UInt8} (h : start + values.length ≤ a.size)
    (hk : k < values.length) : (a.writeBytes start values).byteAt (start + k) = values[k] := by
  have hread := readBytes_writeBytes a start values h
  rw [readBytes_eq_map] at hread
  have hget := congrArg (·[k]?) hread
  simpa [hk] using hget

theorem word_eq_zero {address width : ℕ}
    (h : ∀ i ∈ Set.Ico address (address + width), a.byteAt i = 0) : a.word address width = 0 := by
  unfold word
  rw [readBytes_eq_map]
  induction width generalizing address with
  | zero => rfl
  | succ width ih =>
    have hfirst : a.byteAt address = 0 := h address ⟨le_rfl, by omega⟩
    have hrest := @ih (address + 1) fun i hi => h i ⟨by have := hi.1; omega, by have := hi.2; omega⟩
    have hshift : ((fun k => a.byteAt (address + k)) ∘ Nat.succ) =
        fun k => a.byteAt (address + 1 + k) :=
      funext fun k => congrArg a.byteAt (by omega)
    rw [List.range_succ_eq_map, List.map_cons, List.map_map, hshift, wordValue, hrest]
    simp [hfirst]

/-- Spelling out a number that was read gives back its bytes. -/
theorem wordBytes_wordValue (bytes : List UInt8) :
    wordBytes bytes.length (wordValue bytes) = bytes := by
  induction bytes with
  | nil => rfl
  | cons b rest ih =>
    have hb := b.toNat_lt
    have hlow : (b.toNat + 256 * wordValue rest).toUInt8 = b := by
      refine UInt8.toNat_inj.mp ?_
      simp
    have hhigh : (b.toNat + 256 * wordValue rest) / 256 = wordValue rest := by omega
    rw [List.length_cons, wordValue, wordBytes, hlow, hhigh, ih]

/-- Samples that are equal are made of the same bytes. -/
theorem eqOn_of_sample_eq {address : ℕ} (h : a.sample address = b.sample address) :
    Set.EqOn a.byteAt b.byteAt (Set.Ico address (address + 4)) := by
  have hlength (a : Arena) : (a.readBytes address 4).length = 4 := by
    rw [readBytes_eq_map, List.length_map, List.length_range]
  -- A word of four bytes is below the modulus of its bits, so equal bits are equal words.
  have hword : a.word address 4 = b.word address 4 := by
    have hnat (a : Arena) : (a.word address 4).toUInt32.toNat = a.word address 4 := by
      have hlt := wordValue_lt (a.readBytes address 4)
      rw [hlength] at hlt
      exact UInt32.toNat_ofNat_of_lt hlt
    have hbits : (a.word address 4).toUInt32 = (b.word address 4).toUInt32 :=
      congrArg Single.bits h
    rw [← hnat a, hbits, hnat b]
  have hbytes : a.readBytes address 4 = b.readBytes address 4 := by
    have ha := wordBytes_wordValue (a.readBytes address 4)
    have hb := wordBytes_wordValue (b.readBytes address 4)
    rw [hlength] at ha hb
    exact (ha.symm.trans (congrArg (wordBytes 4) hword)).trans hb
  rw [readBytes_eq_map, readBytes_eq_map] at hbytes
  rintro i ⟨hlow, hhigh⟩
  have hget := congrArg (·[i - address]?) hbytes
  have hlt : i - address < 4 := by omega
  simpa [hlt, Nat.add_sub_cancel' hlow] using hget

/-- A zeroed buffer holds zeros. -/
theorem sample_zeroed {b : SampleBuffer} {i : ℕ} (hinside : b.offset + b.byteLength ≤ a.size)
    (hi : i < b.frames) :
    (a.writeBytes b.offset (List.replicate b.byteLength 0)).sample (b.offset + 4 * i) =
      .zero := by
  have hlength : b.byteLength = 4 * b.frames := Nat.mul_comm _ _
  have hzero : ∀ j ∈ Set.Ico (b.offset + 4 * i) (b.offset + 4 * i + 4),
      (a.writeBytes b.offset (List.replicate b.byteLength 0)).byteAt j = 0 := by
    rintro j ⟨hlow, hhigh⟩
    obtain ⟨k, rfl⟩ : ∃ k, j = b.offset + k := ⟨j - b.offset, by omega⟩
    rw [byteAt_writeBytes (by simpa using hinside) (by simp; omega)]
    simp
  rw [sample, word_eq_zero hzero]
  rfl

/-- Samples are written inside their buffer. -/
theorem changedWithin_writeSamples (a : Arena) (b : SampleBuffer) (samples : List Single) :
    ChangedWithin b.span a (a.writeSamples b samples) := by
  refine (changedWithin_writeBytes a b.offset _).mono (Set.Ico_subset_Ico_right ?_)
  have hlength : b.byteLength = 4 * b.frames := Nat.mul_comm _ _
  simp only [List.length_flatMap, length_wordBytes, List.map_const', List.sum_replicate_nat,
    List.length_take]
  omega

/-- Adds one sample of a buffer to the sample of another at the same place. -/
def addFrame (target source : SampleBuffer) (a : Arena) (i : ℕ) : Arena :=
  a.setSample (target.offset + 4 * i)
    (a.sample (target.offset + 4 * i) + a.sample (source.offset + 4 * i))

theorem accumulate_eq (a : Arena) (target source : SampleBuffer) :
    a.accumulate target source =
      (List.range (min target.frames source.frames)).foldl (addFrame target source) a := rfl

/-- Samples are added one after the other, each to the sample that stood there at first. -/
theorem foldl_addFrame {target source : SampleBuffer} {n : ℕ}
    (hinside : target.offset + target.byteLength ≤ a.size)
    (hapart : Disjoint target.span source.span) (hn : n ≤ min target.frames source.frames) :
    ChangedWithin (Set.Ico target.offset (target.offset + 4 * n)) a
        ((List.range n).foldl (addFrame target source) a) ∧
      ∀ i < n, ((List.range n).foldl (addFrame target source) a).sample (target.offset + 4 * i) =
        a.sample (target.offset + 4 * i) + a.sample (source.offset + 4 * i) := by
  have htarget : target.byteLength = 4 * target.frames := Nat.mul_comm _ _
  have hsource : source.byteLength = 4 * source.frames := Nat.mul_comm _ _
  induction n with
  | zero => exact ⟨ChangedWithin.refl _ a, fun i hi => absurd hi (Nat.not_lt_zero i)⟩
  | succ n ih =>
    obtain ⟨hwithin, hsum⟩ := ih (by omega)
    rw [List.range_succ, List.foldl_append]
    generalize (List.range n).foldl (addFrame target source) a = b at hwithin hsum
    have hstep := changedWithin_setSample b (target.offset + 4 * n)
      (b.sample (target.offset + 4 * n) + b.sample (source.offset + 4 * n))
    -- Only frames before this one were written, and none of them belongs to the source.
    have hold : b.sample (target.offset + 4 * n) = a.sample (target.offset + 4 * n) := by
      refine hwithin.sample_eq (Set.disjoint_left.mpr ?_)
      rintro i ⟨hlow, -⟩ ⟨-, hhigh⟩
      omega
    have hadded : b.sample (source.offset + 4 * n) = a.sample (source.offset + 4 * n) := by
      refine hwithin.sample_eq (hapart.symm.mono ?_ ?_)
      · exact Set.Ico_subset_Ico (by omega) (by omega)
      · exact Set.Ico_subset_Ico le_rfl (by omega)
    refine ⟨?_, fun i hi => ?_⟩
    · refine (hwithin.mono ?_).trans (hstep.mono ?_)
      · exact Set.Ico_subset_Ico le_rfl (by omega)
      · exact Set.Ico_subset_Ico (by omega) (by omega)
    · rcases Nat.lt_succ_iff_lt_or_eq.mp hi with hlt | rfl
      · refine (hstep.sample_eq (Set.disjoint_left.mpr ?_)).trans (hsum i hlt)
        rintro j ⟨-, hhigh⟩ ⟨hlow, -⟩
        omega
      · rw [← hold, ← hadded]
        have hsize := hwithin.size_eq
        exact sample_setSample (by omega) _

/-- Accumulating changes the target only. -/
theorem changedWithin_accumulate {target source : SampleBuffer}
    (hinside : target.offset + target.byteLength ≤ a.size)
    (hapart : Disjoint target.span source.span) :
    ChangedWithin target.span a (a.accumulate target source) := by
  have htarget : target.byteLength = 4 * target.frames := Nat.mul_comm _ _
  rw [accumulate_eq]
  refine (foldl_addFrame hinside hapart le_rfl).1.mono (Set.Ico_subset_Ico le_rfl ?_)
  omega

/-- Samples are added where they stand. -/
theorem sample_accumulate {target source : SampleBuffer} {i : ℕ}
    (hinside : target.offset + target.byteLength ≤ a.size)
    (hapart : Disjoint target.span source.span) (hi : i < min target.frames source.frames) :
    (a.accumulate target source).sample (target.offset + 4 * i) =
      a.sample (target.offset + 4 * i) + a.sample (source.offset + 4 * i) := by
  rw [accumulate_eq]
  exact (foldl_addFrame hinside hapart le_rfl).2 i hi

/-- Adding one buffer after the other adds to every target the samples of its own source, if no
target has a byte in common with another target or with any source. -/
theorem foldl_accumulate {pairs : List (SampleBuffer × SampleBuffer)}
    (hinside : ∀ x ∈ pairs, x.1.offset + x.1.byteLength ≤ a.size)
    (hsources : ∀ x ∈ pairs, ∀ y ∈ pairs, Disjoint x.1.span y.2.span)
    (htargets : pairs.Pairwise fun x y => Disjoint x.1.span y.1.span) :
    ChangedWithin {i | ∃ x ∈ pairs, i ∈ x.1.span} a
        (pairs.foldl (fun a x => a.accumulate x.1 x.2) a) ∧
      ∀ x ∈ pairs, ∀ i < min x.1.frames x.2.frames,
        (pairs.foldl (fun a x => a.accumulate x.1 x.2) a).sample (x.1.offset + 4 * i) =
          a.sample (x.1.offset + 4 * i) + a.sample (x.2.offset + 4 * i) := by
  induction pairs generalizing a with
  | nil => exact ⟨ChangedWithin.refl _ a, by simp⟩
  | cons first rest ih =>
    have hfirst := hinside first List.mem_cons_self
    have hown := hsources first List.mem_cons_self first List.mem_cons_self
    obtain ⟨hlater, htargets⟩ := List.pairwise_cons.mp htargets
    have hchange := changedWithin_accumulate hfirst hown
    -- The other pairs are added to what the first addition leaves.
    obtain ⟨hwithin, hsum⟩ := @ih (a.accumulate first.1 first.2)
      (fun x hx => by
        rw [hchange.size_eq]
        exact hinside x (List.mem_cons_of_mem first hx))
      (fun x hx y hy =>
        hsources x (List.mem_cons_of_mem first hx) y (List.mem_cons_of_mem first hy))
      htargets
    refine ⟨?_, fun x hx i hi => ?_⟩
    · refine (hchange.mono fun i hi => ?_).trans (hwithin.mono fun i hi => ?_)
      · exact ⟨first, List.mem_cons_self, hi⟩
      · obtain ⟨x, hx, hi⟩ := hi
        exact ⟨x, List.mem_cons_of_mem first hx, hi⟩
    · have hframe : i < x.1.frames := hi.trans_le (min_le_left _ _)
      have hframe' : i < x.2.frames := hi.trans_le (min_le_right _ _)
      rcases List.mem_cons.mp hx with rfl | hx
      · -- Later additions leave the first target alone.
        refine (hwithin.sample_eq (Set.disjoint_left.mpr ?_)).trans
          (sample_accumulate hfirst hown hi)
        rintro j hj ⟨y, hy, hj'⟩
        have hfree := Set.disjoint_left.mp (hlater y hy) (SampleBuffer.frame_subset_span hframe hj)
        exact hfree hj'
      · -- The first addition leaves later targets and their sources alone.
        have htarget := hchange.sample_eq
          ((hlater x hx).symm.mono_left (SampleBuffer.frame_subset_span hframe))
        have hsource := hchange.sample_eq
          ((hsources first List.mem_cons_self x (List.mem_cons_of_mem first hx)).symm.mono_left
            (SampleBuffer.frame_subset_span hframe'))
        rw [← htarget, ← hsource]
        exact hsum x hx i hi

end Arena

end DspHost
