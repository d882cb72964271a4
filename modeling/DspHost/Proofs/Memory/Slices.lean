import DspHost.Proofs.Memory.Exactness

/-!
# Moving blocks in slices

The host moves whole blocks of samples: it copies samples into a buffer, copies a buffer over the
front of a list of samples, and adds one buffer to another. It does so on slices of the bytes of an
arena, four bytes at a time, without looking at the addresses again. To add, it needs the one buffer
to read and the other to change, so it splits the bytes at the buffer that lies higher. That one is
found at the beginning of the upper part, the other one by its own address in the lower part.

The three are computed here slice by slice, with all addresses in words. A computation fails where a
slice does not lie inside of what it is taken from, where an address leaves the address space, and
where buffers that are added overlap. Inside an arena and for buffers apart from each other none of
this happens, in either order of the buffers, and what comes out is what the arena's own functions
make of it.

## Main definitions

* `splitBytes?`, `cutBytes?` — slices of bytes, where there are any
* `changeSamples`, `samplesIn`, `overwrite` — what is done to the samples of slices
* `Arena.block` — the samples from an address on
* `Arena.writeInSlices`, `Arena.readInSlices`, `Arena.accumulateInSlices` — moving blocks in slices

## Main results

* `addFromBelow_eq`, `addFromAbove_eq` — both ways to split the bytes come to the same
* `Arena.accumulate_eq_writeBytes` — adding a block is writing the sums
* `Arena.writeInSlices_eq`, `Arena.readInSlices_eq`, `Arena.accumulateInSlices_eq` — moving a block
  in slices is moving it
-/

namespace DspHost

/-! ### Slices of bytes -/

/-- Bytes split at a place, if they reach that far. -/
def splitBytes? (bytes : List UInt8) (place : ℕ) : Option (List UInt8 × List UInt8) :=
  if place ≤ bytes.length then some (bytes.take place, bytes.drop place) else none

/-- The bytes before a range, those in it and those behind it, if the range lies inside. -/
def cutBytes? (bytes : List UInt8) (start stop : ℕ) :
    Option (List UInt8 × List UInt8 × List UInt8) :=
  if start ≤ stop ∧ stop ≤ bytes.length then
    some (bytes.take start, (bytes.take stop).drop start, bytes.drop stop)
  else none

section Cutting

variable {bytes : List UInt8} {place start length : ℕ}

theorem splitBytes?_eq (h : place ≤ bytes.length) :
    splitBytes? bytes place = some (bytes.take place, bytes.drop place) := if_pos h

theorem cutBytes?_eq (h : start + length ≤ bytes.length) :
    cutBytes? bytes start (start + length) =
      some (bytes.take start, (bytes.drop start).take length, bytes.drop (start + length)) := by
  rw [cutBytes?, if_pos ⟨Nat.le_add_right _ _, h⟩, List.drop_take, Nat.add_sub_cancel_left]

/-- What is cut at the beginning of the part above a split. -/
theorem cutBytes?_drop (h : place + length ≤ bytes.length) :
    cutBytes? (bytes.drop place) 0 length =
      some ([], (bytes.drop place).take length, bytes.drop (place + length)) := by
  have hcut := @cutBytes?_eq (bytes.drop place) 0 length (by rw [List.length_drop]; omega)
  rwa [Nat.zero_add, List.take_zero, List.drop_zero, List.drop_drop] at hcut

/-- What is cut out of the part below a split. -/
theorem cutBytes?_take (h : start + length ≤ place) (hplace : place ≤ bytes.length) :
    cutBytes? (bytes.take place) start (start + length) =
      some (bytes.take start, (bytes.drop start).take length,
        (bytes.take place).drop (start + length)) := by
  rw [cutBytes?_eq (by rw [List.length_take]; omega), List.take_take, List.drop_take,
    List.take_take, Nat.min_eq_left (by omega), Nat.min_eq_left (by omega)]

end Cutting

/-! ### The samples of slices -/

/-- The bytes of a sample. -/
def Single.toBytes (s : Single) : List UInt8 := wordBytes 4 s.bits.toNat

/-- The sample that bytes spell. -/
def Single.ofBytes (bytes : List UInt8) : Single := ⟨(wordValue bytes).toUInt32⟩

/-- The samples of a slice; bytes at its end that do not make a sample are left out. -/
def samplesIn : List UInt8 → List Single
  | b₀ :: b₁ :: b₂ :: b₃ :: rest => .ofBytes [b₀, b₁, b₂, b₃] :: samplesIn rest
  | _ => []

/-- Changes the samples of a slice in order, each by an item, as long as there are both. -/
def changeSamples {ι : Type} (change : Single → ι → Single) : List UInt8 → List ι → List UInt8
  | b₀ :: b₁ :: b₂ :: b₃ :: rest, item :: items =>
    (change (.ofBytes [b₀, b₁, b₂, b₃]) item).toBytes ++ changeSamples change rest items
  | bytes, _ => bytes

/-- Puts samples in the place of others, as long as there are both. -/
def overwrite : List Single → List Single → List Single
  | _ :: old, s :: new => s :: overwrite old new
  | old, _ => old

theorem overwrite_eq {old new : List Single} (h : new.length ≤ old.length) :
    overwrite old new = new ++ old.drop new.length := by
  induction new generalizing old with
  | nil => cases old <;> rfl
  | cons s new ih =>
    obtain ⟨t, old, rfl⟩ := List.exists_cons_of_length_pos (Nat.zero_lt_of_lt h)
    rw [overwrite, ih (Nat.le_of_succ_le_succ h)]
    rfl

/-- A sample is read back from its bytes. -/
theorem samplesIn_flatMap_toBytes (samples : List Single) :
    samplesIn (samples.flatMap Single.toBytes) = samples := by
  induction samples with
  | nil => rfl
  | cons s samples ih =>
    have hword := wordValue_wordBytes 4 s.bits.toNat
    rw [Nat.mod_eq_of_lt s.bits.toNat_lt] at hword
    have hsample : Single.ofBytes s.toBytes = s := by
      rw [Single.ofBytes, Single.toBytes, hword, Nat.toUInt32_eq, UInt32.ofNat_toNat]
    rw [List.flatMap_cons]
    exact congrArg₂ List.cons hsample ih

theorem length_flatMap_toBytes (samples : List Single) :
    (samples.flatMap Single.toBytes).length = 4 * samples.length := by
  simp [List.length_flatMap, Single.toBytes, Nat.mul_comm]

theorem SampleBuffer.byteLength_eq (b : SampleBuffer) : b.byteLength = 4 * b.frames :=
  Nat.mul_comm _ _

/-! ### Adding slices -/

/-- Adds samples below a split to those that begin at the split. -/
def addFromBelow (bytes : List UInt8) (target source length : ℕ) : Option (List UInt8) := do
  let (low, high) ← splitBytes? bytes target
  let (before, slice, behind) ← cutBytes? high 0 length
  let (_, addends, _) ← cutBytes? low source (← word? (source + length))
  return low ++ (before ++ changeSamples (· + ·) slice (samplesIn addends) ++ behind)

/-- Adds samples that begin at a split to those below it. -/
def addFromAbove (bytes : List UInt8) (target source length : ℕ) : Option (List UInt8) := do
  let (low, high) ← splitBytes? bytes source
  let (before, slice, behind) ← cutBytes? low target (← word? (target + length))
  let (_, addends, _) ← cutBytes? high 0 length
  return (before ++ changeSamples (· + ·) slice (samplesIn addends) ++ behind) ++ high

/-- Whether one of two ranges of one length ends before the other begins, computed in words. -/
def apartInWords (start start' length : ℕ) : Option Bool := do
  if (← word? (start + length)) ≤ start' then return true
  else return decide ((← word? (start' + length)) ≤ start)

section Adding

variable {bytes : List UInt8} {target source length : ℕ}

theorem apartInWords_eq (hword : target + length < addressLimit)
    (hword' : source + length < addressLimit)
    (h : target + length ≤ source ∨ source + length ≤ target) :
    apartInWords target source length = some true := by
  rw [apartInWords, word?_of_lt hword, word?_of_lt hword', Option.bind_eq_bind, Option.bind_some]
  split_ifs with hbelow
  · rfl
  · exact congrArg some (decide_eq_true (h.resolve_left hbelow))

/-- The bytes with the samples of one range added to those of another. -/
def addedBytes (bytes : List UInt8) (target source length : ℕ) : List UInt8 :=
  bytes.take target ++
    changeSamples (· + ·) ((bytes.drop target).take length)
      (samplesIn ((bytes.drop source).take length)) ++
    bytes.drop (target + length)

theorem addFromBelow_eq (hapart : source + length ≤ target)
    (hinside : target + length ≤ bytes.length) (hlimit : bytes.length < addressLimit) :
    addFromBelow bytes target source length = some (addedBytes bytes target source length) := by
  have hsplit : target ≤ bytes.length := by omega
  have hword : source + length < addressLimit := by omega
  simp only [addFromBelow, splitBytes?_eq hsplit, cutBytes?_drop hinside, word?_of_lt hword,
    cutBytes?_take hapart hsplit, Option.bind_eq_bind, Option.bind_some, List.nil_append]
  rw [← List.append_assoc]
  rfl

theorem addFromAbove_eq (hapart : target + length ≤ source)
    (hinside : source + length ≤ bytes.length) (hlimit : bytes.length < addressLimit) :
    addFromAbove bytes target source length = some (addedBytes bytes target source length) := by
  have hsplit : source ≤ bytes.length := by omega
  have hword : target + length < addressLimit := by omega
  -- What is left below the split, and the part above it, are what is behind the target.
  have hbehind : (bytes.take source).drop (target + length) ++ bytes.drop source =
      bytes.drop (target + length) := by
    rw [← List.drop_append_of_le_length (by rw [List.length_take]; omega), List.take_append_drop]
  simp only [addFromAbove, splitBytes?_eq hsplit, word?_of_lt hword, cutBytes?_take hapart hsplit,
    cutBytes?_drop hinside, Option.bind_eq_bind, Option.bind_some]
  rw [List.append_assoc, hbehind]
  rfl

end Adding

namespace Arena

variable {a b c : Arena} {start n : ℕ}

/-! ### Blocks -/

/-- The samples from an address on. -/
def block (a : Arena) (start count : ℕ) : List Single :=
  (List.range count).map fun i => a.sample (start + 4 * i)

@[simp] theorem length_block (a : Arena) (start count : ℕ) :
    (a.block start count).length = count := by
  rw [block, List.length_map, List.length_range]

theorem getElem?_block {count i : ℕ} (h : i < count) :
    (a.block start count)[i]? = some (a.sample (start + 4 * i)) := by
  rw [block, List.getElem?_map, List.getElem?_range h, Option.map_some]

theorem block_succ (a : Arena) (start count : ℕ) :
    a.block start (count + 1) = a.sample start :: a.block (start + 4) count := by
  rw [block, List.range_succ_eq_map, List.map_cons, List.map_map]
  refine congrArg _ (List.map_congr_left fun i _ => congrArg a.sample ?_)
  omega

/-- Four bytes spell a sample, and the next sample follows. -/
theorem readBytes_frames (a : Arena) (start count : ℕ) :
    ∃ b₀ b₁ b₂ b₃, a.readBytes start (4 * (count + 1)) =
        b₀ :: b₁ :: b₂ :: b₃ :: a.readBytes (start + 4) (4 * count) ∧
      Single.ofBytes [b₀, b₁, b₂, b₃] = a.sample start :=
  ⟨_, _, _, _, rfl, rfl⟩

theorem samplesIn_readBytes (a : Arena) (start count : ℕ) :
    samplesIn (a.readBytes start (4 * count)) = a.block start count := by
  induction count generalizing start with
  | zero => rfl
  | succ count ih =>
    obtain ⟨b₀, b₁, b₂, b₃, hbytes, hsample⟩ := a.readBytes_frames start count
    rw [hbytes, samplesIn, hsample, ih, block_succ]

/-- Samples that are changed one by one are changed all at once. Items that are left over when the
slice ends change nothing. -/
theorem changeSamples_readBytes {ι : Type} {change : Single → ι → Single} {items : List ι}
    (h : n ≤ items.length) :
    changeSamples change (a.readBytes start (4 * n)) items =
      (List.zipWith change (a.block start n) items).flatMap Single.toBytes := by
  induction n generalizing start items with
  | zero => cases items <;> rfl
  | succ n ih =>
    obtain ⟨item, items, rfl⟩ := List.exists_cons_of_length_pos (Nat.zero_lt_of_lt h)
    obtain ⟨b₀, b₁, b₂, b₃, hbytes, hsample⟩ := a.readBytes_frames start n
    rw [hbytes, changeSamples, hsample, ih (Nat.le_of_succ_le_succ h), block_succ,
      List.zipWith_cons_cons, List.flatMap_cons]

/-! ### Slices of an arena -/

/-- The arena with other bytes. -/
def withBytes (a : Arena) (bytes : List UInt8) : Arena := ⟨bytes.toArray, a.pointerWidth⟩

theorem take_drop_toList (h : start + n ≤ a.size) :
    (a.bytes.toList.drop start).take n = a.readBytes start n := by
  rw [readBytes_eq_map]
  have hsize : start + n ≤ a.bytes.size := h
  refine List.ext_getElem (by simp; omega) fun i hi _ => ?_
  have hi' : start + i < a.bytes.size := by simp at hi; omega
  simp [byteAt, hi']

theorem cutBytes?_toList (h : start + n ≤ a.size) :
    cutBytes? a.bytes.toList start (start + n) =
      some (a.bytes.toList.take start, a.readBytes start n, a.bytes.toList.drop (start + n)) := by
  rw [cutBytes?_eq (show _ ≤ a.bytes.toList.length from h), take_drop_toList h]

theorem toList_writeBytesFrom {bytes : Array UInt8} {values : List UInt8}
    (h : start + values.length ≤ bytes.size) :
    (writeBytesFrom bytes start values).toList =
      bytes.toList.take start ++ values ++ bytes.toList.drop (start + values.length) := by
  induction values generalizing bytes start with
  | nil => simp [writeBytesFrom]
  | cons value values ih =>
    rw [List.length_cons] at h
    have hstart : start < bytes.toList.length := by
      rw [Array.length_toList]
      omega
    -- The first value ends up at the end of what is before the others.
    have hbefore : (bytes.toList.set start value).take (start + 1) =
        bytes.toList.take start ++ [value] := by
      rw [List.take_succ_eq_append_getElem (by simpa using hstart), List.take_set_of_le le_rfl,
        List.getElem_set_self]
    have hbehind : (bytes.toList.set start value).drop (start + 1 + values.length) =
        bytes.toList.drop (start + 1 + values.length) :=
      List.drop_set_of_lt (by omega)
    rw [writeBytesFrom, ih (by simp; omega), Array.toList_setIfInBounds, hbefore, hbehind,
      List.append_assoc (bytes.toList.take start), List.singleton_append, List.length_cons,
      Nat.add_assoc start, Nat.add_comm 1]

/-- Putting values between what comes before and behind them is writing them. -/
theorem withBytes_eq_writeBytes {values : List UInt8} (h : start + values.length ≤ a.size) :
    a.withBytes (a.bytes.toList.take start ++ values ++
      a.bytes.toList.drop (start + values.length)) = a.writeBytes start values := by
  rw [← toList_writeBytesFrom h]
  rfl

/-! ### Samples that were written -/

section Written

variable {samples : List Single}

/-- Putting the bytes of samples in the place of others is writing them. -/
theorem withBytes_flatMap (hlength : samples.length = n) (h : start + 4 * n ≤ a.size) :
    a.withBytes (a.bytes.toList.take start ++ samples.flatMap Single.toBytes ++
      a.bytes.toList.drop (start + 4 * n)) =
        a.writeBytes start (samples.flatMap Single.toBytes) := by
  subst hlength
  rw [← length_flatMap_toBytes] at h ⊢
  exact withBytes_eq_writeBytes h

/-- The samples that were written make the block that is read. -/
theorem block_writeBytes (hlength : samples.length = n) (h : start + 4 * n ≤ a.size) :
    (a.writeBytes start (samples.flatMap Single.toBytes)).block start n = samples := by
  subst hlength
  rw [← length_flatMap_toBytes] at h
  have hread := a.readBytes_writeBytes start (samples.flatMap Single.toBytes) h
  rw [length_flatMap_toBytes] at hread
  rw [← samplesIn_readBytes, hread, samplesIn_flatMap_toBytes]

theorem changedWithin_writeBytes_flatMap (a : Arena) (start : ℕ) (hlength : samples.length = n) :
    ChangedWithin (Set.Ico start (start + 4 * n)) a
      (a.writeBytes start (samples.flatMap Single.toBytes)) := by
  have h := a.changedWithin_writeBytes start (samples.flatMap Single.toBytes)
  rwa [length_flatMap_toBytes, hlength] at h

end Written

/-- An arena is its shape and its bytes. -/
theorem eq_of_byteAt_eq (hsize : b.size = c.size) (hwidth : b.pointerWidth = c.pointerWidth)
    (h : ∀ i, b.byteAt i = c.byteAt i) : b = c := by
  obtain ⟨bytes, width⟩ := b
  obtain ⟨bytes', width'⟩ := c
  obtain rfl : width = width' := hwidth
  refine congrArg (Arena.mk · width) (Array.ext hsize fun i hi hi' => ?_)
  have hget := h i
  simpa [byteAt, hi, hi'] using hget

/-- There is one way to change a block to given samples and nothing else. -/
theorem ChangedWithin.eq_of_block_eq (hb : ChangedWithin (Set.Ico start (start + 4 * n)) a b)
    (hc : ChangedWithin (Set.Ico start (start + 4 * n)) a c)
    (h : b.block start n = c.block start n) : b = c := by
  have hsample (k : ℕ) (hk : k < n) : b.sample (start + 4 * k) = c.sample (start + 4 * k) := by
    have hget := congrArg (·[k]?) h
    simpa only [getElem?_block hk, Option.some.injEq] using hget
  refine eq_of_byteAt_eq (hb.size_eq.trans hc.size_eq.symm) (hb.width_eq.trans hc.width_eq.symm)
    fun i => ?_
  by_cases hi : i ∈ Set.Ico start (start + 4 * n)
  · -- A byte of the block is one of the four of its sample.
    obtain ⟨hlow, hhigh⟩ := hi
    exact eqOn_of_sample_eq (hsample ((i - start) / 4) (by omega)) ⟨by omega, by omega⟩
  · exact (hb.eqOn hi).trans (hc.eqOn hi).symm

/-! ### Moving blocks -/

variable {buffer target source : SampleBuffer}

/-- The bytes before the first samples of a buffer, those of the samples, and those behind them. -/
def cutSamples? (a : Arena) (b : SampleBuffer) (count : ℕ) :
    Option (List UInt8 × List UInt8 × List UInt8) := do
  let length ← word? (count * 4)
  cutBytes? a.bytes.toList b.offset (← word? (b.offset + length))

/-- Copies samples into the slice of a buffer. -/
def writeInSlices (a : Arena) (b : SampleBuffer) (samples : List Single) : Option Arena := do
  let (before, slice, behind) ← a.cutSamples? b (min b.frames samples.length)
  return a.withBytes (before ++ changeSamples (fun _ s => s) slice samples ++ behind)

/-- Copies the slice of a buffer over the front of a list of samples. -/
def readInSlices (a : Arena) (b : SampleBuffer) (samples : List Single) : Option (List Single) := do
  let (_, slice, _) ← a.cutSamples? b (min b.frames samples.length)
  return overwrite samples (samplesIn slice)

/-- Adds the slice of one buffer to the slice of another, which must not overlap. -/
def accumulateInSlices (a : Arena) (target source : SampleBuffer) : Option Arena := do
  let length := min (← target.byteLengthInWords) (← source.byteLengthInWords)
  guard (← apartInWords target.offset source.offset length)
  let bytes := a.bytes.toList
  if source.offset < target.offset then
    return a.withBytes (← addFromBelow bytes target.offset source.offset length)
  else return a.withBytes (← addFromAbove bytes target.offset source.offset length)

theorem writeSamples_eq (a : Arena) (buffer : SampleBuffer) (samples : List Single) :
    a.writeSamples buffer samples =
      a.writeBytes buffer.offset ((samples.take buffer.frames).flatMap Single.toBytes) := rfl

/-- Inside an arena, the samples that are cut out are the bytes from the buffer's address on. -/
theorem cutSamples?_eq (hinside : buffer.offset + buffer.byteLength ≤ a.size)
    (hlimit : a.size < addressLimit) (hn : n ≤ buffer.frames) :
    a.cutSamples? buffer n = some (a.bytes.toList.take buffer.offset,
      a.readBytes buffer.offset (4 * n), a.bytes.toList.drop (buffer.offset + 4 * n)) := by
  have hlength := buffer.byteLength_eq
  rw [cutSamples?, Nat.mul_comm, word?_of_lt (by omega), Option.bind_eq_bind, Option.bind_some,
    word?_of_lt (by omega), Option.bind_some, cutBytes?_toList (by omega)]

/-- Copying samples into a slice is writing a block. -/
theorem writeInSlices_eq (hinside : buffer.offset + buffer.byteLength ≤ a.size)
    (hlimit : a.size < addressLimit) (samples : List Single) :
    a.writeInSlices buffer samples = some (a.writeSamples buffer samples) := by
  have hlength := buffer.byteLength_eq
  have hfront : (samples.take buffer.frames).length = min buffer.frames samples.length :=
    List.length_take
  have hreplaced : List.zipWith (fun _ s => s)
      (a.block buffer.offset (min buffer.frames samples.length)) samples =
        samples.take buffer.frames :=
    List.ext_getElem (by simp) (by simp)
  simp only [writeInSlices, cutSamples?_eq hinside hlimit (min_le_left _ _), Option.bind_eq_bind,
    Option.bind_some]
  rw [changeSamples_readBytes (min_le_right _ _), hreplaced, withBytes_flatMap hfront (by omega)]
  rfl

/-- Copying a slice over samples is reading a block. -/
theorem readInSlices_eq (hinside : buffer.offset + buffer.byteLength ≤ a.size)
    (hlimit : a.size < addressLimit) (samples : List Single) :
    a.readInSlices buffer samples = some (a.readSamples buffer samples) := by
  simp only [readInSlices, cutSamples?_eq hinside hlimit (min_le_left _ _), Option.bind_eq_bind,
    Option.bind_some]
  rw [samplesIn_readBytes, overwrite_eq (by simp), length_block]
  rfl

/-- Adding a block is writing the sums. -/
theorem accumulate_eq_writeBytes (hinside : target.offset + target.byteLength ≤ a.size)
    (hapart : Disjoint target.span source.span) (hn : n = min target.frames source.frames) :
    a.accumulate target source = a.writeBytes target.offset
      ((List.zipWith (· + ·) (a.block target.offset n) (a.block source.offset n)).flatMap
        Single.toBytes) := by
  have hlength := target.byteLength_eq
  set sums := List.zipWith (· + ·) (a.block target.offset n) (a.block source.offset n) with hsums
  have hcount : sums.length = n := by simp [hsums]
  obtain ⟨hwithin, hadded⟩ := foldl_addFrame hinside hapart hn.le
  rw [accumulate_eq, ← hn]
  refine hwithin.eq_of_block_eq (a.changedWithin_writeBytes_flatMap target.offset hcount) ?_
  rw [block_writeBytes hcount (by omega)]
  refine List.ext_getElem? fun i => ?_
  by_cases hi : i < n
  · rw [getElem?_block hi, hadded i hi, hsums, List.getElem?_zipWith, getElem?_block hi,
      getElem?_block hi]
  · rw [List.getElem?_eq_none (by simpa using hi), List.getElem?_eq_none (by omega)]

/-- The sums are put in the place of the target's bytes. -/
theorem withBytes_addedBytes (htarget : target.offset + target.byteLength ≤ a.size)
    (hsource : source.offset + source.byteLength ≤ a.size)
    (hapart : Disjoint target.span source.span) (hn : n = min target.frames source.frames) :
    a.withBytes (addedBytes a.bytes.toList target.offset source.offset (4 * n)) =
      a.accumulate target source := by
  have hlength := target.byteLength_eq
  have hlength' := source.byteLength_eq
  rw [addedBytes, take_drop_toList (by omega), take_drop_toList (by omega), samplesIn_readBytes,
    changeSamples_readBytes (by simp), withBytes_flatMap (by simp) (by omega),
    accumulate_eq_writeBytes htarget hapart hn]

/-- Adding a slice to another is adding a block, whichever of the two lies higher. -/
theorem accumulateInSlices_eq (htarget : target.offset + target.byteLength ≤ a.size)
    (hsource : source.offset + source.byteLength ≤ a.size) (hlimit : a.size < addressLimit)
    (hapart : Disjoint target.span source.span) :
    a.accumulateInSlices target source = some (a.accumulate target source) := by
  have hlength := target.byteLength_eq
  have hlength' := source.byteLength_eq
  obtain ⟨n, hn⟩ : ∃ n, n = min target.frames source.frames := ⟨_, rfl⟩
  have hmin : min target.byteLength source.byteLength = 4 * n := by omega
  -- Of the longer buffer only a part is looked at, which is apart from the other one as well.
  have hends : target.offset + 4 * n ≤ source.offset ∨ source.offset + 4 * n ≤ target.offset := by
    have hbounds := Set.Ico_disjoint_Ico.mp hapart
    omega
  have hword : target.byteLengthInWords = some target.byteLength :=
    word?_of_lt (show target.byteLength < addressLimit by omega)
  have hword' : source.byteLengthInWords = some source.byteLength :=
    word?_of_lt (show source.byteLength < addressLimit by omega)
  simp only [accumulateInSlices, hword, hword', hmin, apartInWords_eq (by omega) (by omega) hends,
    guard, Option.bind_eq_bind, Option.bind_some, if_true]
  rw [← withBytes_addedBytes htarget hsource hapart hn]
  -- The buffer that lies higher is the one that the bytes are split at.
  split_ifs with horder
  · have hbelow : source.offset + 4 * n ≤ target.offset := by omega
    rw [addFromBelow_eq hbelow (by change _ ≤ a.size; omega) hlimit]
    rfl
  · have habove : target.offset + 4 * n ≤ source.offset := by omega
    rw [addFromAbove_eq habove (by change _ ≤ a.size; omega) hlimit]
    rfl

end Arena

end DspHost
