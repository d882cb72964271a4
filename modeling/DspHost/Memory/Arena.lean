import DspHost.Memory.Region
import DspHost.Memory.Word
import DspHost.Number.Single

/-!
# The arena

An arena is a block of bytes that one processor owns. Words are stored little-endian. An access that
reaches past the end is refused with the first byte and the width of the access, and changes
nothing; so is a pointer that does not fit its word.

Module code runs in `Access`, which threads the arena through and stops at the first refused access.
What was written before it stays written.

Allocation is taken to succeed, whatever the size. No machine gives away half of its address space,
and that is what a page size of `2 ^ 62` bytes asks for, although it passes every check.

## Main definitions

* `Fault` — a refused access
* `Arena` — the bytes, and the width of pointers
* `Arena.readBytes`, `Arena.writeBytes` — a range of bytes; all other accesses are made of these
* `Arena.load32`, `Arena.loadPointer`, … — reading a word
* `Access`, `Access.store32`, `Access.storePointer`, … — code over an arena

## Main results

* `Arena.size_writeBytes` — writing keeps the size
* `Arena.readBytes_writeBytes` — what was written is read back
* `Arena.readBytes_writeBytes_of_disjoint` — a disjoint range keeps its bytes
-/

namespace DspHost

/-- An access that reaches past the end of the arena. -/
structure Fault where
  /-- The first byte of the access. -/
  address : Nat
  /-- The width of the access in bytes. -/
  length : Nat
  deriving DecidableEq, Repr, Inhabited

/-- The message of a fault. -/
def Fault.message (f : Fault) : String :=
  s!"out-of-bounds arena access at byte {f.address} ({f.length} bytes)"

/-- Bytes owned by one processor. -/
structure Arena where
  /-- The contents. -/
  bytes : Array UInt8
  /-- The width of pointer-table words. -/
  pointerWidth : PointerWidth
  deriving DecidableEq, Repr, Inhabited

namespace Arena

/-- An arena of zeros. -/
def zeroed (size : Nat) (width : PointerWidth) : Arena := ⟨Array.replicate size 0, width⟩

/-- The number of bytes. -/
def size (a : Arena) : Nat := a.bytes.size

/-- Whether an access lies inside the arena. -/
def fits (a : Arena) (address length : Nat) : Bool := address + length ≤ a.size

/-! ### Ranges of bytes -/

/-- The bytes from `start` on; past the end they count as zero. -/
def readBytesFrom (bytes : Array UInt8) (start : Nat) : Nat → List UInt8
  | 0 => []
  | n + 1 => bytes.getD start 0 :: readBytesFrom bytes (start + 1) n

/-- Writes bytes from `start` on; those past the end are dropped. -/
def writeBytesFrom (bytes : Array UInt8) (start : Nat) : List UInt8 → Array UInt8
  | [] => bytes
  | b :: rest => writeBytesFrom (bytes.setIfInBounds start b) (start + 1) rest

/-- The bytes of a range. -/
def readBytes (a : Arena) (start length : Nat) : List UInt8 := readBytesFrom a.bytes start length

/-- The arena with the given bytes from `start` on. -/
def writeBytes (a : Arena) (start : Nat) (values : List UInt8) : Arena :=
  ⟨writeBytesFrom a.bytes start values, a.pointerWidth⟩

theorem size_writeBytesFrom (bytes : Array UInt8) (start : Nat) (values : List UInt8) :
    (writeBytesFrom bytes start values).size = bytes.size := by
  induction values generalizing bytes start with
  | nil => rfl
  | cons b rest ih => simp [writeBytesFrom, ih]

@[simp] theorem size_writeBytes (a : Arena) (start : Nat) (values : List UInt8) :
    (a.writeBytes start values).size = a.size :=
  size_writeBytesFrom a.bytes start values

@[simp] theorem pointerWidth_writeBytes (a : Arena) (start : Nat) (values : List UInt8) :
    (a.writeBytes start values).pointerWidth = a.pointerWidth := rfl

/-- A byte outside the written range is kept. -/
theorem getD_writeBytesFrom_of_outside (bytes : Array UInt8) (start : Nat) (values : List UInt8)
    (i : Nat) (h : i < start ∨ start + values.length ≤ i) :
    (writeBytesFrom bytes start values).getD i 0 = bytes.getD i 0 := by
  induction values generalizing bytes start with
  | nil => rfl
  | cons b rest ih =>
    have hne : start ≠ i := by
      simp only [List.length_cons] at h
      omega
    rw [writeBytesFrom, ih _ _ (by simp only [List.length_cons] at h; omega)]
    simp [Array.getD_eq_getD_getElem?, hne]

/-- The first byte of the written range is the first byte written. -/
theorem getD_writeBytesFrom_cons (bytes : Array UInt8) (start : Nat) (b : UInt8)
    (rest : List UInt8) (h : start < bytes.size) :
    (writeBytesFrom bytes start (b :: rest)).getD start 0 = b := by
  rw [writeBytesFrom, getD_writeBytesFrom_of_outside _ _ _ _ (Or.inl (Nat.lt_succ_self start))]
  simp [Array.getD_eq_getD_getElem?, h]

theorem readBytesFrom_congr {bytes bytes' : Array UInt8} {start length : Nat}
    (h : ∀ i, start ≤ i → i < start + length → bytes.getD i 0 = bytes'.getD i 0) :
    readBytesFrom bytes start length = readBytesFrom bytes' start length := by
  induction length generalizing start with
  | zero => rfl
  | succ length ih =>
    rw [readBytesFrom, readBytesFrom, h start (Nat.le_refl _) (by omega),
      ih fun i hlow hhigh => h i (by omega) (by omega)]

/-- What was written is read back. -/
theorem readBytes_writeBytes (a : Arena) (start : Nat) (values : List UInt8)
    (h : start + values.length ≤ a.size) :
    (a.writeBytes start values).readBytes start values.length = values := by
  suffices hbytes : ∀ (bytes : Array UInt8) (start : Nat) (values : List UInt8),
      start + values.length ≤ bytes.size →
        readBytesFrom (writeBytesFrom bytes start values) start values.length = values from
    hbytes a.bytes start values h
  intro bytes start values
  induction values generalizing bytes start with
  | nil => intro _; rfl
  | cons b rest ih =>
    intro hfits
    simp only [List.length_cons] at hfits
    rw [List.length_cons, readBytesFrom, getD_writeBytesFrom_cons _ _ _ _ (by omega),
      writeBytesFrom, ih _ _ (by simp; omega)]

/-- A range disjoint from the written one keeps its bytes. -/
theorem readBytes_writeBytes_of_disjoint (a : Arena) (start : Nat) (values : List UInt8)
    (other length : Nat) (h : other + length ≤ start ∨ start + values.length ≤ other) :
    (a.writeBytes start values).readBytes other length = a.readBytes other length :=
  readBytesFrom_congr fun i hlow hhigh =>
    getD_writeBytesFrom_of_outside a.bytes start values i (by omega)

/-! ### Words -/

/-- The number stored in `width` bytes. -/
def word (a : Arena) (address width : Nat) : Nat := wordValue (a.readBytes address width)

/-- The arena with a number stored in `width` bytes. -/
def setWord (a : Arena) (address width n : Nat) : Arena := a.writeBytes address (wordBytes width n)

@[simp] theorem size_setWord (a : Arena) (address width n : Nat) :
    (a.setWord address width n).size = a.size := by
  simp [setWord]

theorem word_setWord (a : Arena) (address width n : Nat) (h : address + width ≤ a.size) :
    (a.setWord address width n).word address width = n % power 256 width := by
  have hread := readBytes_writeBytes a address (wordBytes width n) (by simpa using h)
  rw [length_wordBytes] at hread
  rw [word, setWord, hread, wordValue_wordBytes]

theorem word_setWord_of_disjoint (a : Arena) (address width n other otherWidth : Nat)
    (h : other + otherWidth ≤ address ∨ address + width ≤ other) :
    (a.setWord address width n).word other otherWidth = a.word other otherWidth := by
  rw [word, setWord, readBytes_writeBytes_of_disjoint _ _ _ _ _ (by simpa using h), word]

/-- Reads a word of 32 bits. -/
def load32 (a : Arena) (address : Nat) : Except Fault UInt32 :=
  if a.fits address 4 then .ok (a.word address 4).toUInt32 else .error ⟨address, 4⟩

/-- Reads a control value or sample. -/
def loadSingle (a : Arena) (address : Nat) : Except Fault Single :=
  (a.load32 address).map Single.mk

/-- Reads a word of a pointer table. -/
def loadPointer (a : Arena) (address : Nat) : Except Fault Nat :=
  let width := a.pointerWidth.bytes
  if a.fits address width then .ok (a.word address width) else .error ⟨address, width⟩

/-- Whether a pointer can be stored: its word lies inside the arena and it fits the word. -/
def acceptsPointer (a : Arena) (address value : Nat) : Bool :=
  decide (value < power 256 a.pointerWidth.bytes) && a.fits address a.pointerWidth.bytes

/-! ### Samples -/

/-- The sample at an address, without a check. -/
def sample (a : Arena) (address : Nat) : Single := ⟨(a.word address 4).toUInt32⟩

/-- The arena with a sample at an address, without a check. -/
def setSample (a : Arena) (address : Nat) (value : Single) : Arena :=
  a.setWord address 4 value.bits.toNat

/-- Copies samples into a buffer, at most as many as it holds. -/
def writeSamples (a : Arena) (buffer : SampleBuffer) (samples : List Single) : Arena :=
  a.writeBytes buffer.offset
    ((samples.take buffer.frames).flatMap fun s => wordBytes 4 s.bits.toNat)

/-- Copies a buffer over the front of a list of samples, at most as many as both hold. -/
def readSamples (a : Arena) (buffer : SampleBuffer) (samples : List Single) : List Single :=
  let count := min buffer.frames samples.length
  (List.range count).map (fun i => a.sample (buffer.offset + 4 * i)) ++ samples.drop count

/-- Adds every sample of one buffer to the sample of another at the same place. -/
def accumulate (a : Arena) (target source : SampleBuffer) : Arena :=
  (List.range (min target.frames source.frames)).foldl (fun a i =>
    let sum := a.sample (target.offset + 4 * i) + a.sample (source.offset + 4 * i)
    a.setSample (target.offset + 4 * i) sum) a

end Arena

/-! ### Code over an arena -/

/-- Code that reads and writes an arena and stops at the first fault. -/
abbrev Access (α : Type) := ExceptT Fault (StateM Arena) α

namespace Access

/-- Runs code over an arena: the outcome and the arena as the code left it. -/
def run (code : Access α) (a : Arena) : Except Fault α × Arena := code a

/-- Reads the arena. -/
def reads (read : Arena → Except Fault α) : Access α := fun a => (read a, a)

/-- Changes the arena if the access is allowed. -/
def writes (allowed : Arena → Bool) (fault : Arena → Fault) (write : Arena → Arena) : Access Unit :=
  fun a => if allowed a then (.ok (), write a) else (.error (fault a), a)

/-- Reads a word of 32 bits. -/
def load32 (address : Nat) : Access UInt32 := reads (·.load32 address)

/-- Reads a control value or sample. -/
def loadSingle (address : Nat) : Access Single := reads (·.loadSingle address)

/-- Reads a word of a pointer table. -/
def loadPointer (address : Nat) : Access Nat := reads (·.loadPointer address)

/-- Stores a word of 32 bits. -/
def store32 (address : Nat) (value : UInt32) : Access Unit :=
  writes (·.fits address 4) (fun _ => ⟨address, 4⟩) (·.setWord address 4 value.toNat)

/-- Stores a control value or sample. -/
def storeSingle (address : Nat) (value : Single) : Access Unit := store32 address value.bits

/-- Stores a word of a pointer table. -/
def storePointer (address value : Nat) : Access Unit :=
  writes (·.acceptsPointer address value) (fun a => ⟨address, a.pointerWidth.bytes⟩)
    (fun a => a.setWord address a.pointerWidth.bytes value)

/-- Zeroes a range of bytes. -/
def zero (address length : Nat) : Access Unit :=
  writes (·.fits address length) (fun _ => ⟨address, length⟩)
    (·.writeBytes address (List.replicate length 0))

/-- The number of bytes of the arena. -/
def arenaSize : Access Nat := fun a => (.ok a.size, a)

/-- Changes the arena where no fault can arise. -/
def change (write : Arena → Arena) : Access Unit := fun a => (.ok (), write a)

/-- Runs code for every item of a list, in order. -/
def forEach (code : α → Access Unit) : List α → Access Unit
  | [] => return ()
  | item :: rest => do
    code item
    forEach code rest

/-- Runs code for every item of a list, in order, and hands a value on from one to the next. -/
def foldEach (code : σ → α → Access σ) (state : σ) : List α → Access σ
  | [] => return state
  | item :: rest => do
    let state ← code state item
    foldEach code state rest

/-- The address in the word of a pointer table for a channel. -/
def channel (table index : Nat) : Access Nat :=
  fun a => (a.loadPointer (table + index * a.pointerWidth.bytes), a)

end Access

end DspHost
