/-!
# Regions of an arena

An arena is divided into pointer tables, sample buffers and module instances. A region says where
its parts lie; reading and writing them is the arena's business.

## Main definitions

* `PointerWidth` — the width of a pointer-table word
* `PointerTable`, `PointerTable.slot?` — one word for every channel
* `SampleBuffer` — one block of samples of one channel
* `InstanceRegion`, `InstanceRegion.field?` — the state of one module instance
-/

namespace DspHost

/-- The width of one pointer-table word. -/
inductive PointerWidth where
  /-- Thirty-two bits. -/
  | four
  /-- Sixty-four bits. -/
  | eight
  deriving DecidableEq, Repr, Inhabited

namespace PointerWidth

/-- The number of bytes of a word. -/
def bytes : PointerWidth → Nat
  | four => 4
  | eight => 8

/-- The width with the given number of bytes. -/
def ofBytes? : Nat → Option PointerWidth
  | 4 => some four
  | 8 => some eight
  | _ => none

theorem ofBytes?_eq_some_iff {n : Nat} {w : PointerWidth} :
    ofBytes? n = some w ↔ n = w.bytes := by
  constructor
  · intro h
    unfold ofBytes? at h
    split at h <;> cases h <;> rfl
  · rintro rfl
    cases w <;> rfl

theorem bytes_pos (w : PointerWidth) : 0 < w.bytes := by cases w <;> decide

end PointerWidth

/-- The width of one sample in bytes. -/
def sampleWidth : Nat := 4

/-- A table of buffer addresses, one word for every channel. -/
structure PointerTable where
  /-- The address of the first word. -/
  offset : Nat
  /-- The number of channels. -/
  entries : Nat
  /-- The width of a word. -/
  width : PointerWidth
  deriving DecidableEq, Repr

namespace PointerTable

/-- The address of the word for a channel. -/
def slot? (t : PointerTable) (channel : Nat) : Option Nat :=
  if channel < t.entries then some (t.offset + channel * t.width.bytes) else none

/-- The number of bytes of the table. -/
def byteLength (t : PointerTable) : Nat := t.entries * t.width.bytes

theorem slot?_eq_some_iff {t : PointerTable} {channel address : Nat} :
    t.slot? channel = some address ↔
      channel < t.entries ∧ t.offset + channel * t.width.bytes = address := by
  simp [slot?]

end PointerTable

/-- One block of samples of one channel. -/
structure SampleBuffer where
  /-- The address of the first sample. -/
  offset : Nat
  /-- The number of samples. -/
  frames : Nat
  deriving DecidableEq, Repr

/-- The number of bytes of a sample buffer. -/
def SampleBuffer.byteLength (b : SampleBuffer) : Nat := b.frames * sampleWidth

/-- The state of one module instance. -/
structure InstanceRegion where
  /-- The base address that the module's code is given. -/
  offset : Nat
  /-- The number of bytes that the module declares, without padding. -/
  size : Nat
  deriving DecidableEq, Repr

/-- The address of a field at `index` bytes into an instance, if four bytes fit there. -/
def InstanceRegion.field? (r : InstanceRegion) (index : Nat) : Option Nat :=
  if index + 4 ≤ r.size then some (r.offset + index) else none

theorem InstanceRegion.field?_eq_some_iff {r : InstanceRegion} {index address : Nat} :
    r.field? index = some address ↔ index + 4 ≤ r.size ∧ r.offset + index = address := by
  simp [field?]

end DspHost
