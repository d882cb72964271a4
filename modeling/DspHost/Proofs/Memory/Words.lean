import DspHost.Proofs.Memory.Frame

/-!
# The laws of single accesses

Module code reaches an arena through single accesses: it loads and stores words of three kinds, and
it zeroes ranges. All kinds are made of the same bytes. A word may be loaded as another kind than it
was stored as, and two accesses may overlap in part, so every access is described by the number that
its word holds and by the range of its bytes. The laws follow for all kinds at once.

## Main definitions

* `WordKind`, `WordKind.Value`, `WordKind.load`, `WordKind.store` — the three kinds of words
* `Storing`, `Storing.perform` — storing a word, or zeroing a range
* `Storing.Refused`, `Storing.Leaves` — when it faults, and what it leaves at its address
* `Arena.Lawful` — the laws of an arena

## Main results

* `WordKind.run_load`, `WordKind.run_store` — one access, whatever its kind
* `Arena.lawful` — the laws hold in every arena
-/

namespace DspHost

/-! ### Kinds of words -/

/-- The kinds of words that code loads and stores. -/
inductive WordKind where
  /-- Thirty-two bits. -/
  | bits
  /-- A control value or a sample. -/
  | single
  /-- A word of a pointer table. -/
  | pointer
  deriving DecidableEq, Repr

namespace WordKind

/-- What a word of a kind holds. -/
def Value : WordKind → Type
  | bits => UInt32
  | single => Single
  | pointer => ℕ

/-- The number of bytes of a word, in an arena with pointers of a given width. -/
def width (w : PointerWidth) : WordKind → ℕ
  | bits => 4
  | single => 4
  | pointer => w.bytes

/-- Loads a word. -/
def load : (kind : WordKind) → ℕ → Access kind.Value
  | bits => Access.load32
  | single => Access.loadSingle
  | pointer => Access.loadPointer

/-- Stores a word. -/
def store : (kind : WordKind) → ℕ → kind.Value → Access Unit
  | bits => Access.store32
  | single => Access.storeSingle
  | pointer => Access.storePointer

/-- Whether a value is too large for its word. Only a pointer can be. -/
def Exceeds (w : PointerWidth) : (kind : WordKind) → kind.Value → Prop
  | bits, _ => False
  | single, _ => False
  | pointer, target => power 256 w.bytes ≤ target

/-- The number that the word of a value holds. -/
def encode : (kind : WordKind) → kind.Value → ℕ
  | bits, value => UInt32.toNat value
  | single, value => (Single.bits value).toNat
  | pointer, target => target

/-- The value whose word holds a number. -/
def decode : (kind : WordKind) → ℕ → kind.Value
  | bits, n => n.toUInt32
  | single, n => Single.mk n.toUInt32
  | pointer, n => n

variable {kind : WordKind} {w : PointerWidth}

theorem decode_encode (value : kind.Value) : kind.decode (kind.encode value) = value := by
  cases kind with
  | bits => exact UInt32.ofNat_toNat
  | single => exact congrArg Single.mk UInt32.ofNat_toNat
  | pointer => rfl

/-- A value is too large exactly if its number does not fit the bytes of the word. -/
theorem exceeds_iff {value : kind.Value} :
    kind.Exceeds w value ↔ power 256 (kind.width w) ≤ kind.encode value := by
  cases kind with
  | bits => exact iff_of_false id (Nat.not_le.mpr (UInt32.toNat_lt value))
  | single => exact iff_of_false id (Nat.not_le.mpr (Single.bits value).toNat_lt)
  | pointer => exact Iff.rfl

/-- A load of any kind reads the number in its word, if that lies inside the arena. -/
theorem run_load (kind : WordKind) (address : ℕ) (a : Arena) :
    (kind.load address).run a =
      (if address + kind.width a.pointerWidth ≤ a.size then
        .ok (kind.decode (a.word address (kind.width a.pointerWidth)))
      else .error ⟨address, kind.width a.pointerWidth⟩, a) := by
  by_cases hinside : address + kind.width a.pointerWidth ≤ a.size
  · have hfits : a.fits address (kind.width a.pointerWidth) = true := decide_eq_true hinside
    rw [if_pos hinside]
    cases kind with
    | bits => exact Prod.ext (if_pos hfits) rfl
    | single => exact Prod.ext (congrArg (Except.map Single.mk) (if_pos hfits)) rfl
    | pointer => exact Prod.ext (if_pos hfits) rfl
  · have hpast : ¬a.fits address (kind.width a.pointerWidth) = true :=
      fun hfits => hinside (of_decide_eq_true hfits)
    rw [if_neg hinside]
    cases kind with
    | bits => exact Prod.ext (if_neg hpast) rfl
    | single => exact Prod.ext (congrArg (Except.map Single.mk) (if_neg hpast)) rfl
    | pointer => exact Prod.ext (if_neg hpast) rfl

/-- A store of any kind writes the number of its value, if that fits the word and the word lies
inside the arena. Otherwise it faults and writes nothing. -/
theorem run_store (kind : WordKind) (address : ℕ) (value : kind.Value) (a : Arena) :
    (kind.store address value).run a =
      if kind.encode value < power 256 (kind.width a.pointerWidth) ∧
          address + kind.width a.pointerWidth ≤ a.size then
        (.ok (), a.setWord address (kind.width a.pointerWidth) (kind.encode value))
      else (.error ⟨address, kind.width a.pointerWidth⟩, a) := by
  have hfits (length : ℕ) : a.fits address length = true ↔ address + length ≤ a.size :=
    decide_eq_true_iff
  cases kind with
  | bits =>
    have hlt : UInt32.toNat value < power 256 4 := UInt32.toNat_lt value
    exact if_congr ((hfits 4).trans (and_iff_right hlt).symm) rfl rfl
  | single =>
    have hlt : (Single.bits value).toNat < power 256 4 := (Single.bits value).toNat_lt
    exact if_congr ((hfits 4).trans (and_iff_right hlt).symm) rfl rfl
  | pointer =>
    have haccepts (target : ℕ) : a.acceptsPointer address target = true ↔
        target < power 256 a.pointerWidth.bytes ∧ address + a.pointerWidth.bytes ≤ a.size := by
      rw [Arena.acceptsPointer, Bool.and_eq_true, decide_eq_true_eq, hfits]
    exact if_congr (haccepts value) rfl rfl

end WordKind

/-! ### Accesses that write -/

/-- An access that writes. -/
inductive Storing where
  /-- A word is stored. -/
  | word (kind : WordKind) (value : kind.Value)
  /-- A range of bytes is zeroed. -/
  | zero (length : ℕ)

namespace Storing

/-- The number of bytes that it writes. -/
def length (w : PointerWidth) : Storing → ℕ
  | word kind _ => kind.width w
  | zero length => length

/-- The access at an address. -/
def perform : Storing → ℕ → Access Unit
  | word kind value, address => kind.store address value
  | zero length, address => Access.zero address length

/-- Whether what it stores is too large for its word. -/
def Exceeds (w : PointerWidth) : Storing → Prop
  | word kind value => kind.Exceeds w value
  | zero _ => False

/-- Whether it cannot be performed: it reaches past the end, or its value does not fit. -/
def Refused (s : Storing) (a : Arena) (address : ℕ) : Prop :=
  a.size < address + s.length a.pointerWidth ∨ s.Exceeds a.pointerWidth

/-- What is found at an address where it was performed: a load of the same kind returns the word
that was stored, and the bytes of a zeroed range are zero. -/
def Leaves (b : Arena) (address : ℕ) : Storing → Prop
  | word kind value => (kind.load address).run b = (.ok value, b)
  | zero length => ∀ i ∈ Set.Ico address (address + length), b.byteAt i = 0

variable {s : Storing} {a b : Arena} {address : ℕ}

/-- What cannot be performed faults and writes nothing. -/
theorem run_of_refused (h : s.Refused a address) :
    (s.perform address).run a = (.error ⟨address, s.length a.pointerWidth⟩, a) := by
  cases s with
  | word kind value =>
    refine (kind.run_store address value a).trans (if_neg ?_)
    rintro ⟨hvalue, hinside⟩
    rcases h with hpast | hexceeds
    · exact absurd hinside (Nat.not_le.mpr hpast)
    · exact absurd hvalue (Nat.not_lt.mpr (WordKind.exceeds_iff.mp hexceeds))
  | zero length =>
    refine if_neg (fun hfits => ?_)
    have hinside : address + length ≤ a.size := of_decide_eq_true hfits
    exact h.elim (Nat.not_lt.mpr hinside) id

/-- What can be performed ends. It changes the bytes of its range only, and is found there. -/
theorem exists_run_of_not_refused (h : ¬s.Refused a address) :
    ∃ b, (s.perform address).run a = (.ok (), b) ∧
      Arena.ChangedWithin (Set.Ico address (address + s.length a.pointerWidth)) a b ∧
      s.Leaves b address := by
  obtain ⟨hpast, hexceeds⟩ := not_or.mp h
  have hinside : address + s.length a.pointerWidth ≤ a.size := Nat.not_lt.mp hpast
  cases s with
  | word kind value =>
    have hvalue : kind.encode value < power 256 (kind.width a.pointerWidth) :=
      Nat.not_le.mp fun hle => hexceeds (WordKind.exceeds_iff.mpr hle)
    have hwithin := a.changedWithin_setWord address (kind.width a.pointerWidth) (kind.encode value)
    refine ⟨_, (kind.run_store address value a).trans (if_pos ⟨hvalue, hinside⟩), hwithin, ?_⟩
    have hread := a.word_setWord address _ (kind.encode value) hinside
    simp only [length] at hinside hread
    rw [Nat.mod_eq_of_lt hvalue] at hread
    rw [Leaves, WordKind.run_load, hwithin.width_eq, hwithin.size_eq, if_pos hinside, hread,
      WordKind.decode_encode]
  | zero length =>
    have hwithin := a.changedWithin_writeBytes address (List.replicate length 0)
    rw [List.length_replicate] at hwithin
    refine ⟨_, if_pos (decide_eq_true hinside), hwithin, ?_⟩
    rintro i ⟨hlow, hhigh⟩
    obtain ⟨k, rfl⟩ := Nat.exists_eq_add_of_le hlow
    have hk : k < (List.replicate length (0 : UInt8)).length := by
      rw [List.length_replicate]
      omega
    rw [Arena.byteAt_writeBytes (by rwa [List.length_replicate]) hk, List.getElem_replicate]

end Storing

/-! ### The laws -/

namespace Arena

variable {a b : Arena} {s : Set ℕ}

/-- A load returns what it returned before, if none of its bytes was changed. -/
theorem ChangedWithin.run_load_eq {kind : WordKind} {address : ℕ} (h : ChangedWithin s a b)
    (hd : Disjoint (Set.Ico address (address + kind.width a.pointerWidth)) s) :
    ((kind.load address).run b).1 = ((kind.load address).run a).1 := by
  rw [WordKind.run_load, WordKind.run_load, h.width_eq, h.size_eq,
    word_congr (h.eqOn_of_disjoint hd)]

/-- The laws of single accesses to an arena. -/
structure Lawful (a : Arena) : Prop where
  /-- A load faults exactly if it reaches past the end. -/
  load_faults : ∀ (kind : WordKind) (address : ℕ),
    (kind.load address).run a = (.error ⟨address, kind.width a.pointerWidth⟩, a) ↔
      a.size < address + kind.width a.pointerWidth
  /-- Every other load returns a value. No load writes. -/
  load_ends : ∀ (kind : WordKind) (address : ℕ), address + kind.width a.pointerWidth ≤ a.size →
    ∃ value, (kind.load address).run a = (.ok value, a)
  /-- What writes faults exactly if it is refused, and then it writes nothing. -/
  store_faults : ∀ (s : Storing) (address : ℕ),
    (s.perform address).run a = (.error ⟨address, s.length a.pointerWidth⟩, a) ↔
      s.Refused a address
  /-- Everything else that writes ends. It changes the bytes of its range only, it is found there,
  and loads that have no byte of the range return what they returned before. -/
  store_ends : ∀ (s : Storing) (address : ℕ), ¬s.Refused a address →
    ∃ b, (s.perform address).run a = (.ok (), b) ∧
      ChangedWithin (Set.Ico address (address + s.length a.pointerWidth)) a b ∧
      s.Leaves b address ∧
      ∀ (kind : WordKind) (other : ℕ),
        Disjoint (Set.Ico other (other + kind.width a.pointerWidth))
          (Set.Ico address (address + s.length a.pointerWidth)) →
        ((kind.load other).run b).1 = ((kind.load other).run a).1

/-- The laws hold in every arena, for every kind of access at every address. -/
theorem lawful (a : Arena) : a.Lawful where
  load_faults kind address := by
    rw [WordKind.run_load]
    split
    · next hinside => exact iff_of_false (fun h => by cases h) (Nat.not_lt.mpr hinside)
    · next hpast => exact iff_of_true rfl (Nat.not_le.mp hpast)
  load_ends kind address hinside := ⟨_, by rw [WordKind.run_load, if_pos hinside]⟩
  store_faults s address := by
    refine ⟨fun hfault => ?_, Storing.run_of_refused⟩
    by_contra h
    obtain ⟨b, hrun, -, -⟩ := Storing.exists_run_of_not_refused h
    rw [hrun] at hfault
    cases hfault
  store_ends s address h := by
    obtain ⟨b, hrun, hwithin, hleaves⟩ := Storing.exists_run_of_not_refused h
    exact ⟨b, hrun, hwithin, hleaves, fun kind other hd => hwithin.run_load_eq hd⟩

end Arena

end DspHost
