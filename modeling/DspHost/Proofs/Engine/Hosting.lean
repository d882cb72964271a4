import DspHost.Engine.Setup
import DspHost.Proofs.Memory.Access
import DspHost.Proofs.Memory.Area

/-!
# Arenas that module code is run in

Module code finds its samples through pointer tables. The host points every word of them at the
buffer of its channel before any module code runs, and as long as nobody writes to the tables they
stay so.

## Main definitions

* `Arena.Points` — a word that holds the address of a buffer
* `MemoryPlan.Words` — the words of a table, which share no byte
* `MemoryPlan.Hosts` — an arena whose tables point at the planned buffers
* `MemoryPlan.Addressable` — the addresses of all buffers fit words

## Main results

* `MemoryPlan.Hosts.of_changedWithin` — tables that nobody writes to stay as they are
* `MemoryPlan.hosts_of_pointTables` — the host points every word at its buffer
* `MemoryPlan.Addressable.pointTables_ends`, `MemoryPlan.pointTables_ends` — it can if addresses fit
  words
-/

namespace DspHost

variable {p : MemoryPlan} {a b c : Arena} {s : Set ℕ}

/-! ### Words that point at buffers -/

/-- The word at a slot holds the address of a buffer, where there are both. -/
def Arena.Points (a : Arena) (slot : Option ℕ) (buffer : Option SampleBuffer) : Prop :=
  ∀ address target, slot = some address → buffer = some target →
    a.loadPointer address = .ok target.offset

namespace Arena.Points

variable {slot : Option ℕ} {buffer : Option SampleBuffer}

/-- A word that nobody writes to points where it did. -/
theorem of_changedWithin (h : a.Points slot buffer) (hchange : ChangedWithin s a b)
    (hd : ∀ address, slot = some address →
      Disjoint (Set.Ico address (address + a.pointerWidth.bytes)) s) : b.Points slot buffer :=
  fun address target hslot hbuffer =>
    (hchange.loadPointer_eq (hd address hslot)).trans (h address target hslot hbuffer)

end Arena.Points

theorem loadPointer_setWord {address value : ℕ} (h : a.acceptsPointer address value = true) :
    (a.setWord address a.pointerWidth.bytes value).loadPointer address = .ok value := by
  obtain ⟨hvalue, hfits⟩ := Bool.and_eq_true_iff.mp h
  have hchange := a.changedWithin_setWord address a.pointerWidth.bytes value
  have hinside : address + a.pointerWidth.bytes ≤ a.size := of_decide_eq_true hfits
  rw [Arena.loadPointer, hchange.width_eq, hchange.fits_eq, hfits,
    Arena.word_setWord _ _ _ _ hinside, Nat.mod_eq_of_lt (of_decide_eq_true hvalue)]
  rfl

/-- Pointing a word at a buffer changes that word only. -/
theorem run_pointWord {slot : Option ℕ} {buffer : Option SampleBuffer}
    (h : (pointWord slot buffer).run a = (.ok (), b)) :
    b.Points slot buffer ∧
      Arena.ChangedWithin
        {i | ∃ address, slot = some address ∧
          i ∈ Set.Ico address (address + a.pointerWidth.bytes)} a b := by
  unfold pointWord at h
  split at h
  · next address target =>
    change (if a.acceptsPointer address target.offset = true then _ else _) = _ at h
    split_ifs at h with haccepts
    · obtain rfl := (Prod.mk.inj h).2
      refine ⟨?_, (a.changedWithin_setWord _ _ _).mono fun i hi => ⟨address, rfl, hi⟩⟩
      rintro _ _ ⟨⟩ ⟨⟩
      exact loadPointer_setWord haccepts
    · cases h
  · next hmissing =>
    obtain rfl : a = b := (Prod.mk.inj h).2
    exact ⟨fun address target hslot hbuffer => absurd hbuffer (hmissing address target hslot),
      .refl _ a⟩

/-! ### The words of a table -/

namespace MemoryPlan

/-- The words of a kind of table: each lies in the area of the kind, and different channels have
words that share no byte. -/
structure Words (p : MemoryPlan) (kind : RegionKind) (slot? : ℕ → Option ℕ) : Prop where
  inside : ∀ c address, slot? c = some address →
    Set.Ico address (address + p.pointerWidth.bytes) ⊆ p.area {kind}
  apart : ∀ c c' address address', c ≠ c' → slot? c = some address → slot? c' = some address' →
    Disjoint (Set.Ico address (address + p.pointerWidth.bytes))
      (Set.Ico address' (address' + p.pointerWidth.bytes))

theorem words_of_table {kind : RegionKind} {t : PointerTable}
    (hmem : tableRegion kind t ∈ p.allRegions) (hwidth : t.width = p.pointerWidth) :
    p.Words kind t.slot? := by
  have hpart {c address : ℕ} (hslot : t.slot? c = some address) :
      slotPart kind t c = some ⟨kind, address, address + t.width.bytes⟩ :=
    Option.map_eq_some_iff.mpr ⟨address, hslot, rfl⟩
  refine ⟨fun c address hslot => ?_, fun c c' address address' hne hslot hslot' => ?_⟩
  · rw [← hwidth]
    exact (holds_slot hmem hslot).subset_area
  · rw [← hwidth]
    have hapart := (serves_slots hmem rfl).apart c c' _ _ hne (hpart hslot) (hpart hslot')
    exact hapart.disjoint

theorem WellFormed.words_input (h : p.WellFormed) : p.Words .inputTable p.inputTable.slot? :=
  words_of_table p.inputTable_mem (by rw [h.inputTable])

theorem WellFormed.words_output (h : p.WellFormed) : p.Words .outputTable p.outputTable.slot? :=
  words_of_table p.outputTable_mem (by rw [h.outputTable])

theorem WellFormed.words_mixing (h : p.WellFormed) :
    p.Words .mixingTable fun c => p.mixing.bind (·.table.slot? c) := by
  cases hmixing : p.mixing with
  | none =>
    refine ⟨fun c address hslot => ?_, fun c c' address address' _ hslot => ?_⟩
    · cases hslot
    · cases hslot
  | some m => exact words_of_table (mixingTable_mem hmixing) (by rw [h.mixingTable m hmixing])

namespace Words

variable {kind : RegionKind} {slot? : ℕ → Option ℕ} {buffer? : ℕ → Option SampleBuffer} {c : ℕ}

/-- Words keep pointing where they did if nobody writes to their kind of table. -/
theorem points_of_disjoint (h : p.Words kind slot?) (hwidth : a.pointerWidth = p.pointerWidth)
    (hchange : Arena.ChangedWithin s a b) (hd : Disjoint (p.area {kind}) s)
    (hpoints : a.Points (slot? c) (buffer? c)) : b.Points (slot? c) (buffer? c) := by
  refine hpoints.of_changedWithin hchange fun address hslot => ?_
  rw [hwidth]
  exact hd.mono_left (h.inside c address hslot)

/-- Pointing one word of a table keeps the other words of the table and everything outside. -/
theorem of_run_pointWord (h : p.Words kind slot?) (hwidth : a.pointerWidth = p.pointerWidth)
    (hrun : (pointWord (slot? c) (buffer? c)).run a = (.ok (), b)) :
    b.Points (slot? c) (buffer? c) ∧ Arena.ChangedWithin (p.area {kind}) a b ∧
      ∀ other, a.Points (slot? other) (buffer? other) → b.Points (slot? other) (buffer? other) := by
  obtain ⟨hpoints, hchange⟩ := run_pointWord hrun
  refine ⟨hpoints, hchange.mono ?_, fun other hother => ?_⟩
  · rintro i ⟨address, hslot, hi⟩
    rw [hwidth] at hi
    exact h.inside c address hslot hi
  · -- The buffer of a channel is looked up by its number, so one channel has one word.
    by_cases heq : other = c
    · exact heq ▸ hpoints
    · refine hother.of_changedWithin hchange fun address hslot => Set.disjoint_left.mpr ?_
      rintro i hi ⟨address', hslot', hi'⟩
      rw [hwidth] at hi hi'
      exact Set.disjoint_left.mp (h.apart other c address address' heq hslot hslot') hi hi'

end Words

/-! ### Hosted arenas -/

/-- An arena of the planned size in which every word of a pointer table holds the address of the
buffer of its channel. -/
structure Hosts (p : MemoryPlan) (a : Arena) : Prop where
  size_eq : a.size = p.arenaSize
  width_eq : a.pointerWidth = p.pointerWidth
  input : ∀ c, a.Points (p.inputTable.slot? c) (p.inputBuffer? c)
  output : ∀ c, a.Points (p.outputTable.slot? c) (p.outputBuffer? c)
  mixing : ∀ c, a.Points (p.mixing.bind (·.table.slot? c)) (p.mixingBuffer? c)

/-- Tables that nobody writes to stay as they are. -/
theorem Hosts.of_changedWithin (h : p.Hosts a) (hwell : p.WellFormed)
    (hchange : Arena.ChangedWithin s a b) (hd : Disjoint (p.area RegionKind.tables) s) :
    p.Hosts b := by
  have hkind (kind : RegionKind) (hmem : kind ∈ RegionKind.tables) : Disjoint (p.area {kind}) s :=
    hd.mono_left (area_mono (Set.singleton_subset_iff.mpr hmem))
  refine ⟨hchange.size_eq.trans h.size_eq, hchange.width_eq.trans h.width_eq, fun c => ?_,
    fun c => ?_, fun c => ?_⟩
  · have hinput := hkind .inputTable (by simp [RegionKind.tables])
    exact hwell.words_input.points_of_disjoint h.width_eq hchange hinput (h.input c)
  · have houtput := hkind .outputTable (by simp [RegionKind.tables])
    exact hwell.words_output.points_of_disjoint h.width_eq hchange houtput (h.output c)
  · have hmixing := hkind .mixingTable (by simp [RegionKind.tables])
    exact hwell.words_mixing.points_of_disjoint h.width_eq hchange hmixing (h.mixing c)

/-- The words of channels that there are not do not exist. -/
theorem points_of_range {slot? : ℕ → Option ℕ} {buffer? : ℕ → Option SampleBuffer} {count : ℕ}
    (hnone : ∀ c, count ≤ c → buffer? c = none)
    (h : ∀ c ∈ List.range count, a.Points (slot? c) (buffer? c)) (c : ℕ) :
    a.Points (slot? c) (buffer? c) := by
  rcases Nat.lt_or_ge c count with hlt | hge
  · exact h c (List.mem_range.mpr hlt)
  · intro address target _ hbuffer
    rw [hnone c hge] at hbuffer
    cases hbuffer

/-- The first loop of the host points the words of the input table. -/
theorem input_of_forEach (hwell : p.WellFormed) (hwidth : a.pointerWidth = p.pointerWidth)
    (hrun : (Access.forEach (fun channel =>
      pointWord (p.inputTable.slot? channel) (p.inputBuffer? channel))
        (List.range p.inputs)).run a = (.ok (), b)) :
    Arena.ChangedWithin (p.area {.inputTable}) a b ∧
      ∀ channel, b.Points (p.inputTable.slot? channel) (p.inputBuffer? channel) := by
  obtain ⟨hchange, hall, -⟩ := Access.forEach_establishes
    (Arena.ChangedWithin (p.area {.inputTable}) a)
    (fun channel a' => a'.Points (p.inputTable.slot? channel) (p.inputBuffer? channel))
    (fun channel _ b c hb hpoint => by
      have hwidth' := hb.width_eq.trans hwidth
      obtain ⟨hpoints, hchange, hkept⟩ := hwell.words_input.of_run_pointWord hwidth' hpoint
      exact ⟨hb.trans hchange, hpoints, hkept⟩)
    (.refl _ a) hrun
  refine ⟨hchange, points_of_range (fun channel hge => ?_) hall⟩
  exact if_neg (Nat.not_lt.mpr hge)

/-- The second loop of the host points the words of the output table and of the mixing table. -/
theorem output_of_forEach (hwell : p.WellFormed) (hwidth : a.pointerWidth = p.pointerWidth)
    (hrun : (Access.forEach (pointOutput p) (List.range p.outputs)).run a = (.ok (), b)) :
    Arena.ChangedWithin (p.area {.outputTable, .mixingTable}) a b ∧
      (∀ channel, b.Points (p.outputTable.slot? channel) (p.outputBuffer? channel)) ∧
        ∀ channel, b.Points (p.mixing.bind (·.table.slot? channel)) (p.mixingBuffer? channel) := by
  have hapart : Disjoint (p.area {.outputTable}) (p.area {.mixingTable}) :=
    hwell.disjoint_area (by simp)
  obtain ⟨hchange, hall, -⟩ := Access.forEach_establishes
    (Arena.ChangedWithin (p.area {.outputTable, .mixingTable}) a)
    (fun channel a' => a'.Points (p.outputTable.slot? channel) (p.outputBuffer? channel) ∧
      a'.Points (p.mixing.bind (·.table.slot? channel)) (p.mixingBuffer? channel))
    (fun channel _ b d hb hpoint => by
      obtain ⟨_, c, hout, hmix⟩ := Access.run_bind_eq_ok_iff.mp hpoint
      have hwidthb := hb.width_eq.trans hwidth
      -- Each of the two words of a channel leaves the table of the other alone.
      obtain ⟨hpoints, hchange, hkept⟩ := hwell.words_output.of_run_pointWord hwidthb hout
      have hwidthc := hchange.width_eq.trans hwidthb
      obtain ⟨hpoints', hchange', hkept'⟩ := hwell.words_mixing.of_run_pointWord hwidthc hmix
      have hout' : p.area {.outputTable} ⊆ p.area {.outputTable, .mixingTable} :=
        area_mono (by simp)
      have hmix' : p.area {.mixingTable} ⊆ p.area {.outputTable, .mixingTable} :=
        area_mono (by simp)
      have hwhole := (hchange.mono hout').trans (hchange'.mono hmix')
      refine ⟨hb.trans hwhole, ⟨?_, hpoints'⟩, fun other hother => ⟨?_, ?_⟩⟩
      · exact hwell.words_output.points_of_disjoint hwidthc hchange' hapart hpoints
      · exact hwell.words_output.points_of_disjoint hwidthc hchange' hapart (hkept other hother.1)
      · refine hkept' other (hwell.words_mixing.points_of_disjoint hwidthb hchange ?_ hother.2)
        exact hapart.symm)
    (.refl _ a) hrun
  refine ⟨hchange, points_of_range (fun channel hge => ?_) fun channel hc => (hall channel hc).1,
    points_of_range (fun channel hge => ?_) fun channel hc => (hall channel hc).2⟩
  · exact if_neg (Nat.not_lt.mpr hge)
  · refine Option.bind_eq_none_iff.mpr fun m _ => ?_
    exact if_neg (Nat.not_lt.mpr hge)

/-- The host points every word at the buffer of its channel. -/
theorem hosts_of_pointTables (hwell : p.WellFormed) (hsize : a.size = p.arenaSize)
    (hwidth : a.pointerWidth = p.pointerWidth)
    (hrun : (pointTables p).run a = (.ok (), b)) : p.Hosts b := by
  obtain ⟨_, c, hinputs, houtputs⟩ := Access.run_bind_eq_ok_iff.mp hrun
  obtain ⟨hfirst, hinput⟩ := input_of_forEach hwell hwidth hinputs
  have hwidth' := hfirst.width_eq.trans hwidth
  obtain ⟨hsecond, houtput, hmixing⟩ := output_of_forEach hwell hwidth' houtputs
  refine ⟨hsecond.size_eq.trans (hfirst.size_eq.trans hsize), hsecond.width_eq.trans hwidth',
    fun channel => ?_, houtput, hmixing⟩
  refine hwell.words_input.points_of_disjoint hwidth' hsecond ?_ (hinput channel)
  exact hwell.disjoint_area (by simp)

/-! ### Pointing ends -/

theorem WellFormed.area_subset (hwell : p.WellFormed) (kinds : Set RegionKind) :
    p.area kinds ⊆ Set.Iio p.arenaSize := by
  rintro i ⟨r, hr, -, hi⟩
  exact hi.2.trans_le (hwell.stop_le_arenaSize r hr)

/-- A buffer of some channel. -/
def ChannelBuffer (p : MemoryPlan) (b : SampleBuffer) : Prop :=
  ∃ channel, p.inputBuffer? channel = some b ∨ p.outputBuffer? channel = some b ∨
    p.mixingBuffer? channel = some b

/-- The buffers of all channels begin at addresses that fit the words of the tables. -/
def Addressable (p : MemoryPlan) : Prop :=
  ∀ b, p.ChannelBuffer b → b.offset < power 256 p.pointerWidth.bytes

/-- The buffers of all channels lie inside the arena. -/
theorem ChannelBuffer.stop_le_arenaSize {b : SampleBuffer} (hbuffer : p.ChannelBuffer b)
    (hwell : p.WellFormed) : b.offset + b.byteLength ≤ p.arenaSize := by
  obtain ⟨channel, hb | hb | hb⟩ := hbuffer
  · exact (holds_inputBuffer hb).stop_le_arenaSize hwell
  · exact (holds_outputBuffer hb).stop_le_arenaSize hwell
  · exact (holds_mixingBuffer hb).stop_le_arenaSize hwell

/-- Addresses of a small arena fit. -/
theorem WellFormed.addressable (hwell : p.WellFormed)
    (hroom : p.arenaSize < power 256 p.pointerWidth.bytes) : p.Addressable := by
  intro b hbuffer
  have hstop := hbuffer.stop_le_arenaSize hwell
  omega

/-- A word can be pointed at a buffer if the address of the buffer fits the word. -/
theorem Words.pointWord_ends {kind : RegionKind} {slot? : ℕ → Option ℕ}
    {buffer? : ℕ → Option SampleBuffer} {c : ℕ} (h : p.Words kind slot?) (hwell : p.WellFormed)
    (hsize : a.size = p.arenaSize) (hwidth : a.pointerWidth = p.pointerWidth)
    (hbuffer : ∀ b, buffer? c = some b → b.offset < power 256 p.pointerWidth.bytes) :
    (pointWord (slot? c) (buffer? c)).Ends a fun _ b =>
      b.size = p.arenaSize ∧ b.pointerWidth = p.pointerWidth := by
  unfold pointWord
  split
  · next address target haddress htarget =>
    have hpos := p.pointerWidth.bytes_pos
    -- The last byte of the word lies in the area of the table, and so in the arena.
    have hlast : address + (p.pointerWidth.bytes - 1) < p.arenaSize := by
      refine hwell.area_subset _ (h.inside c address haddress ⟨Nat.le_add_right _ _, ?_⟩)
      omega
    have hinside : address + p.pointerWidth.bytes ≤ a.size := by omega
    refine .storePointer ?_ ⟨(Arena.size_setWord _ _ _ _).trans hsize, hwidth⟩
    rw [Arena.acceptsPointer, hwidth]
    exact Bool.and_eq_true_iff.mpr
      ⟨decide_eq_true (hbuffer target htarget), decide_eq_true hinside⟩
  · exact .pure ⟨hsize, hwidth⟩

/-- In an arena of the planned size every word can be pointed at its buffer if addresses fit. -/
theorem Addressable.pointTables_ends (hfits : p.Addressable) (hwell : p.WellFormed)
    (hsize : a.size = p.arenaSize) (hwidth : a.pointerWidth = p.pointerWidth) :
    (pointTables p).Ends a fun _ b => p.Hosts b := by
  have hends : (pointTables p).Ends a fun _ b =>
      b.size = p.arenaSize ∧ b.pointerWidth = p.pointerWidth := by
    refine .bind ((Access.Ends.forEach (fun channel _ b hb => ?_) ⟨hsize, hwidth⟩).mono
      fun _ c hc => .forEach (fun channel _ b hb => ?_) hc)
    · exact hwell.words_input.pointWord_ends hwell hb.1 hb.2
        fun b hinput => hfits b ⟨channel, .inl hinput⟩
    · refine .bind ((hwell.words_output.pointWord_ends hwell hb.1 hb.2
        fun b houtput => hfits b ⟨channel, .inr (.inl houtput)⟩).mono fun _ c hc => ?_)
      exact hwell.words_mixing.pointWord_ends hwell hc.1 hc.2
        fun b hmixing => hfits b ⟨channel, .inr (.inr hmixing)⟩
  -- What the words hold in the end is known already of every run that ends.
  obtain ⟨_, b, hrun, -⟩ := hends
  exact .of_run hrun (hosts_of_pointTables hwell hsize hwidth hrun)

/-- In a small arena of the planned size every word can be pointed at its buffer. -/
theorem pointTables_ends (hwell : p.WellFormed)
    (hroom : p.arenaSize < power 256 p.pointerWidth.bytes) (hsize : a.size = p.arenaSize)
    (hwidth : a.pointerWidth = p.pointerWidth) : (pointTables p).Ends a fun _ b => p.Hosts b :=
  (hwell.addressable hroom).pointTables_ends hwell hsize hwidth

end MemoryPlan

end DspHost
