import DspHost.Proofs.Voices

/-!
# Held notes

Seen from outside, a voice table is a queue of held notes that never holds more of them than there
are voices. A note that begins goes to the back, and the front makes room for it if every voice is
taken; a note that ends leaves from wherever it stands first; and all notes can leave at once. The
table shows nothing of a queue: its order is the order of the stamps that allocations have left on
the active voices, in whatever places these are.

## Main definitions

* `NoteCall`, `VoiceTable.run` — what a table can be asked for, one call after the other
* `VoiceTable.byAge`, `VoiceTable.held` — the active voices in the order of their stamps, and their
  pitches
* `heldNotes` — the queue of held notes
* `VoiceTable.Aged` — the active voices in a list with increasing stamps

## Main results

* `VoiceTable.Aged.noteOn`, `VoiceTable.Aged.noteOff`, `VoiceTable.Aged.allNotesOff` — what a call
  does to that list
* `VoiceTable.held_run_ofRegions` — after any calls the active voices are the queue of held notes
-/

namespace DspHost

/-- A call of the voice table. -/
inductive NoteCall where
  /-- A note begins. -/
  | noteOn (pitch : UInt8)
  /-- A note ends. -/
  | noteOff (pitch : UInt8)
  /-- Every note ends. -/
  | allNotesOff
  deriving DecidableEq, Repr

/-- Whether a note begins. -/
def NoteCall.begins : NoteCall → Bool
  | noteOn _ => true
  | _ => false

/-! ### The queue -/

/-- The held notes after a call, where there are never more than `capacity` of them. -/
def heldAfter (capacity : ℕ) (held : List UInt8) : NoteCall → List UInt8
  | .noteOn pitch => (if held.length < capacity then held else held.tail) ++ [pitch]
  | .noteOff pitch => held.erase pitch
  | .allNotesOff => []

/-- The held notes after a number of calls, the one that began first in front. -/
def heldNotes (capacity : ℕ) (calls : List NoteCall) : List UInt8 :=
  calls.foldl (heldAfter capacity) []

namespace Voice

/-- A voice is active unless it is free or releasing. -/
theorem isSome_pitch?_or (v : Voice) :
    v.pitch?.isSome ∨ v.isFree = true ∨ v.isReleasing = true := by
  obtain ⟨_ | _ | _, _, _⟩ := v <;> simp [pitch?, isFree, isReleasing]

theorem pitch?_of_isFree {v : Voice} (h : v.isFree = true) : v.pitch? = none := by
  rw [pitch?, beq_iff_eq.mp h]

theorem pitch?_of_isReleasing {v : Voice} (h : v.isReleasing = true) : v.pitch? = none := by
  rw [pitch?, beq_iff_eq.mp h]

end Voice

namespace VoiceTable

/-- The table after a call. A note that finds no voice is lost. -/
def act (t : VoiceTable) : NoteCall → VoiceTable
  | .noteOn pitch => ((t.noteOn? pitch).map fun started => started.2.2).getD t
  | .noteOff pitch => (t.noteOff pitch).2
  | .allNotesOff => t.allNotesOff

/-- The table after a number of calls. -/
def run (t : VoiceTable) (calls : List NoteCall) : VoiceTable := calls.foldl act t

/-- The active voices, those with smaller stamps in front. -/
def byAge (t : VoiceTable) : List Voice :=
  (t.voices.filter (·.pitch?.isSome)).mergeSort fun v w => v.sequence ≤ w.sequence

/-- The pitches of the active voices, those with smaller stamps in front. -/
def held (t : VoiceTable) : List UInt8 := t.byAge.filterMap Voice.pitch?

/-! ### Voices in the order of their stamps -/

/-- The active voices in a list with increasing stamps. No stamp is ahead of the clock, so the next
one goes to the back. -/
structure Aged (t : VoiceTable) (vs : List Voice) : Prop where
  perm : vs.Perm (t.voices.filter (·.pitch?.isSome))
  increasing : vs.Pairwise fun v w => v.sequence < w.sequence
  stamped : ∀ v ∈ t.voices, v.sequence ≤ t.clock

variable {t : VoiceTable} {vs : List Voice} {voice : Voice} {index : ℕ} {pitch : UInt8}

/-- A place of a list, brought to the front before and after it is changed. -/
theorem perm_modify {voices : List Voice} (h : voices[index]? = some voice)
    (change : Voice → Voice) :
    voices.Perm (voice :: voices.eraseIdx index) ∧
      (voices.modify index change).Perm (change voice :: voices.eraseIdx index) := by
  obtain ⟨hlt, rfl⟩ := List.getElem?_eq_some_iff.mp h
  refine ⟨(List.getElem_cons_eraseIdx_perm hlt).symm, ?_⟩
  rw [List.modify_eq_take_cons_drop hlt, List.eraseIdx_eq_take_drop_succ]
  exact List.perm_middle

/-- The voice that a new note may take: one that is not active, or, if all are, the one that was
allocated first. -/
def Yields (t : VoiceTable) (voice : Voice) : Prop :=
  voice.pitch? = none ∨
    (∀ other ∈ t.voices, other.pitch?.isSome) ∧ ∀ other ∈ t.voices, voice.sequence ≤ other.sequence

theorem choose?_eq_some (hvoices : t.voices ≠ []) :
    ∃ choice voice, t.choose? = some choice ∧ t.voices[choice.index]? = some voice ∧
      t.Yields voice := by
  unfold choose?
  split
  · next index hfree =>
    obtain ⟨hlt, hpasses, -⟩ := List.findIdx?_eq_some_iff_getElem.mp hfree
    exact ⟨_, _, rfl, List.getElem?_eq_getElem hlt, .inl (Voice.pitch?_of_isFree hpasses)⟩
  · next hfree =>
    split
    · next index hreleasing =>
      obtain ⟨voice, hvoice, hpasses, -⟩ := oldest?_eq_some hreleasing
      exact ⟨_, voice, rfl, hvoice, .inl (Voice.pitch?_of_isReleasing hpasses)⟩
    · next hreleasing =>
      -- No voice is free and none is releasing, so all of them are active.
      have hactive : ∀ other ∈ t.voices, other.pitch?.isSome := by
        intro other hother
        rcases other.isSome_pitch?_or with hsome | hpasses | hpasses
        · exact hsome
        · exact absurd hpasses (by simp [List.findIdx?_eq_none_iff.mp hfree other hother])
        · exact absurd hpasses (oldest?_eq_none hreleasing other hother)
      cases holdest : t.oldest? fun v => v.pitch?.isSome with
      | none =>
        obtain ⟨first, hfirst⟩ := List.exists_mem_of_ne_nil _ hvoices
        exact absurd (hactive first hfirst) (oldest?_eq_none holdest first hfirst)
      | some index =>
        obtain ⟨voice, hvoice, -, hleast⟩ := oldest?_eq_some holdest
        refine ⟨_, voice, rfl, hvoice, .inr ⟨hactive, fun other hother => ?_⟩⟩
        exact hleast other hother (hactive other hother)

/-- A note starts the voice that is chosen for it. -/
theorem noteOn?_of_choose? {choice : VoiceChoice} (hchoose : t.choose? = some choice)
    (hvoice : t.voices[choice.index]? = some voice) (pitch : UInt8) :
    t.noteOn? pitch = some (choice, voice.region,
      ⟨t.voices.modify choice.index (·.start pitch (t.clock + 1)), t.clock + 1⟩) := by
  simp [noteOn?, allocate?, hchoose, hvoice]

/-- A note finds a voice. -/
theorem noteOn?_of_voices (hvoices : t.voices ≠ []) (pitch : UInt8) :
    ∃ choice voice, t.voices[choice.index]? = some voice ∧ t.Yields voice ∧
      t.noteOn? pitch = some (choice, voice.region,
        ⟨t.voices.modify choice.index (·.start pitch (t.clock + 1)), t.clock + 1⟩) := by
  obtain ⟨choice, voice, hchoose, hvoice, hyields⟩ := choose?_eq_some hvoices
  exact ⟨choice, voice, hvoice, hyields, noteOn?_of_choose? hchoose hvoice pitch⟩

/-- No voice plays a pitch that no voice holds. -/
theorem playing?_eq_none_iff :
    t.playing? pitch = none ↔ ∀ voice ∈ t.voices, voice.pitch? ≠ some pitch := by
  constructor
  · intro hplaying voice hvoice hpitch
    exact oldest?_eq_none hplaying voice hvoice (beq_iff_eq.mpr hpitch)
  · intro hmissing
    cases hplaying : t.playing? pitch with
    | none => rfl
    | some index =>
      obtain ⟨voice, hvoice, hpitch, -⟩ := noteOff_of_playing hplaying
      exact absurd hpitch (hmissing voice (List.mem_of_getElem? hvoice))

/-- Without active voices there is nothing to list. -/
theorem aged_nil (hnone : ∀ v ∈ t.voices, v.pitch? = none)
    (hstamped : ∀ v ∈ t.voices, v.sequence ≤ t.clock) : t.Aged [] := by
  refine ⟨?_, List.Pairwise.nil, hstamped⟩
  rw [List.filter_eq_nil_iff.mpr fun v hv => by simp [hnone v hv]]

namespace Aged

theorem mem_iff (h : t.Aged vs) : voice ∈ vs ↔ voice ∈ t.voices ∧ voice.pitch?.isSome := by
  rw [h.perm.mem_iff, List.mem_filter]

theorem eq_of_sequence_eq (h : t.Aged vs) {v w : Voice} (hv : v ∈ vs) (hw : w ∈ vs)
    (hsequence : v.sequence = w.sequence) : v = w := by
  have hnodup : (vs.map (·.sequence)).Nodup :=
    List.pairwise_map.mpr (h.increasing.imp fun hlt => hlt.ne)
  exact List.inj_on_of_nodup_map hnodup hv hw hsequence

theorem byAge_eq (h : t.Aged vs) : t.byAge = vs := by
  have hperm : t.byAge.Perm vs := (List.mergeSort_perm _ _).trans h.perm.symm
  have hsorted : t.byAge.Pairwise fun v w => v.sequence ≤ w.sequence := by
    refine (List.pairwise_mergeSort (fun u v w huv hvw => ?_) (fun v w => ?_) _).imp
      of_decide_eq_true
    · exact decide_eq_true ((of_decide_eq_true huv).trans (of_decide_eq_true hvw))
    · simpa using le_total v.sequence w.sequence
  -- No two stamps are equal, so there is only one order that does not decrease.
  refine hperm.eq_of_pairwise (fun v w hv hw hvw hwv => ?_) hsorted
    (h.increasing.imp fun hlt => hlt.le)
  exact h.eq_of_sequence_eq (hperm.mem_iff.mp hv) hw (hvw.antisymm hwv)

theorem held_eq (h : t.Aged vs) : t.held = vs.filterMap Voice.pitch? := by
  rw [held, h.byAge_eq]

theorem length_pitches (h : t.Aged vs) : (vs.filterMap Voice.pitch?).length = vs.length :=
  List.filterMap_length_eq_length.mpr fun _ hvoice => (h.mem_iff.mp hvoice).2

theorem mem_pitches_iff (h : t.Aged vs) :
    pitch ∈ vs.filterMap Voice.pitch? ↔ ∃ voice ∈ t.voices, voice.pitch? = some pitch := by
  rw [List.mem_filterMap]
  constructor
  · rintro ⟨voice, hvoice, hpitch⟩
    exact ⟨voice, (h.mem_iff.mp hvoice).1, hpitch⟩
  · rintro ⟨voice, hvoice, hpitch⟩
    exact ⟨voice, h.mem_iff.mpr ⟨hvoice, by simp [hpitch]⟩, hpitch⟩

/-! ### One voice changes -/

/-- Without a voice the list has the active voices in all other places of the table. -/
theorem perm_erase (h : t.Aged vs) (hvoice : t.voices[index]? = some voice) :
    (vs.erase voice).Perm ((t.voices.eraseIdx index).filter (·.pitch?.isSome)) := by
  have hperm := h.perm.trans ((perm_modify hvoice id).1.filter _)
  rw [List.filter_cons] at hperm
  by_cases hactive : voice.pitch?.isSome = true
  · rw [if_pos hactive] at hperm
    simpa using hperm.erase voice
  · rw [if_neg hactive] at hperm
    rwa [List.erase_of_not_mem fun hmem => hactive (h.mem_iff.mp hmem).2]

/-- A voice that is started goes to the back. -/
theorem start (h : t.Aged vs) (hvoice : t.voices[index]? = some voice) (pitch : UInt8) :
    (⟨t.voices.modify index (·.start pitch (t.clock + 1)), t.clock + 1⟩ : VoiceTable).Aged
      (vs.erase voice ++ [voice.start pitch (t.clock + 1)]) := by
  have hafter := (perm_modify hvoice (·.start pitch (t.clock + 1))).2
  refine ⟨?_, ?_, fun v hv => ?_⟩
  · refine List.Perm.trans ?_ (hafter.filter _).symm
    rw [List.filter_cons_of_pos (by rfl)]
    exact (List.perm_append_singleton _ _).trans ((h.perm_erase hvoice).cons _)
  · refine List.pairwise_append.mpr
      ⟨h.increasing.sublist List.erase_sublist, List.pairwise_singleton _ _, fun v hv w hw => ?_⟩
    obtain rfl := List.mem_singleton.mp hw
    exact Nat.lt_succ_of_le (h.stamped v (h.mem_iff.mp (List.mem_of_mem_erase hv)).1)
  · rcases List.mem_cons.mp (hafter.mem_iff.mp hv) with rfl | hrest
    · exact le_rfl
    · exact (h.stamped v (List.mem_of_mem_eraseIdx hrest)).trans (Nat.le_succ _)

/-- A voice that is closed leaves. -/
theorem close (h : t.Aged vs) (hvoice : t.voices[index]? = some voice) :
    ({ t with voices := t.voices.modify index Voice.close } : VoiceTable).Aged
      (vs.erase voice) := by
  have hafter := (perm_modify hvoice Voice.close).2
  refine ⟨?_, h.increasing.sublist List.erase_sublist, fun v hv => ?_⟩
  · refine (h.perm_erase hvoice).trans (List.Perm.trans ?_ (hafter.filter _).symm)
    rw [List.filter_cons_of_neg (by simp [Voice.close, Voice.pitch?])]
  · rcases List.mem_cons.mp (hafter.mem_iff.mp hv) with rfl | hrest
    · exact h.stamped voice (List.mem_of_getElem? hvoice)
    · exact h.stamped v (List.mem_of_mem_eraseIdx hrest)

/-! ### Calls -/

/-- The voice that a new note takes is not in the list, or it is the first of as many as there are
voices. -/
theorem erase_of_yields (h : t.Aged vs) (hvoice : voice ∈ t.voices) (hyields : t.Yields voice) :
    (vs.length < t.voices.length ∧ vs.erase voice = vs) ∨
      (vs.length = t.voices.length ∧ ∃ rest, vs = voice :: rest) := by
  rcases hyields with hnone | ⟨hactive, hleast⟩
  · refine .inl ⟨?_, List.erase_of_not_mem fun hmem => ?_⟩
    · rw [h.perm.length_eq]
      exact List.length_filter_lt_length_iff_exists.mpr ⟨voice, hvoice, by simp [hnone]⟩
    · simpa [hnone] using (h.mem_iff.mp hmem).2
  · have hvs : voice ∈ vs := h.mem_iff.mpr ⟨hvoice, hactive voice hvoice⟩
    refine .inr ⟨by rw [h.perm.length_eq, List.filter_eq_self.mpr hactive], ?_⟩
    cases vs with
    | nil => cases hvs
    | cons first rest =>
      -- The first of the list has the smallest stamp, and so has the voice.
      rcases List.mem_cons.mp hvs with rfl | hrest
      · exact ⟨rest, rfl⟩
      · have hlt := (List.pairwise_cons.mp h.increasing).1 voice hrest
        have hfirst := (h.mem_iff.mp (List.mem_cons_self (a := first))).1
        exact absurd (hleast first hfirst) hlt.not_ge

/-- A note that begins goes to the back of the queue, and the front makes room for it. -/
theorem noteOn (h : t.Aged vs) (hvoices : t.voices ≠ []) (pitch : UInt8) :
    ∃ vs', (t.act (.noteOn pitch)).Aged vs' ∧ vs'.filterMap Voice.pitch? =
      heldAfter t.voices.length (vs.filterMap Voice.pitch?) (.noteOn pitch) := by
  obtain ⟨choice, voice, hvoice, hyields, hnote⟩ := noteOn?_of_voices hvoices pitch
  refine ⟨vs.erase voice ++ [voice.start pitch (t.clock + 1)], ?_, ?_⟩
  · rw [act, hnote]
    exact h.start hvoice pitch
  · rw [heldAfter, h.length_pitches, List.filterMap_append]
    rcases h.erase_of_yields (List.mem_of_getElem? hvoice) hyields with
      ⟨hlt, herase⟩ | ⟨heq, rest, rfl⟩
    · rw [if_pos hlt, herase]
      rfl
    · obtain ⟨old, hold⟩ := Option.isSome_iff_exists.mp
        (h.mem_iff.mp (List.mem_cons_self (a := voice))).2
      rw [if_neg heq.not_lt, List.erase_cons_head, List.filterMap_cons_some hold, List.tail_cons]
      rfl

theorem playing?_eq_none_iff (h : t.Aged vs) :
    t.playing? pitch = none ↔ pitch ∉ vs.filterMap Voice.pitch? := by
  rw [VoiceTable.playing?_eq_none_iff, h.mem_pitches_iff]
  simp

/-- A note that ends finds a voice exactly if its pitch is held. -/
theorem isSome_noteOff_iff (h : t.Aged vs) :
    (t.noteOff pitch).1.isSome ↔ pitch ∈ vs.filterMap Voice.pitch? := by
  rw [← not_iff_not, ← h.playing?_eq_none_iff]
  cases hplaying : t.playing? pitch with
  | none => simp [VoiceTable.noteOff, hplaying]
  | some index =>
    obtain ⟨_, -, -, -, hnote⟩ := noteOff_of_playing hplaying
    simp [hnote]

/-- A note that ends leaves from where it stands first, if it is held at all. -/
theorem noteOff (h : t.Aged vs) (pitch : UInt8) :
    ∃ vs', (t.act (.noteOff pitch)).Aged vs' ∧ vs'.filterMap Voice.pitch? =
      heldAfter t.voices.length (vs.filterMap Voice.pitch?) (.noteOff pitch) := by
  rw [act, heldAfter]
  cases hplaying : t.playing? pitch with
  | none =>
    rw [VoiceTable.noteOff, hplaying]
    exact ⟨vs, h, (List.erase_of_not_mem (h.playing?_eq_none_iff.mp hplaying)).symm⟩
  | some index =>
    obtain ⟨voice, hvoice, hpitch, hleast, hnote⟩ := noteOff_of_playing hplaying
    rw [hnote]
    refine ⟨vs.erase voice, h.close hvoice, ?_⟩
    have hvs : voice ∈ vs := h.mem_iff.mpr ⟨List.mem_of_getElem? hvoice, by simp [hpitch]⟩
    obtain ⟨older, younger, rfl⟩ := List.append_of_mem hvs
    -- An older voice with the pitch would have been found instead.
    have hfirst : pitch ∉ older.filterMap Voice.pitch? := by
      intro hmem
      obtain ⟨other, hother, hsame⟩ := List.mem_filterMap.mp hmem
      have hlt := (List.pairwise_append.mp h.increasing).2.2 other hother voice List.mem_cons_self
      have hother' := (h.mem_iff.mp (List.mem_append_left _ hother)).1
      exact absurd (hleast other hother' hsame) hlt.not_ge
    have hvoice' : voice ∉ older := fun hmem =>
      hfirst (List.mem_filterMap.mpr ⟨voice, hmem, hpitch⟩)
    rw [List.erase_append_right _ hvoice', List.erase_cons_head, List.filterMap_append,
      List.filterMap_append, List.filterMap_cons_some hpitch, List.erase_append_right _ hfirst,
      List.erase_cons_head]

theorem allNotesOff (h : t.Aged vs) : t.allNotesOff.Aged [] := by
  refine aged_nil (fun v hv => ?_) fun v hv => ?_
  · obtain ⟨voice, -, rfl⟩ := List.mem_map.mp hv
    rfl
  · obtain ⟨voice, hvoice, rfl⟩ := List.mem_map.mp hv
    exact h.stamped voice hvoice

/-- What a call does to the queue of held notes. -/
theorem act (h : t.Aged vs) (hvoices : t.voices ≠ []) (call : NoteCall) :
    ∃ vs', (t.act call).Aged vs' ∧ vs'.filterMap Voice.pitch? =
      heldAfter t.voices.length (vs.filterMap Voice.pitch?) call := by
  cases call with
  | noteOn pitch => exact h.noteOn hvoices pitch
  | noteOff pitch => exact h.noteOff pitch
  | allNotesOff => exact ⟨[], h.allNotesOff, rfl⟩

end Aged

/-! ### Runs -/

theorem length_voices_act (t : VoiceTable) (call : NoteCall) :
    (t.act call).voices.length = t.voices.length := by
  cases call with
  | noteOn pitch =>
    rw [act]
    cases hnote : t.noteOn? pitch with
    | none => rfl
    | some started =>
      obtain ⟨choice, region, t'⟩ := started
      obtain ⟨index, _, -, -, ht'⟩ := noteOn?_eq_some hnote
      rw [Option.map_some, Option.getD_some, ht', List.length_modify]
  | noteOff pitch =>
    rw [act]
    rcases hnote : t.noteOff pitch with ⟨_ | index, t'⟩
    · rw [noteOff_eq_none hnote]
    · obtain ⟨_, -, ht'⟩ := noteOff_eq_some hnote
      rw [ht', List.length_modify]
  | allNotesOff => exact t.length_voices_allNotesOff

theorem clock_noteOff (t : VoiceTable) (pitch : UInt8) : (t.noteOff pitch).2.clock = t.clock := by
  cases hplaying : t.playing? pitch with
  | none => rw [noteOff, hplaying]
  | some index =>
    obtain ⟨_, -, -, -, hnote⟩ := noteOff_of_playing hplaying
    rw [hnote]

/-- The clock counts the notes that began. -/
theorem clock_act (hvoices : t.voices ≠ []) (call : NoteCall) :
    (t.act call).clock = t.clock + if call.begins then 1 else 0 := by
  cases call with
  | noteOn pitch =>
    obtain ⟨_, _, -, -, hnote⟩ := noteOn?_of_voices hvoices pitch
    rw [act, hnote]
    rfl
  | noteOff pitch => exact t.clock_noteOff pitch
  | allNotesOff => rfl

/-- What a table of `capacity` voices has come to after a number of calls. -/
structure After (t : VoiceTable) (capacity : ℕ) (calls : List NoteCall) : Prop where
  length_eq : t.voices.length = capacity
  clock_eq : t.clock = calls.countP NoteCall.begins
  aged : ∃ vs, t.Aged vs ∧ vs.filterMap Voice.pitch? = heldNotes capacity calls

theorem after_ofRegions (regions : List InstanceRegion) :
    (ofRegions regions).After regions.length [] := by
  refine ⟨length_voices_ofRegions regions, rfl, [], aged_nil (fun v hv => ?_) fun v hv => ?_, rfl⟩
  · obtain ⟨region, -, rfl⟩ := List.mem_map.mp hv
    rfl
  · obtain ⟨region, -, rfl⟩ := List.mem_map.mp hv
    exact le_rfl

theorem After.voices_ne_nil {capacity : ℕ} {calls : List NoteCall} (h : t.After capacity calls)
    (hpos : 0 < capacity) : t.voices ≠ [] := by
  rw [← List.length_pos_iff_ne_nil, h.length_eq]
  exact hpos

theorem After.act {capacity : ℕ} {calls : List NoteCall} (h : t.After capacity calls)
    (hpos : 0 < capacity) (call : NoteCall) : (t.act call).After capacity (calls ++ [call]) := by
  have hvoices := h.voices_ne_nil hpos
  obtain ⟨vs, haged, hheld⟩ := h.aged
  obtain ⟨vs', haged', hheld'⟩ := haged.act hvoices call
  refine ⟨(t.length_voices_act call).trans h.length_eq, ?_, vs', haged', ?_⟩
  · rw [clock_act hvoices, h.clock_eq, List.countP_append, List.countP_singleton]
  · rw [hheld', hheld, h.length_eq, heldNotes, heldNotes, List.foldl_append]
    rfl

theorem after_run {regions : List InstanceRegion} (hregions : regions ≠ [])
    (calls : List NoteCall) : ((ofRegions regions).run calls).After regions.length calls := by
  -- Both sides are folded from the front, so calls are added at the back.
  induction calls using List.reverseRecOn with
  | nil => exact after_ofRegions regions
  | append_singleton calls call ih =>
    rw [run, List.foldl_append]
    exact ih.act (List.length_pos_iff_ne_nil.mpr hregions) call

/-- A voice table is a bounded queue of held notes. The active voices in the order of their stamps,
which are all different, hold the notes of the queue; every new note finds a voice; and a note that
ends finds one exactly if its pitch is held. No stamp exceeds the number of notes that began, so the
stamps fit a word of the machine as long as that number does. -/
theorem held_run_ofRegions {regions : List InstanceRegion} (hregions : regions ≠ [])
    (calls : List NoteCall) :
    ((ofRegions regions).run calls).held = heldNotes regions.length calls ∧
      ((ofRegions regions).run calls).byAge.Pairwise (fun v w => v.sequence < w.sequence) ∧
      (∀ v ∈ ((ofRegions regions).run calls).voices,
        v.sequence ≤ ((ofRegions regions).run calls).clock) ∧
      ((ofRegions regions).run calls).clock = calls.countP NoteCall.begins ∧
      (∀ pitch, (((ofRegions regions).run calls).noteOn? pitch).isSome) ∧
      ∀ pitch, (((ofRegions regions).run calls).noteOff pitch).1.isSome ↔
        pitch ∈ heldNotes regions.length calls := by
  have hafter := after_run hregions calls
  have hvoices := hafter.voices_ne_nil (List.length_pos_iff_ne_nil.mpr hregions)
  obtain ⟨vs, haged, hheld⟩ := hafter.aged
  generalize (ofRegions regions).run calls = t at hafter hvoices haged
  refine ⟨haged.held_eq.trans hheld, ?_, haged.stamped, hafter.clock_eq, fun pitch => ?_,
    fun pitch => ?_⟩
  · rw [haged.byAge_eq]
    exact haged.increasing
  · obtain ⟨_, _, -, -, hnote⟩ := noteOn?_of_voices hvoices pitch
    rw [hnote, Option.isSome_some]
  · rw [← hheld]
    exact haged.isSome_noteOff_iff

/-- Two voices: the third note takes the voice of the first, and what ends then is the second. -/
theorem held_run_ofRegions_stolen :
    ([⟨0, 64⟩, ⟨64, 64⟩] : List InstanceRegion) ≠ [] ∧
      ((ofRegions [⟨0, 64⟩, ⟨64, 64⟩]).run
        [.noteOn 60, .noteOn 60, .noteOn 62, .noteOff 60, .noteOn 64]).held = [62, 64] := by
  have hregions : ([⟨0, 64⟩, ⟨64, 64⟩] : List InstanceRegion) ≠ [] := by simp
  exact ⟨hregions, (held_run_ofRegions hregions _).1.trans (by decide)⟩

end VoiceTable

end DspHost
