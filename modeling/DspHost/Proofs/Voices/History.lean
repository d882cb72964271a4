import DspHost.Proofs.Voices.HeldNotes

/-!
# Which voice a history picks

A voice table is small: of everything that it was asked for it keeps one state and one stamp for
every voice. This module compares it with the whole history, the list of the places that successful
allocations took. The stamp of a voice is the rank of the last allocation that took its place, a
voice is free only as long as it was never allocated and the notes were never all ended, and the
choice of a voice for a new note is the one that the history calls for.

Voices can be started and closed one by one as well, in any state and at any place, so a releasing
voice need not have been allocated: ending all notes leaves voices that release and have stamp zero.
These are the only ones that tie, and the first of them is taken.

## Main definitions

* `VoiceCall`, `VoiceTable.perform`, `VoiceTable.takenBy` — calls, and the places that they took
* `lastRank` — when a place was last taken
* `VoiceTable.Recalls` — a table agrees with a history
* `VoiceTable.Picks` — the voice for a new note, read off the history

## Main results

* `VoiceTable.Recalls.perform`, `VoiceTable.Recalls.performAll` — tables go on to agree
* `VoiceTable.Recalls.choose?_eq_some_iff` — a table that agrees picks what the history picks
* `VoiceTable.picks_of_history` — all of it for the table of any instances, after any calls
-/

namespace DspHost

/-- A call of a voice table, about notes or about one voice. -/
inductive VoiceCall where
  /-- A note begins or ends, or all of them end. -/
  | note (call : NoteCall)
  /-- The voice of a place is started, whatever it is doing. -/
  | allocate (index : ℕ) (pitch : UInt8)
  /-- The gate of the voice of a place is closed. -/
  | release (index : ℕ)
  deriving DecidableEq, Repr

/-! ### Ranks -/

/-- The rank, counted from one, of the last allocation that took a place; zero if none did. -/
def lastRank (taken : List ℕ) (place : ℕ) : ℕ := taken.length - taken.reverse.idxOf place

example : [0, 1, 2, 3].map (lastRank [2, 0, 2, 1]) = [2, 4, 3, 0] := by decide

section lastRank

variable {taken : List ℕ} {place other : ℕ}

theorem lastRank_le_length : lastRank taken place ≤ taken.length := Nat.sub_le _ _

theorem lastRank_append_self : lastRank (taken ++ [place]) place = taken.length + 1 := by
  simp [lastRank]

theorem lastRank_append_of_ne (h : other ≠ place) :
    lastRank (taken ++ [other]) place = lastRank taken place := by
  simp [lastRank, h]

theorem lastRank_pos_iff : 0 < lastRank taken place ↔ place ∈ taken := by
  rw [lastRank, Nat.sub_pos_iff_lt, ← List.length_reverse, List.idxOf_lt_length_iff,
    List.mem_reverse]

/-- A rank belongs to the place that was taken then. -/
theorem getElem?_lastRank (h : place ∈ taken) : taken[lastRank taken place - 1]? = some place := by
  have hmem : place ∈ taken.reverse := List.mem_reverse.mpr h
  have hlt : taken.reverse.idxOf place < taken.length := by
    simpa using List.idxOf_lt_length_iff.mpr hmem
  rw [lastRank, Nat.sub_right_comm, ← List.getElem?_reverse hlt, List.getElem?_idxOf hmem]

/-- Only places that were never taken share a rank. -/
theorem eq_of_lastRank_eq (hpos : 0 < lastRank taken place)
    (h : lastRank taken place = lastRank taken other) : place = other := by
  have hplace := getElem?_lastRank (lastRank_pos_iff.mp hpos)
  have hother := getElem?_lastRank (lastRank_pos_iff.mp (h ▸ hpos))
  rw [h] at hplace
  exact Option.some.inj (hplace.symm.trans hother)

end lastRank

namespace Voice

theorem isFree_iff {v : Voice} : v.isFree = true ↔ v.state = .free := beq_iff_eq

theorem isReleasing_iff {v : Voice} : v.isReleasing = true ↔ v.state = .releasing := beq_iff_eq

theorem pitch?_eq_some_iff {v : Voice} {pitch : UInt8} :
    v.pitch? = some pitch ↔ v.state = .active pitch := by
  obtain ⟨_ | _ | _, _, _⟩ := v <;> simp [pitch?]

end Voice

namespace VoiceTable

/-! ### Calls and their history -/

/-- The table after a call. A call that finds no voice is lost. -/
def perform (t : VoiceTable) : VoiceCall → VoiceTable
  | .note call => t.act call
  | .allocate index pitch => ((t.allocate? index pitch).map (·.2)).getD t
  | .release index => (t.release index).2

/-- The place that a call takes, if it is a successful allocation. -/
def takes? (t : VoiceTable) : VoiceCall → Option ℕ
  | .note (.noteOn pitch) => (t.noteOn? pitch).map (·.1.index)
  | .allocate index pitch => (t.allocate? index pitch).map fun _ => index
  | _ => none

/-- The table after a number of calls. -/
def performAll (t : VoiceTable) (calls : List VoiceCall) : VoiceTable := calls.foldl perform t

/-- The places that a number of calls take, one after the other. -/
def takenBy (t : VoiceTable) : List VoiceCall → List ℕ
  | [] => []
  | call :: calls => (t.takes? call).toList ++ (t.perform call).takenBy calls

/-- The voice for a new note, read off the places that were taken: the first that is free, else of
those that release the one that was taken longest ago, else of all, which are active, the one that
was taken longest ago. A place that was never taken comes before all that were; of several such
places the first one is picked. -/
inductive Picks (t : VoiceTable) (taken : List ℕ) : VoiceChoice → Prop where
  | free {place : ℕ} {voice : Voice} (hvoice : t.voices[place]? = some voice)
      (hstate : voice.state = .free)
      (hfirst : ∀ earlier < place, ∀ other, t.voices[earlier]? = some other →
        other.state ≠ .free) :
      t.Picks taken (.free place)
  | stolenReleasing {place : ℕ} {voice : Voice} (hvoice : t.voices[place]? = some voice)
      (hstate : voice.state = .releasing) (hnone : ∀ other ∈ t.voices, other.state ≠ .free)
      (holdest : ∀ place' other, t.voices[place']? = some other → other.state = .releasing →
        place' ≠ place → lastRank taken place < lastRank taken place' ∨
          place ∉ taken ∧ place' ∉ taken ∧ place < place') :
      t.Picks taken (.stolenReleasing place)
  | stolenActive {place : ℕ} (hvoice : place < t.voices.length)
      (hall : ∀ other ∈ t.voices, ∃ pitch, other.state = .active pitch)
      (holdest : ∀ place' < t.voices.length, place' ≠ place →
        lastRank taken place < lastRank taken place') :
      t.Picks taken (.stolenActive place)

variable {t : VoiceTable} {taken : List ℕ} {voice other : Voice} {index place : ℕ} {pitch : UInt8}

/-- A history does not pick two voices. -/
theorem Picks.unique {choice choice' : VoiceChoice} (h : t.Picks taken choice)
    (h' : t.Picks taken choice') : choice = choice' := by
  cases h with
  | free hvoice hstate hfirst =>
    cases h' with
    | free hvoice' hstate' hfirst' =>
      congr 1
      refine le_antisymm (not_lt.mp fun hlt => ?_) (not_lt.mp fun hlt => ?_)
      · exact hfirst _ hlt _ hvoice' hstate'
      · exact hfirst' _ hlt _ hvoice hstate
    | stolenReleasing _ _ hnone => exact absurd hstate (hnone _ (List.mem_of_getElem? hvoice))
    | stolenActive _ hall =>
      obtain ⟨pitch, hactive⟩ := hall _ (List.mem_of_getElem? hvoice)
      exact absurd (hstate.symm.trans hactive) nofun
  | stolenReleasing hvoice hstate hnone holdest =>
    cases h' with
    | free hvoice' hstate' => exact absurd hstate' (hnone _ (List.mem_of_getElem? hvoice'))
    | stolenReleasing hvoice' hstate' _ holdest' =>
      congr 1
      by_contra hne
      have hbefore := holdest _ _ hvoice' hstate' (Ne.symm hne)
      have hbefore' := holdest' _ _ hvoice hstate hne
      rw [← lastRank_pos_iff, ← lastRank_pos_iff] at hbefore hbefore'
      omega
    | stolenActive _ hall =>
      obtain ⟨pitch, hactive⟩ := hall _ (List.mem_of_getElem? hvoice)
      exact absurd (hstate.symm.trans hactive) nofun
  | stolenActive hvoice hall holdest =>
    cases h' with
    | free hvoice' hstate' =>
      obtain ⟨pitch, hactive⟩ := hall _ (List.mem_of_getElem? hvoice')
      exact absurd (hstate'.symm.trans hactive) nofun
    | stolenReleasing hvoice' hstate' =>
      obtain ⟨pitch, hactive⟩ := hall _ (List.mem_of_getElem? hvoice')
      exact absurd (hstate'.symm.trans hactive) nofun
    | stolenActive hvoice' _ holdest' =>
      congr 1
      by_contra hne
      exact (holdest _ hvoice' (Ne.symm hne)).asymm (holdest' _ hvoice hne)

/-! ### Ties -/

/-- What is found comes first in the order of stamps and, of equal stamps, of places. -/
theorem oldestFrom_first {test : Voice → Bool} {voices : List Voice} {found : ℕ × ℕ}
    (h : oldestFrom test index voices = some found) (hother : voices[place]? = some other)
    (hpasses : test other = true) :
    found.1 < other.sequence ∨ found.1 = other.sequence ∧ found.2 ≤ index + place := by
  induction voices generalizing index found place with
  | nil => cases hother
  | cons first rest ih =>
    rw [oldestFrom] at h
    cases place with
    | zero =>
      obtain rfl := Option.some.inj hother
      split at h
      · next htest => exact absurd hpasses (by simp [htest])
      · obtain rfl := Option.some.inj h
        exact .inr ⟨rfl, le_rfl⟩
      · split_ifs at h with hlt
        · obtain rfl := Option.some.inj h
          exact .inl hlt
        · obtain rfl := Option.some.inj h
          exact .inr ⟨rfl, le_rfl⟩
    | succ place =>
      rw [List.getElem?_cons_succ] at hother
      split at h
      · have hrest := ih h hother
        omega
      · next hnone =>
        exact absurd hpasses (oldestFrom_eq_none hnone other (List.mem_of_getElem? hother))
      · next hsome =>
        have hrest := ih hsome hother
        split_ifs at h with hlt
        · obtain rfl := Option.some.inj h
          omega
        · obtain rfl := Option.some.inj h
          omega

/-- The oldest voice, and what it means for the other voices that pass the test. -/
theorem oldest?_first {test : Voice → Bool} (h : t.oldest? test = some place) :
    ∃ voice, t.voices[place]? = some voice ∧ test voice = true ∧
      ∀ place' other, t.voices[place']? = some other → test other = true →
        voice.sequence < other.sequence ∨
          voice.sequence = other.sequence ∧ place ≤ place' := by
  obtain ⟨_, hfound, rfl⟩ := Option.map_eq_some_iff.mp h
  obtain ⟨place, voice, rfl, hvoice, hpasses, -⟩ := oldestFrom_eq_some hfound
  refine ⟨voice, (Nat.zero_add place).symm ▸ hvoice, hpasses, fun place' other hother hother' => ?_⟩
  simpa using oldestFrom_first hfound hother hother'

/-! ### Agreement of a table with a history -/

/-- A table of some instances agrees with a history: with the places that were taken, and with
whether the notes were all ended at some time. -/
structure Recalls (t : VoiceTable) (regions : List InstanceRegion) (taken : List ℕ)
    (silenced : Prop) : Prop where
  regions_eq : t.voices.map (·.region) = regions
  clock_eq : t.clock = taken.length
  sequence_eq : ∀ {place voice}, t.voices[place]? = some voice →
    voice.sequence = lastRank taken place
  free_iff : ∀ {place voice}, t.voices[place]? = some voice →
    (voice.state = .free ↔ place ∉ taken ∧ ¬silenced)
  mem_of_active : ∀ {place voice pitch}, t.voices[place]? = some voice →
    voice.state = .active pitch → place ∈ taken

/-- A new table has no history. -/
theorem recalls_ofRegions (regions : List InstanceRegion) :
    (ofRegions regions).Recalls regions [] False := by
  have hfresh : ∀ {place : ℕ} {voice : Voice}, (ofRegions regions).voices[place]? = some voice →
      ∃ region, Voice.fresh region = voice := by
    intro place voice hvoice
    rw [ofRegions, List.getElem?_map] at hvoice
    obtain ⟨region, -, hregion⟩ := Option.map_eq_some_iff.mp hvoice
    exact ⟨region, hregion⟩
  refine ⟨?_, rfl, fun hvoice => ?_, fun hvoice => ?_, fun hvoice hactive => ?_⟩
  · rw [ofRegions, List.map_map]
    exact List.map_id _
  all_goals obtain ⟨region, rfl⟩ := hfresh hvoice
  · rfl
  · simp [Voice.fresh]
  · cases hactive

namespace Recalls

variable {regions : List InstanceRegion} {silenced : Prop}

theorem length_voices (h : t.Recalls regions taken silenced) :
    t.voices.length = regions.length := by
  rw [← h.regions_eq, List.length_map]

/-- An allocation adds a place to the history. -/
theorem start (h : t.Recalls regions taken silenced) (pitch : UInt8) :
    (⟨t.voices.modify index (·.start pitch (t.clock + 1)), t.clock + 1⟩ : VoiceTable).Recalls
      regions (taken ++ [index]) silenced := by
  refine ⟨(map_region_modify _ fun _ => by rfl).trans h.regions_eq, ?_, fun hvoice => ?_,
    fun hvoice => ?_, fun hvoice hactive => ?_⟩
  · rw [List.length_append, h.clock_eq]
    rfl
  all_goals rcases getElem?_modify_cases hvoice with ⟨rfl, old, -, rfl⟩ | ⟨hne, hvoice⟩
  · rw [lastRank_append_self, Voice.start, h.clock_eq]
  · rw [lastRank_append_of_ne (Ne.symm hne), h.sequence_eq hvoice]
  · simp [Voice.start]
  · simp [h.free_iff hvoice, hne]
  · simp
  · exact List.mem_append_left _ (h.mem_of_active hvoice hactive)

/-- A voice that is closed was active, and so it was allocated before. -/
theorem close (h : t.Recalls regions taken silenced) (hvoice : t.voices[index]? = some voice)
    (hpitch : voice.pitch? = some pitch) :
    ({ t with voices := t.voices.modify index Voice.close } : VoiceTable).Recalls
      regions taken silenced := by
  have htaken := h.mem_of_active hvoice (Voice.pitch?_eq_some_iff.mp hpitch)
  refine ⟨(map_region_modify _ fun _ => by rfl).trans h.regions_eq, h.clock_eq, fun hplace => ?_,
    fun hplace => ?_, fun hplace hactive => ?_⟩
  all_goals rcases getElem?_modify_cases hplace with ⟨rfl, old, hold, rfl⟩ | ⟨hne, hplace⟩
  · exact (h.sequence_eq hold :)
  · exact h.sequence_eq hplace
  · simp [Voice.close, htaken]
  · exact h.free_iff hplace
  · cases hactive
  · exact h.mem_of_active hplace hactive

theorem release (h : t.Recalls regions taken silenced) (index : ℕ) :
    (t.release index).2.Recalls regions taken silenced := by
  rw [VoiceTable.release]
  split
  · next pitch hholds =>
    obtain ⟨voice, hvoice, hpitch⟩ := Option.bind_eq_some_iff.mp hholds
    exact h.close hvoice hpitch
  · exact h

theorem noteOff (h : t.Recalls regions taken silenced) (pitch : UInt8) :
    (t.noteOff pitch).2.Recalls regions taken silenced := by
  rw [VoiceTable.noteOff]
  split
  · exact h.release _
  · exact h

/-- After all notes have ended no voice is free. -/
theorem allNotesOff (h : t.Recalls regions taken silenced) :
    t.allNotesOff.Recalls regions taken True := by
  have hclosed : ∀ {place : ℕ} {voice : Voice}, t.allNotesOff.voices[place]? = some voice →
      ∃ old, t.voices[place]? = some old ∧ old.close = voice := fun hvoice => by
    rwa [VoiceTable.allNotesOff, List.getElem?_map, Option.map_eq_some_iff] at hvoice
  refine ⟨?_, h.clock_eq, fun hvoice => ?_, fun hvoice => ?_, fun hvoice hactive => ?_⟩
  · rw [VoiceTable.allNotesOff, List.map_map]
    exact h.regions_eq
  all_goals obtain ⟨old, hold, rfl⟩ := hclosed hvoice
  · exact (h.sequence_eq hold :)
  · simp [Voice.close]
  · cases hactive

/-- One call: the table goes on to agree with the history, to which the call may add a place. -/
theorem perform (h : t.Recalls regions taken silenced) (call : VoiceCall) :
    (t.perform call).Recalls regions (taken ++ (t.takes? call).toList)
      (silenced ∨ call = .note .allNotesOff) := by
  -- Only one call ends all notes; the others leave that part of the history as it is.
  cases call with
  | note call =>
    cases call with
    | noteOn pitch =>
      by_cases hvoices : t.voices = []
      · have hnote : t.noteOn? pitch = none := by
          simp [noteOn?, choose?, oldest?, oldestFrom, hvoices]
        simpa [VoiceTable.perform, act, takes?, hnote] using h
      · obtain ⟨choice, voice, -, -, hnote⟩ := noteOn?_of_voices hvoices pitch
        simpa [VoiceTable.perform, act, takes?, hnote] using h.start pitch
    | noteOff pitch => simpa [VoiceTable.perform, act, takes?] using h.noteOff pitch
    | allNotesOff => simpa [VoiceTable.perform, act, takes?] using h.allNotesOff
  | allocate index pitch =>
    cases hvoice : t.voices[index]? with
    | none => simpa [VoiceTable.perform, takes?, allocate?, hvoice] using h
    | some voice => simpa [VoiceTable.perform, takes?, allocate?, hvoice] using h.start pitch
  | release index => simpa [VoiceTable.perform, takes?] using h.release index

/-- Any number of calls. -/
theorem performAll (h : t.Recalls regions taken silenced) (calls : List VoiceCall) :
    (t.performAll calls).Recalls regions (taken ++ t.takenBy calls)
      (silenced ∨ .note .allNotesOff ∈ calls) := by
  induction calls generalizing t taken silenced with
  | nil => simpa [VoiceTable.performAll, takenBy] using h
  | cons call calls ih =>
    have hrest := ih (h.perform call)
    rw [List.append_assoc] at hrest
    simpa [VoiceTable.performAll, takenBy, or_assoc, eq_comm] using hrest

/-- Stamps that are not zero are all different. -/
theorem place_eq_of_sequence_eq (h : t.Recalls regions taken silenced) {place' : ℕ}
    (hvoice : t.voices[place]? = some voice) (hother : t.voices[place']? = some other)
    (hpos : 0 < voice.sequence) (hsequence : voice.sequence = other.sequence) :
    place = place' := by
  rw [h.sequence_eq hvoice] at hpos hsequence
  exact eq_of_lastRank_eq hpos (hsequence.trans (h.sequence_eq hother))

/-- The oldest voice in terms of ranks: only places that were never taken tie. -/
theorem rank_of_oldest? (h : t.Recalls regions taken silenced) {test : Voice → Bool}
    (holdest : t.oldest? test = some place) :
    ∃ voice, t.voices[place]? = some voice ∧ test voice = true ∧
      ∀ place' other, t.voices[place']? = some other → test other = true → place' ≠ place →
        lastRank taken place < lastRank taken place' ∨
          place ∉ taken ∧ place' ∉ taken ∧ place < place' := by
  obtain ⟨voice, hvoice, hpasses, hfirst⟩ := oldest?_first holdest
  refine ⟨voice, hvoice, hpasses, fun place' other hother hother' hne => ?_⟩
  have hbefore := hfirst place' other hother hother'
  rw [h.sequence_eq hvoice, h.sequence_eq hother] at hbefore
  rcases hbefore with hlt | ⟨heq, hle⟩
  · exact .inl hlt
  · have hzero : ¬0 < lastRank taken place := fun hpos => hne (eq_of_lastRank_eq hpos heq).symm
    have hzero' : ¬0 < lastRank taken place' := heq ▸ hzero
    rw [lastRank_pos_iff] at hzero hzero'
    exact .inr ⟨hzero, hzero', lt_of_le_of_ne hle (Ne.symm hne)⟩

/-- The voice that a table chooses is picked by the history. -/
theorem picks_of_choose? (h : t.Recalls regions taken silenced) {choice : VoiceChoice}
    (hchoose : t.choose? = some choice) : t.Picks taken choice := by
  unfold choose? at hchoose
  split at hchoose
  · next place hfree =>
    obtain rfl := Option.some.inj hchoose
    obtain ⟨hlt, hpasses, hfirst⟩ := List.findIdx?_eq_some_iff_getElem.mp hfree
    refine .free (List.getElem?_eq_getElem hlt) (Voice.isFree_iff.mp hpasses) ?_
    intro earlier hearlier other hother hstate
    obtain ⟨_, rfl⟩ := List.getElem?_eq_some_iff.mp hother
    exact hfirst earlier hearlier (Voice.isFree_iff.mpr hstate)
  · next hfree =>
    have hnone : ∀ other ∈ t.voices, other.state ≠ .free := fun other hother hstate => by
      have hfails := List.findIdx?_eq_none_iff.mp hfree other hother
      rw [Voice.isFree_iff.mpr hstate] at hfails
      cases hfails
    split at hchoose
    · next place hreleasing =>
      obtain rfl := Option.some.inj hchoose
      obtain ⟨voice, hvoice, hpasses, holdest⟩ := h.rank_of_oldest? hreleasing
      refine .stolenReleasing hvoice (Voice.isReleasing_iff.mp hpasses) hnone ?_
      intro place' other hother hstate
      exact holdest place' other hother (Voice.isReleasing_iff.mpr hstate)
    · next hreleasing =>
      have hall : ∀ other ∈ t.voices, ∃ pitch, other.state = .active pitch := by
        intro other hother
        rcases hstate : other.state with _ | pitch | _
        · exact absurd hstate (hnone other hother)
        · exact ⟨pitch, rfl⟩
        · have hfails := oldest?_eq_none hreleasing other hother
          exact absurd (Voice.isReleasing_iff.mpr hstate) hfails
      obtain ⟨place, hactive, rfl⟩ := Option.map_eq_some_iff.mp hchoose
      obtain ⟨voice, hvoice, -, holdest⟩ := h.rank_of_oldest? hactive
      obtain ⟨hlt, -⟩ := List.getElem?_eq_some_iff.mp hvoice
      refine .stolenActive hlt hall fun place' hlt' hne => ?_
      have hother := List.getElem?_eq_getElem hlt'
      obtain ⟨pitch, hstate⟩ := hall _ (List.getElem_mem hlt')
      have hpasses := Voice.pitch?_eq_some_iff.mpr hstate
      -- Active voices were all taken, so none of them ties.
      rcases holdest place' _ hother (by rw [hpasses]; rfl) hne with hbefore | ⟨-, hmissing, -⟩
      · exact hbefore
      · exact absurd (h.mem_of_active hother hstate) hmissing

/-- Without voices, and only then, there is no choice. -/
theorem choose?_eq_none_iff (h : t.Recalls regions taken silenced) :
    t.choose? = none ↔ regions = [] := by
  rw [← List.length_eq_zero_iff, ← h.length_voices, List.length_eq_zero_iff]
  constructor
  · intro hnone
    by_contra hvoices
    obtain ⟨choice, -, hchoose, -⟩ := choose?_eq_some hvoices
    rw [hnone] at hchoose
    cases hchoose
  · intro hvoices
    simp [choose?, oldest?, oldestFrom, hvoices]

/-- A table that agrees with a history chooses the voice that the history picks. -/
theorem choose?_eq_some_iff (h : t.Recalls regions taken silenced) {choice : VoiceChoice} :
    t.choose? = some choice ↔ t.Picks taken choice := by
  refine ⟨h.picks_of_choose?, fun hpicks => ?_⟩
  cases hchoose : t.choose? with
  | none =>
    have hvoices : t.voices = [] := by
      rw [← List.length_eq_zero_iff, h.length_voices, h.choose?_eq_none_iff.mp hchoose]
      rfl
    cases hpicks with
    | free hvoice => simp [hvoices] at hvoice
    | stolenReleasing hvoice => simp [hvoices] at hvoice
    | stolenActive hvoice => simp [hvoices] at hvoice
  | some chosen => rw [(h.picks_of_choose? hchoose).unique hpicks]

end Recalls

/-- The choice of a voice follows the history of allocations. After any calls to a table of any
instances, with any arguments, every voice has its instance; its stamp is the rank of the last
allocation that took its place, so that no two stamps are equal unless they are zero; it is free
exactly if it was never allocated and the notes were never all ended; and the voice for a new note
is the one that the history picks, where there is none only if there are no voices. The clock counts
the allocations and no stamp is ahead of it, so all of them fit a word of the machine as long as the
number of allocations does. -/
theorem picks_of_history (regions : List InstanceRegion) (calls : List VoiceCall) :
    ((ofRegions regions).performAll calls).voices.map (·.region) = regions ∧
      ((ofRegions regions).performAll calls).clock = ((ofRegions regions).takenBy calls).length ∧
      (∀ (place : ℕ) (voice : Voice),
        ((ofRegions regions).performAll calls).voices[place]? = some voice →
        voice.sequence = lastRank ((ofRegions regions).takenBy calls) place ∧
          voice.sequence ≤ ((ofRegions regions).performAll calls).clock ∧
          (voice.state = .free ↔
            place ∉ (ofRegions regions).takenBy calls ∧ .note .allNotesOff ∉ calls)) ∧
      (∀ (place place' : ℕ) (voice voice' : Voice),
        ((ofRegions regions).performAll calls).voices[place]? = some voice →
        ((ofRegions regions).performAll calls).voices[place']? = some voice' →
        0 < voice.sequence → voice.sequence = voice'.sequence → place = place') ∧
      (∀ choice, ((ofRegions regions).performAll calls).choose? = some choice ↔
        ((ofRegions regions).performAll calls).Picks ((ofRegions regions).takenBy calls) choice) ∧
      (((ofRegions regions).performAll calls).choose? = none ↔ regions = []) := by
  have hrecalls := (recalls_ofRegions regions).performAll calls
  rw [List.nil_append, false_or] at hrecalls
  refine ⟨hrecalls.regions_eq, hrecalls.clock_eq, fun place voice hvoice => ⟨?_, ?_, ?_⟩,
    fun place place' voice voice' hvoice hvoice' hpos hsequence => ?_,
    fun choice => hrecalls.choose?_eq_some_iff, hrecalls.choose?_eq_none_iff⟩
  · exact hrecalls.sequence_eq hvoice
  · rw [hrecalls.sequence_eq hvoice, hrecalls.clock_eq]
    exact lastRank_le_length
  · exact hrecalls.free_iff hvoice
  · exact hrecalls.place_eq_of_sequence_eq hvoice hvoice' hpos hsequence

/-- Voices that release without ever having been allocated tie, and come before one that was. -/
example :
    ((ofRegions [⟨0, 64⟩, ⟨64, 64⟩, ⟨128, 64⟩]).performAll
      [.note (.noteOn 60), .note .allNotesOff, .release 5, .allocate 1 62, .release 1,
        .allocate 9 64]).choose? = some (.stolenReleasing 2) := by decide

end VoiceTable

end DspHost
