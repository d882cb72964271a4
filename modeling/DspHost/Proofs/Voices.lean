import DspHost.Proofs.Memory.Placement
import DspHost.Voices

/-!
# What happens to voices

A note that begins starts one voice, whatever it was doing; a note that ends closes one voice that
holds its pitch, if there is one. The instances of the voices are never exchanged.

## Main definitions

* `VoiceTable.Seated` — the voices have the instances of a plan, in order

## Main results

* `VoiceTable.noteOn?_eq_some`, `VoiceTable.noteOff_eq_some` — which voice is changed, and how
* `VoiceTable.Seated.modify` — voices keep their instances
-/

namespace DspHost

namespace VoiceTable

variable {t : VoiceTable} {voice : Voice} {index : ℕ} {pitch : UInt8}

/-! ### Finding a voice -/

/-- If no voice is found, none passes the test. -/
theorem oldestFrom_eq_none {test : Voice → Bool} {voices : List Voice}
    (h : oldestFrom test index voices = none) : ∀ voice ∈ voices, ¬test voice = true := by
  induction voices generalizing index with
  | nil => simp
  | cons first rest ih =>
    rw [oldestFrom] at h
    split at h
    · next htest => exact List.forall_mem_cons.mpr ⟨by simp [htest], ih h⟩
    · cases h
    · split_ifs at h

/-- The voice that is found passes the test, and none that does was allocated before it. -/
theorem oldestFrom_eq_some {test : Voice → Bool} {voices : List Voice} {found : ℕ × ℕ}
    (h : oldestFrom test index voices = some found) :
    ∃ place voice, found = (voice.sequence, index + place) ∧ voices[place]? = some voice ∧
      test voice = true ∧
        ∀ other ∈ voices, test other = true → voice.sequence ≤ other.sequence := by
  induction voices generalizing index found with
  | nil => cases h
  | cons first rest ih =>
    rw [oldestFrom] at h
    -- The search either goes on behind the first voice or settles for it.
    split at h
    · next htest =>
      obtain ⟨place, voice, rfl, hvoice, hpasses, hleast⟩ := ih h
      refine ⟨place + 1, voice, by rw [Nat.add_assoc, Nat.add_comm 1], hvoice, hpasses, ?_⟩
      exact List.forall_mem_cons.mpr ⟨by simp [htest], hleast⟩
    · next htest hnone =>
      refine ⟨0, first, (Option.some.inj h).symm, rfl, htest, ?_⟩
      refine List.forall_mem_cons.mpr ⟨fun _ => le_rfl, fun other hother hpasses => ?_⟩
      exact absurd hpasses (oldestFrom_eq_none hnone other hother)
    · next sequence place htest hrest =>
      obtain ⟨later, voice, hfound, hvoice, hpasses, hleast⟩ := ih hrest
      obtain ⟨rfl, rfl⟩ := Prod.mk.inj hfound
      split_ifs at h with hlt
      · obtain rfl := Option.some.inj h
        refine ⟨later + 1, voice, by rw [Nat.add_assoc, Nat.add_comm 1], hvoice, hpasses, ?_⟩
        exact List.forall_mem_cons.mpr ⟨fun _ => hlt.le, hleast⟩
      · refine ⟨0, first, (Option.some.inj h).symm, rfl, htest, ?_⟩
        refine List.forall_mem_cons.mpr ⟨fun _ => le_rfl, fun other hother hother' => ?_⟩
        exact (Nat.le_of_not_lt hlt).trans (hleast other hother hother')

theorem oldest?_eq_some {test : Voice → Bool} (h : t.oldest? test = some index) :
    ∃ voice, t.voices[index]? = some voice ∧ test voice = true ∧
      ∀ other ∈ t.voices, test other = true → voice.sequence ≤ other.sequence := by
  obtain ⟨_, hfound, rfl⟩ := Option.map_eq_some_iff.mp h
  obtain ⟨place, voice, rfl, hvoice, hspec⟩ := oldestFrom_eq_some hfound
  exact ⟨voice, (Nat.zero_add place).symm ▸ hvoice, hspec⟩

theorem oldest?_eq_none {test : Voice → Bool} (h : t.oldest? test = none) :
    ∀ voice ∈ t.voices, ¬test voice = true :=
  oldestFrom_eq_none (Option.map_eq_none_iff.mp h)

/-- A note starts one voice and leaves the others alone. -/
theorem noteOn?_eq_some {choice : VoiceChoice} {region : InstanceRegion} {t' : VoiceTable}
    (h : t.noteOn? pitch = some (choice, region, t')) :
    ∃ index voice, t.voices[index]? = some voice ∧ voice.region = region ∧
      t'.voices = t.voices.modify index (·.start pitch (t.clock + 1)) := by
  obtain ⟨_, -, h⟩ := Option.bind_eq_some_iff.mp h
  obtain ⟨_, hallocate, h⟩ := Option.bind_eq_some_iff.mp h
  obtain ⟨voice, hvoice, rfl⟩ := Option.map_eq_some_iff.mp hallocate
  obtain ⟨rfl, rfl, rfl⟩ : _ ∧ _ ∧ _ := by simpa using h
  exact ⟨_, voice, hvoice, rfl, rfl⟩

/-- A note that ends closes the oldest voice that holds its pitch. -/
theorem noteOff_of_playing (hplaying : t.playing? pitch = some index) :
    ∃ voice, t.voices[index]? = some voice ∧ voice.pitch? = some pitch ∧
      (∀ other ∈ t.voices, other.pitch? = some pitch → voice.sequence ≤ other.sequence) ∧
        t.noteOff pitch = (some index, { t with voices := t.voices.modify index Voice.close }) := by
  obtain ⟨voice, hvoice, hpasses, hleast⟩ := oldest?_eq_some hplaying
  have hpitch : voice.pitch? = some pitch := beq_iff_eq.mp hpasses
  refine ⟨voice, hvoice, hpitch, fun other hother hsame => ?_, ?_⟩
  · exact hleast other hother (beq_iff_eq.mpr hsame)
  · have hholds : t.voices[index]?.bind Voice.pitch? = some pitch := by
      rw [hvoice, Option.bind_some, hpitch]
    simp only [noteOff, hplaying, release, hholds]

/-- The end of a note that sounds closes one voice. -/
theorem noteOff_eq_some {t' : VoiceTable} (h : t.noteOff pitch = (some index, t')) :
    ∃ voice, t.voices[index]? = some voice ∧ t'.voices = t.voices.modify index Voice.close := by
  cases hplaying : t.playing? pitch with
  | none =>
    rw [noteOff, hplaying] at h
    cases h
  | some place =>
    obtain ⟨voice, hvoice, -, -, hnote⟩ := noteOff_of_playing hplaying
    obtain ⟨hplace, rfl⟩ := Prod.mk.inj (hnote.symm.trans h)
    obtain rfl := Option.some.inj hplace
    exact ⟨voice, hvoice, rfl⟩

theorem noteOff_eq_none {t' : VoiceTable} (h : t.noteOff pitch = (none, t')) : t' = t := by
  unfold noteOff at h
  split at h
  · cases h
  · exact (Prod.mk.inj h).2.symm

/-- A voice of a changed table was changed, or it was there before. -/
theorem getElem?_modify_cases {voices : List Voice} {change : Voice → Voice} {place : ℕ}
    (h : (voices.modify place change)[index]? = some voice) :
    (index = place ∧ ∃ old, voices[place]? = some old ∧ voice = change old) ∨
      (index ≠ place ∧ voices[index]? = some voice) := by
  rw [List.getElem?_modify] at h
  by_cases heq : place = index
  · subst heq
    obtain ⟨old, hold, hvoice⟩ := Option.map_eq_some_iff.mp h
    rw [if_pos rfl] at hvoice
    exact .inl ⟨rfl, old, hold, hvoice.symm⟩
  · obtain ⟨old, hold, hvoice⟩ := Option.map_eq_some_iff.mp h
    rw [if_neg heq] at hvoice
    exact .inr ⟨Ne.symm heq, hvoice ▸ hold⟩

/-! ### Instances -/

/-- A voice that is changed and keeps its instance leaves all instances in place. -/
theorem map_region_modify (voices : List Voice) {change : Voice → Voice}
    (hchange : ∀ voice, (change voice).region = voice.region) :
    (voices.modify index change).map (·.region) = voices.map (·.region) := by
  refine List.ext_getElem? fun place => ?_
  rw [List.getElem?_map, List.getElem?_map, List.getElem?_modify]
  by_cases h : index = place
  · simp [h, Function.comp_def, hchange]
  · simp [h]

/-- The voices have the instances of a plan, in order. -/
def Seated (t : VoiceTable) (p : MemoryPlan) : Prop := t.voices.map (·.region) = p.voiceInstances

namespace Seated

variable {p : MemoryPlan}

theorem region_eq (h : t.Seated p) (hvoice : t.voices[index]? = some voice) :
    p.voiceInstance? index = some voice.region := by
  rw [← p.getElem?_voiceInstances, ← h, List.getElem?_map, hvoice, Option.map_some]

theorem length_eq (h : t.Seated p) : t.voices.length = p.instanceCount := by
  have hlength := congrArg List.length h
  rwa [List.length_map, p.length_voiceInstances] at hlength

/-- Voices keep their instances. -/
theorem modify (h : t.Seated p) {t' : VoiceTable} {change : Voice → Voice}
    (ht' : t'.voices = t.voices.modify index change)
    (hchange : ∀ voice, (change voice).region = voice.region) : t'.Seated p := by
  rw [Seated, ht']
  exact (map_region_modify t.voices hchange).trans h

theorem allNotesOff (h : t.Seated p) : t.allNotesOff.Seated p := by
  refine Eq.trans ?_ h
  rw [VoiceTable.allNotesOff, List.map_map]
  rfl

end Seated

/-- A new table has the instances of its plan. -/
theorem seated_ofPlan? {p : MemoryPlan} (h : ofPlan? p = some t) : t.Seated p := by
  unfold ofPlan? at h
  split_ifs at h
  obtain rfl := Option.some.inj h
  rw [Seated, ofRegions, List.map_map]
  exact List.map_id _

end VoiceTable

end DspHost
