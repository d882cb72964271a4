import DspHost.Engine.Apply
import DspHost.Proofs.Control.Bindings
import DspHost.Proofs.Control.Routing
import DspHost.Proofs.Engine.Rendering
import DspHost.Proofs.Voices

/-!
# What notes do to a processor

A processor whose code minds its fields can always go on: no command makes it stop with a fault. A
note changes voices and what notes drive, and the code that clears a voice leaves the fields alone
that it minds. So a field that no key overlaps has the same value before and after a note.

## Main definitions

* `Processor.Ready` — a processor that can go on
* `Router.startKeys`, `Router.closeGates` — what a note writes
* `Processor.Played` — what notes can do to a processor

## Main results

* `Processor.Ready.noteOn_eq`, `Processor.noteOff_eq`, `Processor.allNotesOff_eq` — the processor
  after a note
* `Processor.Ready.played_noteOn`, `Processor.Ready.played_noteOff`,
  `Processor.Ready.played_allNotesOff` — notes keep the fields that no key overlaps
-/

namespace DspHost

/-! ### What notes write -/

namespace Router

/-- Writes the frequency and the gain of a note and opens the gate. -/
def startKeys (r : Router) (region : InstanceRegion) (pitch velocity : UInt8) (a : Arena) : Arena :=
  r.setKey region .gate .one
    (r.setKey region .gain (velocityGain velocity)
      (r.setKey region .freq (noteFrequency pitch) a))

/-- Closes the gates of several voices. -/
def closeGates (r : Router) (voices : List Voice) (a : Arena) : Arena :=
  voices.foldl (fun a voice => r.setKey voice.region .gate .zero a) a

/-- No control that notes drive has a byte in common with a field. -/
def MissedByNotes (r : Router) (scope : Scope) (index : ℕ) : Prop :=
  scope = .voice → ∀ key id b, r.table.keys.get? key = some id → r.table.get? id = some b →
    b.index + 4 ≤ index ∨ index + 4 ≤ b.index

variable {r : Router} {scope : Scope} {region other : InstanceRegion} {index : ℕ} {a : Arena}

theorem changedWithin_startKeys (r : Router) (region : InstanceRegion) (pitch velocity : UInt8)
    (a : Arena) : Arena.ChangedWithin region.footprint a (r.startKeys region pitch velocity a) :=
  ((r.changedWithin_setKey region _ _ _).trans (r.changedWithin_setKey region _ _ _)).trans
    (r.changedWithin_setKey region _ _ _)

theorem changedWithin_closeGates {voices : List Voice}
    (hvoices : ∀ voice ∈ voices, voice.region ∈ r.regions .voice) (a : Arena) :
    Arena.ChangedWithin (r.plan.area RegionKind.instances) a (r.closeGates voices a) := by
  unfold closeGates
  induction voices generalizing a with
  | nil => exact .refl _ a
  | cons voice rest ih =>
    have hvoice := footprint_subset (hvoices voice List.mem_cons_self)
    refine ((r.changedWithin_setKey voice.region _ _ a).mono hvoice).trans (ih ?_ _)
    exact fun other hother => hvoices other (List.mem_cons_of_mem voice hother)

theorem readField?_setKey_of_missed (hwell : r.plan.WellFormed) (hother : other ∈ r.regions .voice)
    (hregion : region ∈ r.regions scope) (hfits : index + 4 ≤ region.size)
    (hmiss : r.MissedByNotes scope index) (key : VoiceKey) (value : Single) (a : Arena) :
    (r.setKey other key value a).readField? region index = a.readField? region index :=
  readField?_setKey_of_ne hwell hother hregion hfits fun _ hscope id b hid hb =>
    hmiss hscope key id b hid hb

theorem readField?_closeGates_of_missed (hwell : r.plan.WellFormed) {voices : List Voice}
    (hvoices : ∀ voice ∈ voices, voice.region ∈ r.regions .voice)
    (hregion : region ∈ r.regions scope) (hfits : index + 4 ≤ region.size)
    (hmiss : r.MissedByNotes scope index) (a : Arena) :
    (r.closeGates voices a).readField? region index = a.readField? region index := by
  unfold closeGates
  induction voices generalizing a with
  | nil => rfl
  | cons voice rest ih =>
    refine (ih (fun x hx => hvoices x (List.mem_cons_of_mem voice hx)) _).trans ?_
    exact readField?_setKey_of_missed hwell (hvoices voice List.mem_cons_self) hregion hfits hmiss
      _ _ a

end Router

namespace Processor

variable {p p' : Processor} {rate : ℕ} {fields : Scope → List (ℕ × Single)}

theorem writeKey_eq (p : Processor) (region : InstanceRegion) (key : VoiceKey) (value : Single) :
    p.writeKey region key value = p.mapArena (p.router.setKey region key value) := by
  have hkeys : p.router.table.keys = p.table.keys := rfl
  unfold writeKey
  split
  · next id hid =>
    refine congrArg p.mapArena (funext fun a => ?_)
    rw [Router.setKey, hkeys, hid]
  · next hnone =>
    have hkept : p.router.setKey region key value = fun a => a := by
      funext a
      rw [Router.setKey, hkeys, hnone]
    rw [hkept]
    rfl

theorem startVoice_eq (p : Processor) (region : InstanceRegion) (pitch velocity : UInt8) :
    p.startVoice region pitch velocity =
      p.mapArena (p.router.startKeys region pitch velocity) := by
  simp only [startVoice, writeKey_eq]
  rfl

theorem foldl_writeKey_eq (p : Processor) (voices : List Voice) :
    voices.foldl (fun p voice => p.writeKey voice.region .gate .zero) p =
      p.mapArena (p.router.closeGates voices) := by
  induction voices generalizing p with
  | nil => rfl
  | cons voice rest ih =>
    rw [List.foldl_cons, ih, writeKey_eq]
    rfl

/-! ### Processors that can go on -/

/-- A processor that can go on: everything is where it was planned, and the code minds its
fields. -/
structure Ready (p : Processor) (rate : ℕ) (fields : Scope → List (ℕ × Single)) : Prop where
  wellFormed : p.plan.WellFormed
  indexed : p.table.Indexed
  minds : p.Minds rate fields
  hosts : p.plan.Hosts p.arena
  seated : ∀ t, p.voices = some t → t.Seated p.plan

/-- Writes inside instances keep an arena hosted. -/
theorem hosts_of_changedWithin_instances {plan : MemoryPlan} {a b : Arena}
    (hwell : plan.WellFormed) (ha : plan.Hosts a)
    (hchange : Arena.ChangedWithin (plan.area RegionKind.instances) a b) : plan.Hosts b :=
  ha.of_changedWithin hwell hchange (hwell.disjoint_area RegionKind.disjoint_tables_instances)

/-- The field of an instance that module code minds and that lies inside it. -/
structure Keeps (p : Processor) (fields : Scope → List (ℕ × Single)) (scope : Scope)
    (region : InstanceRegion) (index : ℕ) : Prop where
  mem : region ∈ p.router.regions scope
  fits : index + 4 ≤ region.size
  minded : ∃ value, (index, value) ∈ fields scope

namespace Ready

variable {scope : Scope} {region : InstanceRegion} {index : ℕ}

/-- Module code keeps the fields that it minds. -/
theorem readField?_of_reserved {a b : Arena} (hfield : p.Keeps fields scope region index)
    (hchange : Arena.ChangedWithin (p.router.reserved fields)ᶜ a b) :
    b.readField? region index = a.readField? region index := by
  refine hchange.readField?_eq (Set.disjoint_compl_right_iff_subset.mpr fun i hi => .inr ?_)
  obtain ⟨value, hminded⟩ := hfield.minded
  exact ⟨scope, region, hfield.mem, region.fieldSpan_subset hfield.fits hi, _, hminded, hi⟩

/-- Module code keeps an arena hosted. -/
theorem hosts_of_reserved (h : p.Ready rate fields) {a b : Arena} (ha : p.plan.Hosts a)
    (hchange : Arena.ChangedWithin (p.router.reserved fields)ᶜ a b) : p.plan.Hosts b :=
  ha.of_changedWithin h.wellFormed hchange (p.router.disjoint_tables_reserved_compl fields)

theorem region_mem (h : p.Ready rate fields) {t : VoiceTable} (ht : p.voices = some t)
    {place : ℕ} {voice : Voice} (hvoice : t.voices[place]? = some voice) :
    voice.region ∈ p.router.regions .voice :=
  Router.mem_regions_voice.mpr ⟨place, (h.seated t ht).region_eq hvoice⟩

end Ready

/-! ### Notes -/

section Notes

variable {t t' : VoiceTable} {choice : VoiceChoice} {region : InstanceRegion} {cleared : Arena}
  {place : ℕ} {voice : Voice} {pitch velocity : UInt8}

/-- A note that finds a voice clears it, starts it, and writes what the note drives. -/
theorem noteOn_of_clear (ht : p.voices = some t)
    (hnote : t.noteOn? pitch = some (choice, region, t'))
    (hrun : (p.kernel.clear region.offset).run p.arena = (.ok (), cleared)) :
    p.noteOn pitch velocity = (.ok (), { p with
      voices := some t'
      arena := p.router.startKeys region pitch velocity cleared }) := by
  simp only [noteOn, ht, Option.bind_some, hnote, hrun, startVoice_eq]
  rfl

/-- A voice is taken even if the code that clears it faults. -/
theorem noteOn_of_fault {fault : Fault} (ht : p.voices = some t)
    (hnote : t.noteOn? pitch = some (choice, region, t'))
    (hrun : (p.kernel.clear region.offset).run p.arena = (.error fault, cleared)) :
    p.noteOn pitch velocity = (.error fault, { p with voices := some t', arena := cleared }) := by
  simp only [noteOn, ht, Option.bind_some, hnote, hrun]

/-- The end of a note closes the voice that plays it. -/
theorem noteOff_of_playing (ht : p.voices = some t) (hplaying : t.playing? pitch = some place)
    (hvoice : t.voices[place]? = some voice) :
    p.noteOff pitch = { p with
      voices := some { t with voices := t.voices.modify place Voice.close }
      arena := p.router.setKey voice.region .gate .zero p.arena } := by
  obtain ⟨_, -, -, -, hnote⟩ := VoiceTable.noteOff_of_playing hplaying
  have hclosed : (t.voices.modify place Voice.close)[place]? = some voice.close := by
    rw [List.getElem?_modify, hvoice]
    simp
  simp only [noteOff, ht, hnote, Option.bind_some, hclosed, writeKey_eq]
  rfl

/-- The end of a note that no voice plays is ignored. -/
theorem noteOff_of_silent (ht : p.voices = some t) (hplaying : t.playing? pitch = none) :
    p.noteOff pitch = p := by
  -- The table that is put back is the old one.
  obtain ⟨plan, table, kernel, effect, arena, voices, halt, interval, rendered, readbacks⟩ := p
  obtain rfl : voices = some t := ht
  simp only [noteOff, VoiceTable.noteOff, hplaying, Option.bind_none]

end Notes

/-- A note begins: nothing happens, or one voice is cleared, started, and given what the note
drives. -/
theorem Ready.noteOn_eq (h : p.Ready rate fields) (pitch velocity : UInt8) :
    p.noteOn pitch velocity = (.ok (), p) ∨
      ∃ place voice t t' cleared, p.voices = some t ∧ t.voices[place]? = some voice ∧
        t'.voices = t.voices.modify place (·.start pitch (t.clock + 1)) ∧
          Arena.ChangedWithin (p.router.reserved fields)ᶜ p.arena cleared ∧
            p.noteOn pitch velocity =
              (.ok (), { p with
                voices := some t'
                arena := p.router.startKeys voice.region pitch velocity cleared }) := by
  cases hnote : p.voices.bind (·.noteOn? pitch) with
  | none => exact .inl (by rw [noteOn, hnote])
  | some started =>
    obtain ⟨choice, region, t'⟩ := started
    obtain ⟨t, ht, hnote⟩ := Option.bind_eq_some_iff.mp hnote
    obtain ⟨place, voice, hvoice, rfl, ht'⟩ := VoiceTable.noteOn?_eq_some hnote
    have hclear := h.minds.clear_confined h.wellFormed (h.region_mem ht hvoice)
    obtain ⟨_, cleared, hrun, hchange⟩ := hclear p.arena h.hosts
    exact .inr ⟨place, voice, t, t', cleared, ht, hvoice, ht', hchange,
      noteOn_of_clear ht hnote hrun⟩

/-- A note ends: nothing happens, or one voice is closed. -/
theorem noteOff_eq (p : Processor) (pitch : UInt8) :
    p.noteOff pitch = p ∨
      ∃ place voice t t', p.voices = some t ∧ t.voices[place]? = some voice ∧
        t'.voices = t.voices.modify place Voice.close ∧
          p.noteOff pitch =
            { p with
              voices := some t'
              arena := p.router.setKey voice.region .gate .zero p.arena } := by
  cases ht : p.voices with
  | none => exact .inl (by rw [noteOff, ht])
  | some t =>
    cases hplaying : t.playing? pitch with
    | none => exact .inl (noteOff_of_silent ht hplaying)
    | some place =>
      obtain ⟨voice, hvoice, -, -, -⟩ := VoiceTable.noteOff_of_playing hplaying
      exact .inr ⟨place, voice, t, _, rfl, hvoice, rfl, noteOff_of_playing ht hplaying hvoice⟩

/-- Every note ends: every voice is closed, if there are voices. -/
theorem allNotesOff_eq (p : Processor) :
    (p.voices = none ∧ p.allNotesOff = p) ∨
      ∃ t, p.voices = some t ∧
        p.allNotesOff =
          { p with
            voices := some t.allNotesOff
            arena := p.router.closeGates t.allNotesOff.voices p.arena } := by
  unfold allNotesOff
  split
  · next hnone => exact .inl ⟨hnone, rfl⟩
  · next t ht =>
    refine .inr ⟨t, ht, ?_⟩
    rw [foldl_writeKey_eq]
    rfl

/-- What notes can do: voices are changed, and in the arena the fields that no key overlaps keep
their values. -/
structure Played (p p' : Processor) (fields : Scope → List (ℕ × Single)) : Prop where
  eq : p' = { p with voices := p'.voices, arena := p'.arena }
  hosts : p.plan.Hosts p'.arena
  seated : ∀ t, p'.voices = some t → t.Seated p.plan
  kept : ∀ scope region index, p.Keeps fields scope region index →
    p.router.MissedByNotes scope index →
      p'.arena.readField? region index = p.arena.readField? region index

theorem Played.router_eq (h : p.Played p' fields) : p'.router = p.router := by
  rw [h.eq]
  rfl

theorem Played.readbacks_eq (h : p.Played p' fields) : p'.readbacks = p.readbacks := by
  rw [h.eq]

theorem Ready.played_self (h : p.Ready rate fields) : p.Played p fields :=
  ⟨rfl, h.hosts, h.seated, fun _ _ _ _ _ => rfl⟩

/-- Notes leave a processor that can go on. -/
theorem Ready.of_played (h : p.Ready rate fields) (hplayed : p.Played p' fields) :
    p'.Ready rate fields := by
  rw [hplayed.eq]
  exact ⟨h.wellFormed, h.indexed, h.minds, hplayed.hosts, hplayed.seated⟩

/-- A note can begin. -/
theorem Ready.played_noteOn (h : p.Ready rate fields) (pitch velocity : UInt8) :
    ∃ p', p.noteOn pitch velocity = (.ok (), p') ∧ p.Played p' fields := by
  rcases h.noteOn_eq pitch velocity with hsame |
    ⟨place, voice, t, t', cleared, ht, hvoice, ht', hcleared, hnote⟩
  · exact ⟨p, hsame, h.played_self⟩
  · have hregion := h.region_mem ht hvoice
    have hhosts := h.hosts_of_reserved h.hosts hcleared
    refine ⟨_, hnote, rfl, ?_, ?_, fun scope region index hfield hmiss => ?_⟩
    · exact hosts_of_changedWithin_instances h.wellFormed hhosts
        ((p.router.changedWithin_startKeys voice.region pitch velocity cleared).mono
          (Router.footprint_subset hregion))
    · rintro _ ⟨⟩
      exact (h.seated t ht).modify ht' fun _ => rfl
    · -- Each of the three keys misses the field, and so does the code that cleared the voice.
      have hkey := fun key value a => Router.readField?_setKey_of_missed (a := a) h.wellFormed
        hregion hfield.mem hfield.fits hmiss key value
      exact (hkey _ _ _).trans ((hkey _ _ _).trans ((hkey _ _ _).trans
        (Ready.readField?_of_reserved hfield hcleared)))

/-- A note can end. -/
theorem Ready.played_noteOff (h : p.Ready rate fields) (pitch : UInt8) :
    p.Played (p.noteOff pitch) fields := by
  rcases p.noteOff_eq pitch with hsame | ⟨place, voice, t, t', ht, hvoice, ht', hnote⟩
  · rw [hsame]
    exact h.played_self
  · have hregion := h.region_mem ht hvoice
    rw [hnote]
    refine ⟨rfl, ?_, ?_, fun scope region index hfield hmiss => ?_⟩
    · exact hosts_of_changedWithin_instances h.wellFormed h.hosts
        ((p.router.changedWithin_setKey voice.region _ _ _).mono (Router.footprint_subset hregion))
    · rintro _ ⟨⟩
      exact (h.seated t ht).modify ht' fun _ => rfl
    · exact Router.readField?_setKey_of_missed h.wellFormed hregion hfield.mem hfield.fits hmiss
        _ _ _

/-- All notes can end. -/
theorem Ready.played_allNotesOff (h : p.Ready rate fields) : p.Played p.allNotesOff fields := by
  rcases p.allNotesOff_eq with ⟨-, hsame⟩ | ⟨t, ht, hnotes⟩
  · rw [hsame]
    exact h.played_self
  · have hseated := (h.seated t ht).allNotesOff
    have hregions : ∀ voice ∈ t.allNotesOff.voices, voice.region ∈ p.router.regions .voice := by
      intro voice hvoice
      obtain ⟨place, hplace⟩ := List.mem_iff_getElem?.mp hvoice
      exact Router.mem_regions_voice.mpr ⟨place, hseated.region_eq hplace⟩
    rw [hnotes]
    refine ⟨rfl, ?_, ?_, fun scope region index hfield hmiss => ?_⟩
    · exact hosts_of_changedWithin_instances h.wellFormed h.hosts
        (Router.changedWithin_closeGates hregions _)
    · rintro _ ⟨⟩
      exact hseated
    · exact Router.readField?_closeGates_of_missed h.wellFormed hregions hfield.mem hfield.fits
        hmiss _

/-- A controller that silences voices ends all notes before it moves what is bound to it. -/
theorem controlChange_eq (p : Processor) (controller value : UInt8) :
    ∃ q, (q = p ∨ q = p.allNotesOff) ∧
      p.controlChange controller value = q.mapArena (q.router.controlChange controller value) := by
  unfold controlChange
  by_cases hpanic : isPanicController controller = true
  · rw [if_pos hpanic]
    exact ⟨_, .inr rfl, rfl⟩
  · rw [if_neg hpanic]
    exact ⟨_, .inl rfl, rfl⟩

/-- Writes inside instances leave a processor that can go on. -/
theorem Ready.mapArena (h : p.Ready rate fields) {change : Arena → Arena}
    (hchange : Arena.ChangedWithin (p.plan.area RegionKind.instances) p.arena (change p.arena)) :
    (p.mapArena change).Ready rate fields :=
  ⟨h.wellFormed, h.indexed, h.minds,
    hosts_of_changedWithin_instances h.wellFormed h.hosts hchange, h.seated⟩

/-- Whether a processor can go on depends on its memory and its voices alone, not on why it stopped
or what it counts and reads back. -/
theorem Ready.withStatus (h : p.Ready rate fields) (halt : Option Halt) (rendered : ℕ)
    (readbacks : Queue Readback) :
    ({ p with halt, rendered, readbacks } : Processor).Ready rate fields :=
  ⟨h.wellFormed, h.indexed, h.minds, h.hosts, h.seated⟩

/-! ### Commands -/

/-- A controller finds a processor that notes have been played on at most. -/
theorem Ready.played_controlChange (h : p.Ready rate fields) (controller value : UInt8) :
    ∃ q, p.Played q fields ∧ (q = p ∨ q = p.allNotesOff) ∧
      p.controlChange controller value = q.mapArena (q.router.controlChange controller value) := by
  obtain ⟨q, hq, hchange⟩ := p.controlChange_eq controller value
  refine ⟨q, ?_, hq, hchange⟩
  rcases hq with rfl | rfl
  · exact h.played_self
  · exact h.played_allNotesOff

/-- No command makes a processor fault. -/
theorem Ready.apply (h : p.Ready rate fields) (command : Command) :
    ∃ p', p.apply command = (.ok (), p') ∧ p'.Ready rate fields ∧ p'.router = p.router ∧
      p'.readbacks = p.readbacks := by
  have hplay (p' : Processor) (hplayed : p.Played p' fields) :
      p'.Ready rate fields ∧ p'.router = p.router ∧ p'.readbacks = p.readbacks :=
    ⟨h.of_played hplayed, hplayed.router_eq, hplayed.readbacks_eq⟩
  cases command with
  | noteOn pitch velocity =>
    obtain ⟨p', hnote, hplayed⟩ := h.played_noteOn pitch velocity
    exact ⟨p', hnote, hplay p' hplayed⟩
  | noteOff pitch => exact ⟨_, rfl, hplay _ (h.played_noteOff pitch)⟩
  | controlChange controller value =>
    obtain ⟨q, hplayed, -, hchange⟩ := h.played_controlChange controller value
    refine ⟨_, congrArg _ hchange, (h.of_played hplayed).mapArena ?_, hplayed.router_eq,
      hplayed.readbacks_eq⟩
    exact q.router.changedWithin_setEach _ _ _
  | pitchWheel value => exact ⟨_, rfl, h.mapArena (p.router.changedWithin_setEach _ _ _), rfl, rfl⟩
  | setParameter id value => exact ⟨_, rfl, h.mapArena (p.router.changedWithin_set _ _ _), rfl, rfl⟩
  | allNotesOff => exact ⟨_, rfl, hplay _ h.played_allNotesOff⟩
  | destroy => exact ⟨_, rfl, h.withStatus _ _ _, rfl, rfl⟩

end Processor

end DspHost
