import DspHost.Proofs.Engine.Polyphony
import DspHost.Proofs.Engine.Safety

/-!
# A note touches one voice

A note that begins chooses a voice, clears its instance and writes three controls, the gate last; a
note that ends closes one gate. In a processor whose voices are in good order all of this happens in
one instance, and everything else that there is stays as it was: the other voices and their
instances, the effect, the tables, the samples, and what the processor counts and reports. Nothing
is assumed about where the controls lie in the instances, so what is read back of a control says
which of the others must not overlap it.

## Main definitions

* `VoiceTable.HoldsLongest` — the oldest voice that holds a pitch
* `Processor.Began`, `Processor.Ended` — the processor after a note has begun or ended
* `Processor.TouchesOne` — notes that touch one voice only

## Main results

* `Router.readField?_startKeys` — what is read back of the controls that a note has written
* `Processor.Polyphonic.began`, `Processor.Polyphonic.ended` — what one note does
* `Session.touchesOne_of_attach` — all of it for every processor that a host can bring about
-/

namespace DspHost

/-! ### Controls that notes drive -/

/-- The control that a key stands for has no byte in common with another one. -/
def ParameterTable.Misses (t : ParameterTable) (key : VoiceKey) (b : Binding) : Prop :=
  ∀ c, t.keyed? key = some c → c.Apart b

namespace Router

variable {r : Router} {region : InstanceRegion} {key : VoiceKey} {b : Binding} {value : Single}
  {a : Arena}

theorem setKey_of_keyed? (hb : r.table.keyed? key = some b) (region : InstanceRegion)
    (value : Single) (a : Arena) :
    r.setKey region key value a = a.writeField region b.index value := by
  obtain ⟨id, hid, hb⟩ := Option.bind_eq_some_iff.mp hb
  simp [setKey, hid, setOnVoice, hb]

theorem setKey_of_keyed?_eq_none (hb : r.table.keyed? key = none) (region : InstanceRegion)
    (value : Single) (a : Arena) : r.setKey region key value a = a := by
  unfold setKey
  split
  · next id hid =>
    have hnone : r.table.get? id = none := Option.bind_eq_none_iff.mp hb id hid
    simp [setOnVoice, hnone]
  · rfl

/-- The four bytes of the control that a key stands for; none if there is no such control. -/
def keySpan (r : Router) (region : InstanceRegion) (key : VoiceKey) : Set ℕ :=
  {i | ∃ b, r.table.keyed? key = some b ∧ i ∈ region.fieldSpan b.index}

theorem changedWithin_keySpan (r : Router) (region : InstanceRegion) (key : VoiceKey)
    (value : Single) (a : Arena) :
    Arena.ChangedWithin (r.keySpan region key) a (r.setKey region key value a) := by
  cases hb : r.table.keyed? key with
  | none =>
    rw [setKey_of_keyed?_eq_none hb]
    exact .refl _ a
  | some b =>
    rw [setKey_of_keyed? hb]
    exact (a.changedWithin_writeField region b.index value).mono fun i hi => ⟨b, hb, hi⟩

/-- A key that was written is read back. -/
theorem readField?_setKey (hb : r.table.keyed? key = some b) (hfits : b.index + 4 ≤ region.size)
    (hinside : region.offset + region.size ≤ a.size) (value : Single) :
    (r.setKey region key value a).readField? region b.index = some value := by
  rw [setKey_of_keyed? hb]
  exact Arena.readField?_writeField hfits hinside value

/-- A key leaves a control alone that it does not overlap. -/
theorem readField?_setKey_of_misses (hmiss : r.table.Misses key b) (region : InstanceRegion)
    (value : Single) (a : Arena) :
    (r.setKey region key value a).readField? region b.index = a.readField? region b.index := by
  refine (r.changedWithin_keySpan region key value a).readField?_eq (Set.disjoint_left.mpr ?_)
  rintro i hi ⟨c, hc, hi'⟩
  exact Set.disjoint_left.mp (region.disjoint_fieldSpan (hmiss c hc)) hi' hi

/-- The gate is written last, the gain before it and the frequency first. -/
theorem readField?_startKeys (hfits : ∀ key b, r.table.keyed? key = some b →
      b.index + 4 ≤ region.size) (hinside : region.offset + region.size ≤ a.size)
    (pitch velocity : UInt8) :
    (∀ b, r.table.keyed? .gate = some b →
        (r.startKeys region pitch velocity a).readField? region b.index = some .one) ∧
      (∀ b, r.table.keyed? .gain = some b → r.table.Misses .gate b →
        (r.startKeys region pitch velocity a).readField? region b.index =
          some (velocityGain velocity)) ∧
      ∀ b, r.table.keyed? .freq = some b → r.table.Misses .gate b → r.table.Misses .gain b →
        (r.startKeys region pitch velocity a).readField? region b.index =
          some (noteFrequency pitch) := by
  have hroom {key : VoiceKey} {value : Single} {a : Arena}
      (h : region.offset + region.size ≤ a.size) :
      region.offset + region.size ≤ (r.setKey region key value a).size := by
    rwa [(r.changedWithin_setKey region key value a).size_eq]
  refine ⟨fun b hb => ?_, fun b hb hgate => ?_, fun b hb hgate hgain => ?_⟩
  · exact readField?_setKey hb (hfits _ b hb) (hroom (hroom hinside)) _
  · rw [startKeys, readField?_setKey_of_misses hgate]
    exact readField?_setKey hb (hfits _ b hb) (hroom hinside) _
  · rw [startKeys, readField?_setKey_of_misses hgate, readField?_setKey_of_misses hgain]
    exact readField?_setKey hb (hfits _ b hb) hinside _

end Router

/-! ### The oldest voice of a pitch -/

namespace VoiceTable

/-- The voice at a place holds a pitch, and any other voice that holds it was allocated later. -/
structure HoldsLongest (t : VoiceTable) (pitch : UInt8) (place : ℕ) (voice : Voice) : Prop where
  getElem? : t.voices[place]? = some voice
  active : voice.state = .active pitch
  oldest : ∀ place' other, place' ≠ place → t.voices[place']? = some other →
    other.state = .active pitch → voice.sequence < other.sequence

variable {t : VoiceTable} {pitch : UInt8} {place : ℕ}

/-- The voice that plays a pitch holds it for longer than any other voice. -/
theorem Recalls.holdsLongest {regions : List InstanceRegion} {taken : List ℕ} {silenced : Prop}
    (h : t.Recalls regions taken silenced) (hplaying : t.playing? pitch = some place) :
    ∃ voice, t.HoldsLongest pitch place voice := by
  obtain ⟨voice, hvoice, hpitch, hleast, -⟩ := noteOff_of_playing hplaying
  have hactive := Voice.pitch?_eq_some_iff.mp hpitch
  refine ⟨voice, hvoice, hactive, fun place' other hne hother hother' => ?_⟩
  -- An active voice was allocated, so its stamp is not zero and no other voice has it.
  have hpos : 0 < voice.sequence := by
    rw [h.sequence_eq hvoice]
    exact lastRank_pos_iff.mpr (h.mem_of_active hvoice hactive)
  refine lt_of_le_of_ne ?_ fun heq => hne ?_
  · exact hleast other (List.mem_of_getElem? hother) (Voice.pitch?_eq_some_iff.mpr hother')
  · exact (h.place_eq_of_sequence_eq hvoice hother hpos heq).symm

end VoiceTable

/-! ### What notes do -/

namespace Processor

/-- A note has begun in a voice. -/
structure Began (p : Processor) (t : VoiceTable) (place : ℕ) (voice : Voice)
    (pitch velocity : UInt8) (p' : Processor) : Prop where
  /-- The voice sounds the pitch and has the next stamp. Besides, only the arena changes. -/
  eq : p' = { p with
    voices := some ⟨t.voices.set place
      { voice with state := .active pitch, sequence := t.clock + 1 }, t.clock + 1⟩
    arena := p'.arena }
  /-- The bytes that change lie in the instance of the voice. -/
  bytes : Arena.ChangedWithin voice.region.footprint p.arena p'.arena
  /-- So every other region of the plan is as before. -/
  others : Set.EqOn p'.arena.byteAt p.arena.byteAt (p.plan.area {p.plan.instanceKind place}ᶜ)
  /-- The gate is open. -/
  gate : ∀ b, p.table.keyed? .gate = some b →
    p'.arena.readField? voice.region b.index = some .one
  /-- The gain holds the velocity, unless the gate was written over it. -/
  gain : ∀ b, p.table.keyed? .gain = some b → p.table.Misses .gate b →
    p'.arena.readField? voice.region b.index = some (velocityGain velocity)
  /-- The frequency is that of the pitch, unless the gate or the gain was written over it. -/
  freq : ∀ b, p.table.keyed? .freq = some b → p.table.Misses .gate b → p.table.Misses .gain b →
    p'.arena.readField? voice.region b.index = some (noteFrequency pitch)

/-- A note has ended in a voice. -/
structure Ended (p : Processor) (t : VoiceTable) (place : ℕ) (voice : Voice) (p' : Processor) :
    Prop where
  /-- The voice is releasing. Besides, only the arena changes. -/
  eq : p' = { p with
    voices := some { t with voices := t.voices.set place { voice with state := .releasing } }
    arena := p'.arena }
  /-- The bytes that change are those of the gate of the voice. -/
  bytes : Arena.ChangedWithin (p.router.keySpan voice.region .gate) p.arena p'.arena
  /-- The gate is closed. -/
  gate : ∀ b, p.table.keyed? .gate = some b →
    p'.arena.readField? voice.region b.index = some .zero

/-- A note touches one voice only. -/
structure TouchesOne (p : Processor) (t : VoiceTable) : Prop where
  /-- A note that begins without a fault takes the voice that is chosen for it. -/
  begins : ∀ pitch velocity p', p.apply (.noteOn pitch velocity) = (.ok (), p') →
    ∃ choice voice, t.choose? = some choice ∧ t.voices[choice.index]? = some voice ∧
      p.plan.voiceInstance? choice.index = some voice.region ∧
        p.Began t choice.index voice pitch velocity p'
  /-- A note that ends closes the oldest voice that holds it. -/
  ends : ∀ pitch, (∃ voice ∈ t.voices, voice.state = .active pitch) →
    ∃ place voice p', t.HoldsLongest pitch place voice ∧
      p.plan.voiceInstance? place = some voice.region ∧
        p.apply (.noteOff pitch) = (.ok (), p') ∧ p.Ended t place voice p'
  /-- A note that ends and that no voice holds changes nothing at all. -/
  ignores : ∀ pitch, (∀ voice ∈ t.voices, voice.state ≠ .active pitch) →
    p.apply (.noteOff pitch) = (.ok (), p)

namespace Polyphonic

variable {p p' : Processor} {t : VoiceTable} {place : ℕ} {voice : Voice} {pitch velocity : UInt8}

theorem region_inside (h : p.Polyphonic) (ht : p.voices = some t)
    (hvoice : t.voices[place]? = some voice) :
    voice.region.offset + voice.region.size ≤ p.arena.size := by
  rw [h.size_eq]
  exact h.wellFormed.instance_le_arenaSize (h.region_eq ht hvoice)

/-- A note that begins without a fault takes the voice that is chosen for it. -/
theorem began (h : p.Polyphonic) (ht : p.voices = some t)
    (hnote : p.apply (.noteOn pitch velocity) = (.ok (), p')) :
    ∃ choice voice, t.choose? = some choice ∧ t.voices[choice.index]? = some voice ∧
      p.plan.voiceInstance? choice.index = some voice.region ∧
        p.Began t choice.index voice pitch velocity p' := by
  obtain ⟨choice, voice, hchoose, hvoice, -⟩ := VoiceTable.choose?_eq_some (h.voices_ne_nil ht)
  have hstart := VoiceTable.noteOn?_of_choose? hchoose hvoice pitch
  have hregion := h.region_eq ht hvoice
  have hclear := h.contained.clear voice.region (h.region_mem ht hvoice) p.arena
  refine ⟨choice, voice, hchoose, hvoice, hregion, ?_⟩
  rcases hrun : (p.kernel.clear voice.region.offset).run p.arena with ⟨fault | _, cleared⟩
  · rw [Processor.apply, noteOn_of_fault ht hstart hrun] at hnote
    cases hnote
  · rw [hrun] at hclear
    rw [Processor.apply, noteOn_of_clear ht hstart hrun] at hnote
    obtain rfl := (Prod.mk.inj hnote).2
    have hbytes := hclear.trans
      (p.router.changedWithin_startKeys voice.region pitch velocity cleared)
    have hinside : voice.region.offset + voice.region.size ≤ cleared.size := by
      rw [hclear.size_eq]
      exact h.region_inside ht hvoice
    obtain ⟨hgate, hgain, hfreq⟩ := Router.readField?_startKeys (r := p.router)
      (fun key b hb => h.fits key b hb voice.region (h.region_mem ht hvoice)) hinside pitch velocity
    refine ⟨?_, hbytes, ?_, hgate, hgain, hfreq⟩
    · simp [List.modify_eq_set_getElem?, hvoice, Voice.start]
    · refine hbytes.eqOn_of_disjoint (Disjoint.mono_right
        (MemoryPlan.footprint_subset_area hregion) (h.wellFormed.disjoint_area ?_))
      exact disjoint_compl_left

/-- A note that ends closes the oldest voice that holds it. -/
theorem ended (h : p.Polyphonic) (ht : p.voices = some t)
    (hheld : ∃ voice ∈ t.voices, voice.state = .active pitch) :
    ∃ place voice p', t.HoldsLongest pitch place voice ∧
      p.plan.voiceInstance? place = some voice.region ∧
        p.apply (.noteOff pitch) = (.ok (), p') ∧ p.Ended t place voice p' := by
  obtain ⟨taken, silenced, hrecalls⟩ := h.recalls ht
  cases hplaying : t.playing? pitch with
  | none =>
    obtain ⟨voice, hvoice, hactive⟩ := hheld
    exact absurd (Voice.pitch?_eq_some_iff.mpr hactive)
      (VoiceTable.playing?_eq_none_iff.mp hplaying voice hvoice)
  | some place =>
    obtain ⟨voice, hlongest⟩ := hrecalls.holdsLongest hplaying
    have hvoice := hlongest.getElem?
    have hnote := noteOff_of_playing ht hplaying hvoice
    refine ⟨place, voice, _, hlongest, h.region_eq ht hvoice, congrArg _ hnote, ?_, ?_, ?_⟩
    · simp [List.modify_eq_set_getElem?, hvoice, Voice.close]
    · exact p.router.changedWithin_keySpan voice.region .gate .zero p.arena
    · exact fun b hb => Router.readField?_setKey (r := p.router) hb
        (h.fits .gate b hb voice.region (h.region_mem ht hvoice)) (h.region_inside ht hvoice) _

/-- Where voices are in good order, a note touches one of them only. -/
theorem touchesOne (h : p.Polyphonic) (ht : p.voices = some t) : p.TouchesOne t := by
  refine ⟨fun pitch velocity p' hnote => h.began ht hnote, fun pitch hheld => h.ended ht hheld,
    fun pitch hnone => ?_⟩
  refine congrArg _ (noteOff_of_silent ht (VoiceTable.playing?_eq_none_iff.mpr ?_))
  exact fun voice hvoice hpitch => hnone voice hvoice (Voice.pitch?_eq_some_iff.mp hpitch)

end Polyphonic

end Processor

/-! ### The organ -/

/-- Clearing a voice of the organ stores three fields of its instance. -/
theorem writesIn_clear_organ {region : InstanceRegion} (hsize : Organ.size ≤ region.size) :
    (Organ.clear region.offset).WritesIn region.footprint := by
  have hstore {index : ℕ} (hindex : index + 4 ≤ Organ.size) :
      (Access.storeSingle (region.offset + index) .zero).WritesIn region.footprint :=
    (Access.WritesIn.storeSingle _ _).mono (region.fieldSpan_subset (hindex.trans hsize))
  exact .bind (hstore (by decide)) fun _ => .bind (hstore (by decide)) fun _ => hstore (by decide)

theorem keepsShape_organKernel : organKernel.KeepsShape := by
  have hstore (address : ℕ) (value : Single) :
      (Access.storeSingle address value).WritesIn Set.univ :=
    (Access.WritesIn.storeSingle _ _).shape
  have hload (address : ℕ) : (Access.loadSingle address).WritesIn Set.univ := .loadSingle address
  refine ⟨fun region rate => ?_, fun region count inputs outputs => ?_⟩
  · refine .bind (hstore _ _) fun _ => .bind (hstore _ _) fun _ => .bind (hstore _ _) fun _ =>
      .bind (hstore _ _) fun _ => .bind (hstore _ _) fun _ => .bind (hstore _ _) fun _ => ?_
    exact .bind (hstore _ _) fun _ => .bind (hstore _ _) fun _ => hstore _ _
  · refine .bind (hload _) fun _ => .bind (hload _) fun _ => .bind (hload _) fun _ =>
      .bind (hload _) fun _ => .bind (hload _) fun _ => .bind (hload _) fun _ =>
        .bind (hload _) fun _ => .bind (hload _) fun _ => .bind (hload _) fun _ =>
          .bind (.loadPointer _) fun _ => .bind (.foldEach (fun _ _ => ?_) _ _) fun _ => ?_
    · exact .bind (hstore _ _) fun _ => .pure _
    · exact .bind (hstore _ _) fun _ => .bind (hstore _ _) fun _ => hstore _ _

theorem keepsShape_volumeKernel (channels : ℕ) (initial : Single) :
    (volumeKernel channels initial).KeepsShape := by
  refine ⟨fun region rate => (Access.WritesIn.storeSingle _ _).shape,
    fun region count inputs outputs => .bind (.loadSingle _) fun _ => .forEach fun _ _ => ?_⟩
  refine .bind (.channel _ _) fun _ => .bind (.channel _ _) fun _ => .forEach fun _ _ => ?_
  exact .bind (.loadSingle _) fun _ => (Access.WritesIn.storeSingle _ _).shape

/-- The code of the organ and of its volume is contained. -/
theorem contained_organ {s : Session} (h : (attach organModule organConfig).value = .ok s) :
    s.processor.Contained := by
  obtain ⟨width, plan, arena, hplan, -, rfl⟩ := attach_eq_ok h
  refine ⟨keepsShape_organKernel, fun k hk => ?_, fun region hregion => ?_⟩
  · have hk : (hostedEffect? organModule organConfig.voices).map (·.kernel) = some k := hk
    obtain ⟨e, he, rfl⟩ := Option.map_eq_some_iff.mp hk
    obtain rfl := hostedEffect?_organ he
    exact keepsShape_volumeKernel _ _
  · have hmem : region ∈ (connect organModule organConfig plan arena).processor.router.regions
        .voice := hregion
    obtain ⟨d, hd, hsize⟩ := size_of_plan hplan hmem
    obtain rfl := Option.some.inj hd
    exact writesIn_clear_organ hsize.ge

/-! ### Runs of new processors -/

namespace Session

variable {m : CompiledModule} {config : EngineConfig} {s : Session}

/-- A note touches one voice only, in every polyphonic processor that a host can bring about from a
module whose description was accepted: after any calls, and between any of the commands that a block
takes after them. A note that begins without a fault takes the voice that is chosen for it, changes
bytes of its instance alone, and leaves its gate open and its frequency and gain set, as far as
these do not overlap. A note that ends closes the oldest voice that holds it and changes the bytes
of its gate alone; and if no voice holds it, it changes nothing. -/
theorem touchesOne_of_attach (h : (attach m config).value = .ok s)
    (hpoly : (Polyphony.ofRequested config.voices).isPoly = true) (hsound : m.metadata.Sound)
    (hcontained : s.processor.Contained) (calls : List HostCall) (commands : List Command) :
    ∃ t, ((s.run calls).processor.drainList commands).1.voices = some t ∧
      ((s.run calls).processor.drainList commands).1.TouchesOne t := by
  have hrun := polyphonic_run (polyphonic_of_attach h hpoly hsound hcontained) calls
  have hdrained := hrun.drainList commands
  obtain ⟨t, _, _, ht, -⟩ := hdrained.voices
  exact ⟨t, ht, hdrained.touchesOne ht⟩

/-- The organ with eight voices, in the middle of the commands of a block: a note sounds since the
last block, another one has just begun, and a third one can begin. -/
theorem touchesOne_of_attach_organ : ∃ s, (attach organModule organConfig).value = .ok s ∧
    (Polyphony.ofRequested organConfig.voices).isPoly = true ∧ organModule.metadata.Sound ∧
      s.processor.Contained ∧
        let p := ((s.run [.send (.noteOn 0 60 100),
          .process [] [List.replicate 128 .zero] []]).processor.drainList [.noteOn 64 100]).1
        (∃ t, p.voices = some t ∧ p.TouchesOne t) ∧
          ∃ p', p.apply (.noteOn 67 100) = (.ok (), p') := by
  obtain ⟨plan, arena, hattach, hminds⟩ := attach_organ
  have hpoly : (Polyphony.ofRequested organConfig.voices).isPoly = true := by decide
  have hsound : organModule.metadata.Sound :=
    ModuleMetadata.check?_eq_none_iff.mp (by decide)
  have hcontained := contained_organ hattach
  refine ⟨_, hattach, hpoly, hsound, hcontained,
    touchesOne_of_attach hattach hpoly hsound hcontained _ _, ?_⟩
  have hfresh : (connect organModule organConfig plan arena).processor.Safe _
      organConfig.sampleRate organFields [] := ⟨(ready_of_attach hattach hminds).1, rfl, .inl rfl⟩
  have hready := (safe_run hfresh [.send (.noteOn 0 60 100),
    .process [] [List.replicate 128 .zero] []]).ready
  obtain ⟨p, happly, hready, -⟩ := hready.apply (.noteOn 64 100)
  rw [Processor.drainList_cons happly Command.noConfusion, Processor.drainList]
  obtain ⟨p', hnext, -⟩ := hready.apply (.noteOn 67 100)
  exact ⟨p', hnext⟩

end Session

end DspHost
