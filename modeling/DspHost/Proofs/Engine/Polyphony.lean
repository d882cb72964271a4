import DspHost.Proofs.Engine.Status
import DspHost.Proofs.Memory.Writes
import DspHost.Proofs.Metadata.Verdict
import DspHost.Proofs.Voices.History

/-!
# Voices in good order

Nothing but the voice table says which instance a note belongs to. So whatever is to be said about
notes rests on what the table and the arena have to do with each other, and this is kept by all that
a host can do: the voices have the instances of the plan, their stamps are those of a history of
allocations, and the controls that notes drive lie inside the instances.

The code of the module is trusted with little. It may fault at any time and render into any byte, as
long as the arena keeps its shape; only the code that clears a voice has to stay inside the instance
of the voice.

## Main definitions

* `ParameterTable.keyed?` — the control that a key stands for
* `Processor.Contained` — code that stays where it was put
* `Processor.Polyphonic` — a processor whose voices are in good order

## Main results

* `Processor.Polyphonic.apply`, `Processor.Polyphonic.process` — voices stay in good order, whatever
  commands and blocks come to
* `Session.polyphonic_of_attach`, `Session.polyphonic_run` — so they are in every processor that a
  host can bring about
-/

namespace DspHost

/-- The control that a key stands for, if the table has one. -/
def ParameterTable.keyed? (t : ParameterTable) (key : VoiceKey) : Option Binding :=
  (t.keys.get? key).bind t.get?

/-! ### Code that is contained -/

/-- The entry points that set up and render leave the shape of the arena alone. -/
structure Kernel.KeepsShape (k : Kernel) : Prop where
  init : ∀ region rate, (k.init region rate).WritesIn Set.univ
  compute : ∀ region count inputs outputs,
    (k.compute region count inputs outputs).WritesIn Set.univ

namespace Processor

/-- Code reaches the arena through its accesses, which leave the shape of the arena alone; and the
code that clears a voice writes inside the instance that it is given. -/
structure Contained (p : Processor) : Prop where
  kernel : p.kernel.KeepsShape
  effect : ∀ k, p.effect = some k → k.KeepsShape
  clear : ∀ region ∈ p.plan.voiceInstances,
    (p.kernel.clear region.offset).WritesIn region.footprint

variable {p : Processor}

/-- Mixing leaves the shape of the arena alone, whatever is mixed. -/
theorem changedWithin_addMixed_univ (plan : MemoryPlan) (a : Arena) :
    Arena.ChangedWithin Set.univ a (addMixed plan a) :=
  List.foldlRecOn _ _ (Arena.ChangedWithin.refl _ a) fun b hb pair _ =>
    hb.trans (b.changedWithin_accumulate_univ pair.1 pair.2)

/-- Rendering leaves the shape of the arena alone if the code that renders does. -/
theorem writesIn_renderCode (hkernel : p.kernel.KeepsShape)
    (heffect : ∀ k, p.effect = some k → k.KeepsShape) : p.renderCode.WritesIn Set.univ := by
  have hvoice {region inputs outputs : ℕ} :
      (p.kernel.compute region p.plan.blockLength inputs outputs).WritesIn Set.univ :=
    hkernel.compute region _ inputs outputs
  unfold Processor.renderCode
  split
  · exact hvoice
  · next mixing _ =>
    refine .bind (.forEach fun b _ => ?_) fun _ => .bind (.forEach fun region _ => ?_) fun _ => ?_
    · exact (Access.WritesIn.zero b.offset b.byteLength).shape
    · exact .bind hvoice fun _ => .change (changedWithin_addMixed_univ p.plan)
    · unfold runEffect
      split
      · next k region hk _ => exact (heffect k hk).compute region.offset _ _ _
      · exact .pure ()

/-- A block changes the arena, and whether the processor has stopped, and what it counts and
reports. -/
theorem exists_processDrained_eq (p : Processor) (inputs outputs : HostBlock)
    (automation : List Automation) :
    ∃ arena halt rendered readbacks, (p.processDrained inputs outputs automation).2.2 =
      { p with arena, halt, rendered, readbacks } := by
  have houtcome := p.outcome_processDrained inputs outputs automation
  generalize p.processDrained inputs outputs automation = result at houtcome ⊢
  cases houtcome with
  | faulted arena fault => exact ⟨arena, _, _, _, rfl⟩
  | rendered arena =>
    obtain ⟨rendered, readbacks, hcount, -⟩ := (p.withArena arena).countBlock_cases
    exact ⟨arena, _, rendered, readbacks, hcount⟩
  | _ => exact ⟨_, _, _, _, rfl⟩

/-- A block leaves the shape of the arena alone if the code that renders it does. -/
theorem shape_processDrained (hcode : p.renderCode.WritesIn Set.univ) (inputs outputs : HostBlock)
    (automation : List Automation) :
    Arena.ChangedWithin Set.univ p.arena
      (p.processDrained inputs outputs automation).2.2.arena := by
  have hstaged : Arena.ChangedWithin Set.univ p.arena (p.staged inputs automation) := by
    refine List.foldlRecOn _ _ (changedWithin_writeInputs p.plan inputs p.arena).shape ?_
    exact fun a ha item _ => ha.trans (p.router.changedWithin_setPath item.path item.value a).shape
  have hrendered := hstaged.trans (hcode (p.staged inputs automation))
  unfold Processor.processDrained
  split
  · exact .refl _ _
  · exact .refl _ _
  · split
    · have hrun : ((p.mapArena (writeInputs p.plan.inputBuffers inputs)).automate
          automation).renderCode.run ((p.mapArena (writeInputs p.plan.inputBuffers
            inputs)).automate automation).arena =
              p.renderCode.run (p.staged inputs automation) := rfl
      unfold renderBlock
      dsimp only
      rw [hrun]
      split
      · next fault arena hfault =>
        rw [hfault] at hrendered
        exact hrendered
      · next arena hends =>
        rw [hends] at hrendered
        rw [arena_countBlock]
        exact hrendered
    · exact .refl _ _

end Processor

/-- Setting up leaves the shape of the arena alone. -/
theorem writesIn_setupCode {kernel : Kernel} {effect : Option Kernel} (hkernel : kernel.KeepsShape)
    (heffect : ∀ k, effect = some k → k.KeepsShape) (plan : MemoryPlan) (rate : ℕ) :
    (setupCode plan kernel effect rate).WritesIn Set.univ := by
  have hword (slot : Option ℕ) (buffer : Option SampleBuffer) :
      (pointWord slot buffer).WritesIn Set.univ := by
    unfold pointWord
    split
    · exact .storePointer _ _
    · exact .pure ()
  refine .bind ?_ fun _ => ?_
  · exact .bind (.forEach fun _ _ => hword _ _) fun _ =>
      .forEach fun _ _ => .bind (hword _ _) fun _ => hword _ _
  · refine .bind (.forEach fun region _ => hkernel.init region.offset rate) fun _ => ?_
    split
    · next k region _ => exact (heffect k rfl).init region.offset rate
    · exact .pure ()

/-! ### Processors with voices -/

namespace Processor

/-- A processor whose voices are in good order: its code is contained, everything is where it was
planned, the controls that notes drive lie inside the instances, and the voices have the instances
of the plan and the stamps that a history of allocations has left on them. -/
structure Polyphonic (p : Processor) : Prop where
  contained : p.Contained
  wellFormed : p.plan.WellFormed
  size_eq : p.arena.size = p.plan.arenaSize
  nonempty : p.plan.voiceInstances ≠ []
  fits : ∀ key b, p.table.keyed? key = some b → ∀ region ∈ p.plan.voiceInstances,
    b.index + 4 ≤ region.size
  voices : ∃ t taken silenced, p.voices = some t ∧
    t.Recalls p.plan.voiceInstances taken silenced

namespace Polyphonic

variable {p : Processor} {t : VoiceTable} {place : ℕ} {voice : Voice}

/-- Whether voices are in good order depends on the voices and on the shape of the arena alone, as
far as it depends on anything that changes. -/
theorem update (h : p.Polyphonic) {arena : Arena} {voices : Option VoiceTable}
    (hshape : Arena.ChangedWithin Set.univ p.arena arena)
    (hvoices : ∃ t taken silenced, voices = some t ∧
      t.Recalls p.plan.voiceInstances taken silenced)
    (halt : Option Halt) (rendered : ℕ) (readbacks : Queue Readback) :
    ({ p with arena, voices, halt, rendered, readbacks } : Processor).Polyphonic :=
  ⟨⟨h.contained.kernel, h.contained.effect, h.contained.clear⟩, h.wellFormed,
    hshape.size_eq.trans h.size_eq, h.nonempty, h.fits, hvoices⟩

theorem withArena (h : p.Polyphonic) {arena : Arena}
    (hshape : Arena.ChangedWithin Set.univ p.arena arena) : (p.withArena arena).Polyphonic :=
  h.update hshape h.voices p.halt p.rendered p.readbacks

theorem stopAt (h : p.Polyphonic) (fault : Fault) : (p.stopAt fault).Polyphonic :=
  h.update (.refl _ _) h.voices _ p.rendered p.readbacks

theorem recalls (h : p.Polyphonic) (ht : p.voices = some t) :
    ∃ taken silenced, t.Recalls p.plan.voiceInstances taken silenced := by
  obtain ⟨t', taken, silenced, ht', hrecalls⟩ := h.voices
  obtain rfl := Option.some.inj (ht.symm.trans ht')
  exact ⟨taken, silenced, hrecalls⟩

/-- The voices have the instances of the plan. -/
theorem region_eq (h : p.Polyphonic) (ht : p.voices = some t)
    (hvoice : t.voices[place]? = some voice) :
    p.plan.voiceInstance? place = some voice.region := by
  obtain ⟨taken, silenced, hrecalls⟩ := h.recalls ht
  exact VoiceTable.Seated.region_eq hrecalls.regions_eq hvoice

theorem region_mem (h : p.Polyphonic) (ht : p.voices = some t)
    (hvoice : t.voices[place]? = some voice) : voice.region ∈ p.plan.voiceInstances := by
  refine List.mem_of_getElem? (i := place) ?_
  rw [p.plan.getElem?_voiceInstances]
  exact h.region_eq ht hvoice

theorem voices_ne_nil (h : p.Polyphonic) (ht : p.voices = some t) : t.voices ≠ [] := by
  obtain ⟨taken, silenced, hrecalls⟩ := h.recalls ht
  rw [← List.length_pos_iff_ne_nil, hrecalls.length_voices]
  exact List.length_pos_iff_ne_nil.mpr h.nonempty

/-! ### Commands -/

/-- What a call of the voice table leaves agrees with a history that has the call added. -/
theorem recalls_act (h : p.Polyphonic) (ht : p.voices = some t) (call : NoteCall) :
    ∃ t' taken silenced, some (t.act call) = some t' ∧
      t'.Recalls p.plan.voiceInstances taken silenced := by
  obtain ⟨taken, silenced, hrecalls⟩ := h.recalls ht
  exact ⟨_, _, _, rfl, hrecalls.perform (.note call)⟩

/-- A note that begins leaves voices in good order, even if the code that clears one of them
faults. -/
theorem noteOn (h : p.Polyphonic) (pitch velocity : UInt8) :
    (p.noteOn pitch velocity).2.Polyphonic := by
  obtain ⟨t, _, _, ht, -⟩ := h.voices
  obtain ⟨choice, voice, hvoice, -, hnote⟩ :=
    VoiceTable.noteOn?_of_voices (h.voices_ne_nil ht) pitch
  have hclear := h.contained.clear voice.region (h.region_mem ht hvoice) p.arena
  have hcall := h.recalls_act ht (.noteOn pitch)
  rw [VoiceTable.act, hnote] at hcall
  rcases hrun : (p.kernel.clear voice.region.offset).run p.arena with ⟨fault | _, cleared⟩
  · rw [hrun] at hclear
    rw [noteOn_of_fault ht hnote hrun]
    exact h.update hclear.shape hcall _ _ _
  · rw [hrun] at hclear
    rw [noteOn_of_clear ht hnote hrun]
    have hkeys := p.router.changedWithin_startKeys voice.region pitch velocity cleared
    exact h.update (hclear.trans hkeys).shape hcall _ _ _

theorem noteOff (h : p.Polyphonic) (pitch : UInt8) : (p.noteOff pitch).Polyphonic := by
  obtain ⟨t, _, _, ht, -⟩ := h.voices
  cases hplaying : t.playing? pitch with
  | none =>
    rw [noteOff_of_silent ht hplaying]
    exact h
  | some place =>
    obtain ⟨voice, hvoice, -, -, hnote⟩ := VoiceTable.noteOff_of_playing hplaying
    have hcall := h.recalls_act ht (.noteOff pitch)
    rw [VoiceTable.act, hnote] at hcall
    rw [noteOff_of_playing ht hplaying hvoice]
    exact h.update (p.router.changedWithin_setKey voice.region _ _ _).shape hcall _ _ _

theorem allNotesOff (h : p.Polyphonic) : p.allNotesOff.Polyphonic := by
  rcases p.allNotesOff_eq with ⟨-, hsame⟩ | ⟨t, ht, hnotes⟩
  · rw [hsame]
    exact h
  · rw [hnotes]
    refine h.update ?_ (h.recalls_act ht .allNotesOff) _ _ _
    exact List.foldlRecOn _ _ (Arena.ChangedWithin.refl _ _) fun _ hb _ _ =>
      hb.trans (p.router.changedWithin_setKey _ _ _ _).shape

/-- Every command leaves voices in good order, even if it faults. -/
theorem apply (h : p.Polyphonic) (command : Command) : (p.apply command).2.Polyphonic := by
  cases command with
  | noteOn pitch velocity => exact h.noteOn pitch velocity
  | noteOff pitch => exact h.noteOff pitch
  | controlChange controller value =>
    obtain ⟨q, hq, hchange⟩ := p.controlChange_eq controller value
    have hq : q.Polyphonic := by
      rcases hq with rfl | rfl
      · exact h
      · exact h.allNotesOff
    rw [Processor.apply, hchange]
    exact hq.withArena (q.router.changedWithin_setEach _ _ _).shape
  | pitchWheel value => exact h.withArena (p.router.changedWithin_setEach _ _ _).shape
  | setParameter id value => exact h.withArena (p.router.changedWithin_set id value _).shape
  | allNotesOff => exact h.allNotesOff
  | destroy => exact h.update (.refl _ _) h.voices _ _ _

/-- Commands that are taken leave voices in good order, in whatever way the taking ends. -/
theorem drainList (h : p.Polyphonic) (commands : List Command) :
    (p.drainList commands).1.Polyphonic := by
  induction commands generalizing p with
  | nil => exact h
  | cons command rest ih =>
    have hnext := h.apply command
    by_cases hdestroy : command = .destroy
    · subst hdestroy
      exact hnext
    · rcases happly : p.apply command with ⟨fault | _, p'⟩
      · rw [happly] at hnext
        rw [drainList_cons_of_fault happly]
        exact hnext.stopAt fault
      · rw [happly] at hnext
        rw [drainList_cons happly hdestroy]
        exact ih hnext

/-! ### Blocks -/

/-- A block leaves voices in good order, whatever becomes of it. -/
theorem processDrained (h : p.Polyphonic) (inputs outputs : HostBlock)
    (automation : List Automation) :
    (p.processDrained inputs outputs automation).2.2.Polyphonic := by
  have hshape := shape_processDrained
    (writesIn_renderCode h.contained.kernel h.contained.effect) inputs outputs automation
  obtain ⟨arena, halt, rendered, readbacks, hblock⟩ :=
    p.exists_processDrained_eq inputs outputs automation
  rw [hblock] at hshape ⊢
  exact h.update hshape h.voices _ _ _

theorem process (h : p.Polyphonic) (commands : Queue Command) (inputs outputs : HostBlock)
    (automation : List Automation) :
    (p.process commands inputs outputs automation).2.2.1.Polyphonic := by
  by_cases hstopped : p.isStopped = true
  · rw [process_of_isStopped hstopped]
    exact h
  · rw [process_of_running hstopped]
    exact (h.drainList commands.items).processDrained inputs outputs automation

end Polyphonic

end Processor

/-! ### Runs of new processors -/

/-- Every planned arena has an instance of the instrument. -/
theorem LayoutRequest.voiceInstances_ne_nil_of_plan {r : LayoutRequest} {p : MemoryPlan}
    (h : r.plan = .ok p) : p.voiceInstances ≠ [] := by
  rw [← List.length_pos_iff_ne_nil, p.length_voiceInstances, MemoryPlan.instanceCount,
    (answeredBy_of_plan h).polyphony]
  exact Polyphony.instances_ofRequested_pos _

/-- The controls that notes drive lie inside the instances of a description without flaws. -/
theorem ParameterTable.fits_of_keyed? {voice : ModuleMetadata} {effect : Option ModuleMetadata}
    {polyphonic : Bool} {config : EngineConfig} {width : PointerWidth} {plan : MemoryPlan}
    {key : VoiceKey} {b : Binding} (hsound : voice.Sound)
    (hplan : (layoutFor voice effect config width).plan = .ok plan)
    (hb : (build voice effect polyphonic).keyed? key = some b) :
    ∀ region ∈ plan.voiceInstances, b.index + 4 ≤ region.size := by
  intro region hregion
  obtain ⟨id, hid, hb⟩ := Option.bind_eq_some_iff.mp hb
  obtain ⟨b', hb', howned⟩ := (indexed_build _ _ _).keys key id hid
  obtain rfl := Option.some.inj (hb.symm.trans hb')
  simp only [ownedByVoices, Bool.and_eq_true, beq_iff_eq] at howned
  have hscope : b.scope = .voice := howned.1.2
  have hmem : region ∈ (Router.mk plan (build voice effect polyphonic)).regions b.scope := by
    rw [hscope]
    exact hregion
  refine ModuleMetadata.fits_of_sound (fun d hd => ?_) (List.mem_of_getElem? hb) hplan hmem
  rw [hscope] at hd
  obtain rfl := Option.some.inj hd
  exact hsound

namespace Session

variable {m : CompiledModule} {config : EngineConfig} {s : Session}

/-- Voices stay in good order, whatever the host calls. -/
theorem polyphonic_act (h : s.processor.Polyphonic) (call : HostCall) :
    (s.act call).processor.Polyphonic := by
  cases call with
  | process inputs outputs automation =>
    exact h.process s.handle.commands inputs outputs automation
  | poll => exact h.update (.refl _ _) h.voices _ _ _
  | _ => exact h

/-- The voices of a new processor are in good order. -/
theorem polyphonic_of_attach (h : (attach m config).value = .ok s)
    (hpoly : (Polyphony.ofRequested config.voices).isPoly = true) (hsound : m.metadata.Sound)
    (hcontained : s.processor.Contained) : s.processor.Polyphonic := by
  obtain ⟨width, plan, arena, hplan, hrun, rfl⟩ := attach_eq_ok h
  have hasked : plan.polyphony = Polyphony.ofRequested config.voices :=
    (LayoutRequest.answeredBy_of_plan hplan).polyphony
  have hsetup := writesIn_setupCode hcontained.kernel hcontained.effect plan config.sampleRate
    plan.arena
  have hshape : arena.size = plan.arena.size :=
    (congrArg (fun x => x.2.size) hrun).symm.trans hsetup.size_eq
  have hvoices : VoiceTable.ofPlan? plan = some (.ofRegions plan.voiceInstances) :=
    if_pos (hasked ▸ hpoly)
  exact ⟨hcontained, LayoutRequest.wellFormed_of_plan hplan, hshape.trans plan.size_arena,
    LayoutRequest.voiceInstances_ne_nil_of_plan hplan,
    fun key b hb => ParameterTable.fits_of_keyed? hsound hplan hb,
    ⟨_, _, _, hvoices, VoiceTable.recalls_ofRegions _⟩⟩

theorem polyphonic_run (h : s.processor.Polyphonic) (calls : List HostCall) :
    (s.run calls).processor.Polyphonic :=
  run_induction (fun s => s.processor.Polyphonic) (fun _ call _ hs => polyphonic_act hs call) h

end Session

end DspHost
