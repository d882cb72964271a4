import DspHost.Proofs.Engine.Run
import DspHost.Proofs.Programs.HostedOrgan

/-!
# Gates and voices

A voice is active exactly while its gate is open. The voice table and the arena are written by
different code, so this is an invariant of both: a note that begins writes one voice and its gate, a
note that ends closes both, and nothing else reaches a gate. Messages reach bound controls only, and
a host cannot set what belongs to the voices.

## Main definitions

* `VoiceState.gate` — the gate of a voice in a state
* `Router.GateAt` — a gate that nothing overlaps and no message moves
* `Processor.Gates` — every gate is as its voice says

## Main results

* `Processor.Ready.gates_noteOn`, `Processor.Ready.gates_noteOff`,
  `Processor.Ready.gates_allNotesOff` — notes keep gates and voices together
* `Processor.Gated.apply`, `Processor.Gated.process` — commands and blocks do
* `Session.gates_of_attach` — gates and voices agree after any calls
-/

namespace DspHost

/-- The gate of a voice in a state. -/
def VoiceState.gate : VoiceState → Single
  | .active _ => .one
  | .free => .zero
  | .releasing => .zero

/-- A command that does not set what belongs to the voices. -/
def Command.Free (t : ParameterTable) : Command → Prop
  | .setParameter id _ => t.isVoiceManaged id = false
  | _ => True

/-- No event resolves to a command that sets what belongs to the voices. -/
theorem Event.free_of_command {t : ParameterTable} {event : Event} {command : Command}
    (h : event.command t = .ok command) : command.Free t := by
  cases event with
  | noteOn channel pitch velocity =>
    obtain rfl := Except.ok.inj h
    split_ifs <;> trivial
  | parameterSet path value =>
    -- The handle refuses meters and what belongs to the voices.
    change setCommand t path value = .ok command at h
    unfold setCommand at h
    split at h
    · cases h
    · split_ifs at h with houtput hmanaged
      obtain rfl := Except.ok.inj h
      exact eq_false_of_ne_true hmanaged
  | _ =>
    obtain rfl := Except.ok.inj h
    trivial

namespace Router

/-- A gate that has no byte in common with other controls of the voices, that no message moves, and
that module code minds. -/
structure GateAt (r : Router) (fields : Scope → List (ℕ × Single)) (id : BindingId) (b : Binding) :
    Prop where
  key : r.table.keys.get? .gate = some id
  binding : r.table.get? id = some b
  unbound : b.midi = .unbound
  alone : ∀ id' b', id' ≠ id → r.table.get? id' = some b' → b'.scope = .voice → b'.Apart b
  fits : ∀ region ∈ r.regions .voice, b.index + 4 ≤ region.size
  minded : (b.index, .zero) ∈ fields .voice

variable {r : Router} {fields : Scope → List (ℕ × Single)} {id : BindingId} {b : Binding}
  {a : Arena} {value : Single} {region other : InstanceRegion}

namespace GateAt

/-- Other controls miss the gate. -/
theorem misses (h : r.GateAt fields id b) {id' : BindingId} (hne : id' ≠ id) :
    r.Misses id' .voice b.index :=
  fun b' hb' hscope => h.alone id' b' hne hb' hscope

/-- The gate belongs to the voices. -/
theorem owned (h : r.GateAt fields id b) (hindexed : r.table.Indexed) :
    r.table.ownedByVoices b = true := by
  obtain ⟨b', hb', howned⟩ := hindexed.keys .gate id h.key
  obtain rfl := Option.some.inj (h.binding.symm.trans hb')
  exact howned

/-- A control that does not belong to the voices is not the gate. -/
theorem ne_of_not_managed (h : r.GateAt fields id b) (hindexed : r.table.Indexed)
    {id' : BindingId} (hfree : r.table.isVoiceManaged id' = false) : id' ≠ id := by
  rintro rfl
  rw [ParameterTable.isVoiceManaged, h.binding, Option.any_some, h.owned hindexed] at hfree
  cases hfree

/-- A control that a host may automate is not the gate. -/
theorem ne_of_isAutomatable (h : r.GateAt fields id b) (hindexed : r.table.Indexed)
    {id' : BindingId} (hfree : r.table.isAutomatable id' = true) : id' ≠ id := by
  rintro rfl
  rw [ParameterTable.isAutomatable, h.binding, Option.any_some, ParameterTable.accepts,
    h.owned hindexed] at hfree
  simp at hfree

/-- A control that a controller moves is not the gate. -/
theorem ne_of_mem_controller (h : r.GateAt fields id b) (hindexed : r.table.Indexed)
    {number : UInt8} {id' : BindingId} (hid : id' ∈ r.table.controller number) : id' ≠ id := by
  rintro rfl
  obtain ⟨b', hb', hmidi⟩ := hindexed.controller number id' hid
  obtain rfl := Option.some.inj (h.binding.symm.trans hb')
  exact absurd (h.unbound.symm.trans hmidi) (by simp)

/-- A control that the pitch wheel moves is not the gate. -/
theorem ne_of_mem_wheel (h : r.GateAt fields id b) (hindexed : r.table.Indexed)
    {id' : BindingId} (hid : id' ∈ r.table.wheel) : id' ≠ id := by
  rintro rfl
  obtain ⟨b', hb', hmidi⟩ := hindexed.wheel id' hid
  obtain rfl := Option.some.inj (h.binding.symm.trans hb')
  exact absurd (h.unbound.symm.trans hmidi) (by simp)

/-- Writing the gate of a voice is writing one field. -/
theorem setKey_eq (h : r.GateAt fields id b) (region : InstanceRegion) (value : Single)
    (a : Arena) : r.setKey region .gate value a = a.writeField region b.index value := by
  simp [setKey, h.key, setOnVoice, h.binding]

/-- Closing gates is writing one field of several instances. -/
theorem closeGates_eq (h : r.GateAt fields id b) (voices : List Voice) (a : Arena) :
    r.closeGates voices a = a.writeFields (voices.map (·.region)) b.index .zero := by
  rw [Arena.writeFields, List.foldl_map]
  unfold closeGates
  simp only [h.setKey_eq]

end GateAt

end Router

namespace Processor

variable {p p' : Processor} {rate : ℕ} {fields : Scope → List (ℕ × Single)} {id : BindingId}
  {b : Binding}

/-- Every gate is as its voice says. -/
def Gates (p : Processor) (b : Binding) : Prop :=
  ∃ t, p.voices = some t ∧ ∀ (place : ℕ) (voice : Voice), t.voices[place]? = some voice →
    p.arena.readField? voice.region b.index = some voice.state.gate

/-- Gates and voices agree if the voices are as before and the gates hold what they held. -/
theorem Gates.congr (h : p.Gates b) (hready : p.Ready rate fields) (hvoices : p'.voices = p.voices)
    (hkept : ∀ region ∈ p.router.regions .voice,
      p'.arena.readField? region b.index = p.arena.readField? region b.index) : p'.Gates b := by
  obtain ⟨t, ht, hheld⟩ := h
  refine ⟨t, hvoices.trans ht, fun place voice hvoice => ?_⟩
  rw [hkept voice.region (hready.region_mem ht hvoice)]
  exact hheld place voice hvoice

theorem keeps_gate (hgate : p.router.GateAt fields id b) {region : InstanceRegion}
    (hregion : region ∈ p.router.regions .voice) : p.Keeps fields .voice region b.index :=
  ⟨hregion, hgate.fits region hregion, .zero, hgate.minded⟩

/-! ### Notes -/

/-- Gates and voices agree after one voice was changed, if its gate was written and nothing else was
written outside its instance. -/
theorem Gates.modify (h : p.Gates b) (hready : p.Ready rate fields)
    (hgate : p.router.GateAt fields id b) {t t' : VoiceTable} {place : ℕ} {voice : Voice}
    {change : Voice → Voice} (ht : p.voices = some t) (hvoice : t.voices[place]? = some voice)
    (ht' : t'.voices = t.voices.modify place change)
    (hregion : (change voice).region = voice.region)
    {cleared arena : Arena}
    (hcleared : Arena.ChangedWithin (p.router.reserved fields)ᶜ p.arena cleared)
    (hchange : Arena.ChangedWithin voice.region.footprint cleared arena)
    (hwritten : arena.readField? voice.region b.index = some (change voice).state.gate) :
    ({ p with voices := some t', arena } : Processor).Gates b := by
  obtain ⟨_, hsame, hheld⟩ := h
  obtain rfl := Option.some.inj (ht.symm.trans hsame)
  refine ⟨t', rfl, fun j voice' hvoice' => ?_⟩
  rw [ht'] at hvoice'
  rcases VoiceTable.getElem?_modify_cases hvoice' with ⟨rfl, old, hold, rfl⟩ | ⟨hne, hvoice'⟩
  · obtain rfl := Option.some.inj (hvoice.symm.trans hold)
    rw [hregion]
    exact hwritten
  · -- Another voice has another instance, and its gate is minded by the code that clears this one.
    have hmem := hready.region_mem ht hvoice'
    have hseated := hready.seated t ht
    have hapart := hready.wellFormed.disjoint_footprint (hseated.region_eq hvoice')
      (hseated.region_eq hvoice) hne
    have hfree := hapart.mono_left (voice'.region.fieldSpan_subset (hgate.fits _ hmem))
    refine (hchange.readField?_eq hfree).trans ?_
    exact (Ready.readField?_of_reserved (keeps_gate hgate hmem) hcleared).trans
      (hheld j voice' hvoice')

/-- A note that begins opens the gate of the voice that it starts. -/
theorem Ready.gates_noteOn (hready : p.Ready rate fields) (hgate : p.router.GateAt fields id b)
    (h : p.Gates b) (pitch velocity : UInt8) : (p.noteOn pitch velocity).2.Gates b := by
  rcases hready.noteOn_eq pitch velocity with hsame |
    ⟨place, voice, t, t', cleared, ht, hvoice, ht', hcleared, hnote⟩
  · rw [hsame]
    exact h
  · have hregion := hready.region_mem ht hvoice
    have hhosts := hready.hosts_of_reserved hready.hosts hcleared
    rw [hnote]
    refine h.modify hready hgate ht hvoice ht' rfl hcleared
      (p.router.changedWithin_startKeys voice.region pitch velocity cleared) ?_
    -- The gate is opened last, so no other key can write over it.
    rw [Router.startKeys, hgate.setKey_eq]
    refine Arena.readField?_writeField (hgate.fits _ hregion) ?_ .one
    have hkeys := ((p.router.changedWithin_setKey voice.region .freq (noteFrequency pitch)
      cleared).trans (p.router.changedWithin_setKey voice.region .gain (velocityGain velocity) _))
    rw [hkeys.size_eq, hhosts.size_eq]
    exact @Router.region_le_arenaSize p.router _ _ hready.wellFormed hregion

/-- A note that ends closes the gate of the voice that it closes. -/
theorem Ready.gates_noteOff (hready : p.Ready rate fields) (hgate : p.router.GateAt fields id b)
    (h : p.Gates b) (pitch : UInt8) : (p.noteOff pitch).Gates b := by
  rcases p.noteOff_eq pitch with hsame | ⟨place, voice, t, t', ht, hvoice, ht', hnote⟩
  · rw [hsame]
    exact h
  · have hregion := hready.region_mem ht hvoice
    rw [hnote]
    refine h.modify hready hgate ht hvoice ht' rfl (.refl _ _)
      (p.router.changedWithin_setKey voice.region .gate .zero p.arena) ?_
    rw [hgate.setKey_eq]
    refine Arena.readField?_writeField (hgate.fits _ hregion) ?_ .zero
    rw [hready.hosts.size_eq]
    exact @Router.region_le_arenaSize p.router _ _ hready.wellFormed hregion

/-- The end of all notes closes every gate. -/
theorem Ready.gates_allNotesOff (hready : p.Ready rate fields)
    (hgate : p.router.GateAt fields id b) (h : p.Gates b) : p.allNotesOff.Gates b := by
  rcases p.allNotesOff_eq with ⟨-, hsame⟩ | ⟨t, ht, hnotes⟩
  · rw [hsame]
    exact h
  · have hseated := (hready.seated t ht).allNotesOff
    have hregions : ∀ region ∈ t.allNotesOff.voices.map (·.region),
        region ∈ p.router.regions .voice := by
      rw [hseated]
      exact fun _ hmem => hmem
    rw [hnotes]
    refine ⟨t.allNotesOff, rfl, fun place voice hvoice => ?_⟩
    have hmem := List.mem_of_getElem? hvoice
    -- No voice is active any more, whatever it was before.
    have hclosed : voice.state.gate = .zero := by
      obtain ⟨old, -, rfl⟩ := List.mem_map.mp hmem
      rfl
    rw [hgate.closeGates_eq, hclosed]
    refine Arena.readField?_writeFields (fun x hx => hgate.fits x (hregions x hx))
      (fun x hx => ?_) (fun x hx y hy => ?_) _ (List.mem_map_of_mem hmem)
    · rw [hready.hosts.size_eq]
      exact @Router.region_le_arenaSize p.router _ _ hready.wellFormed (hregions x hx)
    · exact (@Router.regions_apart p.router _ _ _ _ hready.wellFormed (hregions x hx)
        (hregions y hy)).imp_left And.right

/-! ### Commands -/

/-- Gates stay as they are when other controls are written. -/
theorem Gates.setEach (h : p.Gates b) (hready : p.Ready rate fields)
    (hgate : p.router.GateAt fields id b) {ids : List BindingId} (hne : ∀ id' ∈ ids, id' ≠ id)
    (value : Binding → Single) : (p.mapArena (p.router.setEach value ids)).Gates b := by
  refine h.congr hready rfl fun region hregion => ?_
  exact Router.readField?_setEach_of_misses hready.wellFormed hregion (hgate.fits region hregion)
    (fun id' hid => hgate.misses (hne id' hid)) value p.arena

/-- Commands that do not set what belongs to the voices keep gates and voices together. -/
theorem Ready.gates_apply (hready : p.Ready rate fields) (hgate : p.router.GateAt fields id b)
    (h : p.Gates b) {command : Command} (hfree : command.Free p.table) :
    (p.apply command).2.Gates b := by
  cases command with
  | noteOn pitch velocity => exact hready.gates_noteOn hgate h pitch velocity
  | noteOff pitch => exact hready.gates_noteOff hgate h pitch
  | controlChange controller value =>
    -- A panic controller ends all notes first, and moving what is bound to it reaches no gate.
    obtain ⟨q, hplayed, hq, hchange⟩ := hready.played_controlChange controller value
    have hheld : q.Gates b := by
      rcases hq with rfl | rfl
      · exact h
      · exact hready.gates_allNotesOff hgate h
    have hrouter := hplayed.router_eq
    change (p.controlChange controller value).Gates b
    rw [hchange]
    refine hheld.setEach (hready.of_played hplayed) (hrouter ▸ hgate) (fun id' hid => ?_) _
    rw [hrouter] at hid
    exact hgate.ne_of_mem_controller hready.indexed hid
  | pitchWheel value =>
    exact h.setEach hready hgate (fun id' hid => hgate.ne_of_mem_wheel hready.indexed hid) _
  | setParameter id' value =>
    refine h.congr hready rfl fun region hregion => ?_
    exact Router.readField?_set_of_misses hready.wellFormed hregion (hgate.fits region hregion)
      (hgate.misses (hgate.ne_of_not_managed hready.indexed hfree))
  | allNotesOff => exact hready.gates_allNotesOff hgate h
  | destroy => exact h

/-- A processor in a run whose gates are as its voices say, with the commands that are pending. -/
structure Gated (p : Processor) (rate : ℕ) (fields : Scope → List (ℕ × Single)) (id : BindingId)
    (b : Binding) (pending : List Command) : Prop where
  ready : p.Ready rate fields
  gate : p.router.GateAt fields id b
  gates : p.Gates b
  free : ∀ command ∈ pending, command.Free p.table

variable {pending : List Command}

/-- Taking a command from the queue keeps gates and voices together. -/
theorem Gated.apply {command : Command} {rest : List Command}
    (h : p.Gated rate fields id b (command :: rest)) :
    ∃ p', p.apply command = (.ok (), p') ∧ p'.router = p.router ∧
      p'.Gated rate fields id b rest := by
  have hheld := h.ready.gates_apply h.gate h.gates (h.free command List.mem_cons_self)
  obtain ⟨p', happly, hready, hrouter, -⟩ := h.ready.apply command
  have htable : p'.table = p.table := congrArg Router.table hrouter
  rw [happly] at hheld
  refine ⟨p', happly, hrouter, hready, hrouter ▸ h.gate, hheld, fun other hother => ?_⟩
  rw [htable]
  exact h.free other (List.mem_cons_of_mem command hother)

/-- Automation cannot reach a gate. -/
theorem Gated.automationMisses (h : p.Gated rate fields id b pending)
    (automation : List Automation) : p.AutomationMisses automation .voice b.index := by
  intro item _ id' hid
  obtain ⟨-, hauto⟩ := Option.filter_eq_some_iff.mp hid
  exact h.gate.misses (h.gate.ne_of_isAutomatable h.ready.indexed hauto)

/-- A block keeps gates and voices together, whatever its automation. -/
theorem Gated.processDrained (h : p.Gated rate fields id b pending) (inputs outputs : HostBlock)
    (automation : List Automation) :
    (p.processDrained inputs outputs automation).2.2.router = p.router ∧
      (p.processDrained inputs outputs automation).2.2.Gated rate fields id b pending := by
  obtain ⟨p', hblock, hready, hrouter, hvoices, -, hkept⟩ :=
    h.ready.processDrained inputs outputs automation
  have htable : p'.table = p.table := congrArg Router.table hrouter
  rw [hblock]
  refine ⟨hrouter, hready, hrouter ▸ h.gate, ?_, ?_⟩
  · refine h.gates.congr h.ready hvoices fun region hregion => ?_
    exact hkept .voice region b.index (keeps_gate h.gate hregion) (h.automationMisses automation)
  · rw [htable]
    exact h.free

theorem Gated.process {commands : Queue Command} (h : p.Gated rate fields id b commands.items)
    (inputs outputs : HostBlock) (automation : List Automation) :
    (p.process commands inputs outputs automation).2.2.1.router = p.router ∧
      (p.process commands inputs outputs automation).2.2.1.Gated rate fields id b
        (p.process commands inputs outputs automation).2.2.2.items := by
  refine process_induction
    (fun q pending => q.router = p.router ∧ q.Gated rate fields id b pending)
    (fun q command rest hq => ?_) (fun q pending hq => ?_) ⟨rfl, h⟩
  · obtain ⟨q', happly, hrouter, hgated⟩ := hq.2.apply
    exact ⟨q', happly, hrouter.trans hq.1, hgated⟩
  · obtain ⟨hrouter, hblock⟩ := hq.2.processDrained inputs outputs automation
    exact ⟨hrouter.trans hq.1, hblock⟩

end Processor

namespace Session

variable {s : Session} {rate : ℕ} {fields : Scope → List (ℕ × Single)} {id : BindingId}
  {b : Binding}

/-- The invariant of a run: gates are as voices say, and nothing that is pending sets one. -/
structure Gated (s : Session) (rate : ℕ) (fields : Scope → List (ℕ × Single)) (id : BindingId)
    (b : Binding) : Prop where
  table : s.handle.table = s.processor.table
  gated : s.processor.Gated rate fields id b s.handle.commands.items

/-- Sending an event keeps the invariant, whether it is delivered or not. -/
theorem Gated.send (h : s.Gated rate fields id b) (event : Event) :
    (s.withHandle (s.handle.send event).value.2).Gated rate fields id b := by
  rcases s.handle.send_cases event with hsame | ⟨command, hcommand, hsent⟩
  · rw [hsame]
    exact h
  · rw [hsent]
    refine ⟨(Handle.table_keep _ _).trans h.table, h.gated.ready, h.gated.gate, h.gated.gates,
      fun other hother => ?_⟩
    rcases List.mem_append.mp hother with hold | hnew
    · exact h.gated.free other hold
    · obtain rfl := List.mem_singleton.mp hnew
      rw [h.table] at hcommand
      exact Event.free_of_command hcommand

/-- Every call keeps the invariant. -/
theorem Gated.act (h : s.Gated rate fields id b) (call : HostCall) :
    (s.act call).Gated rate fields id b := by
  cases call with
  | send event => exact h.send event
  | midi bytes =>
    rcases s.act_midi_cases bytes with hsame | ⟨event, hevent⟩
    · rw [hsame]
      exact h
    · rw [hevent]
      exact h.send event
  | poll =>
    exact ⟨h.table, h.gated.ready.withStatus _ _ _, h.gated.gate, h.gated.gates, h.gated.free⟩
  | process inputs outputs automation =>
    obtain ⟨hrouter, hgated⟩ := h.gated.process inputs outputs automation
    exact ⟨h.table.trans (congrArg Router.table hrouter).symm, hgated⟩

end Session

/-! ### Runs of new processors -/

/-- The field of a gate, which is closed at first. -/
def Binding.gateFields (b : Binding) : Scope → List (ℕ × Single)
  | .voice => [(b.index, .zero)]
  | .effect => []

variable {m : CompiledModule} {config : EngineConfig} {s : Session} {id : BindingId} {b : Binding}

/-- A table with a gate belongs to a processor with voices. -/
theorem isPoly_of_attach (h : (attach m config).value = .ok s)
    (howned : s.processor.table.ownedByVoices b = true) :
    s.processor.plan.polyphony.isPoly = true := by
  obtain ⟨width, plan, arena, hplan, -, rfl⟩ := attach_eq_ok h
  simp only [ParameterTable.ownedByVoices, Bool.and_eq_true] at howned
  have hpolyphonic : (Polyphony.ofRequested config.voices).isPoly = true :=
    (ParameterTable.polyphonic_build _ _ _).symm.trans howned.1.1
  change plan.polyphony.isPoly = true
  rw [(LayoutRequest.answeredBy_of_plan hplan).polyphony]
  exact hpolyphonic

/-- In a new processor voices are free and their gates are closed. -/
theorem gated_of_attach (h : (attach m config).value = .ok s)
    (hkey : s.processor.table.keys.get? .gate = some id)
    (hb : s.processor.table.get? id = some b) (hmidi : b.midi = .unbound)
    (halone : ∀ id' b', id' ≠ id → s.processor.table.get? id' = some b' → b'.scope = .voice →
      b'.Apart b)
    (hminds : s.processor.Minds config.sampleRate b.gateFields) :
    s.Gated config.sampleRate b.gateFields id b := by
  obtain ⟨hready, hstored⟩ := ready_of_attach h hminds
  obtain ⟨b', hb', howned⟩ := hready.indexed.keys .gate id hkey
  obtain rfl := Option.some.inj (hb.symm.trans hb')
  have hfield : (b.index, .zero) ∈ b.gateFields .voice := List.mem_singleton.mpr rfl
  have hfits : ∀ region ∈ s.processor.router.regions .voice, b.index + 4 ≤ region.size :=
    fun region hregion => fits_of_readField? (hstored .voice region hregion _ hfield)
  have hpoly := isPoly_of_attach h howned
  have hgate : s.processor.router.GateAt b.gateFields id b :=
    ⟨hkey, hb, hmidi, halone, hfits, hfield⟩
  obtain ⟨width, plan, arena, -, -, rfl⟩ := attach_eq_ok h
  have hvoices : VoiceTable.ofPlan? plan = some (.ofRegions plan.voiceInstances) := if_pos hpoly
  refine ⟨rfl, hready, hgate, ⟨_, hvoices, fun place voice hvoice => ?_⟩,
    fun command hcommand => (List.not_mem_nil hcommand).elim⟩
  obtain ⟨region, hregion, rfl⟩ := List.mem_map.mp (List.mem_of_getElem? hvoice)
  exact hstored .voice region hregion _ hfield

/-- Every voice has an instance whose gate is one while the voice is active, and zero while it is
free or releasing. -/
def Processor.Voiced (p : Processor) (b : Binding) : Prop :=
  ∃ t, p.voices = some t ∧ ∀ i < p.plan.instanceCount, ∃ region voice,
    p.plan.voiceInstance? i = some region ∧ t.voices[i]? = some voice ∧
      p.arena.readField? region b.index = some voice.state.gate

theorem Processor.Gated.voiced {p : Processor} {rate : ℕ} {fields : Scope → List (ℕ × Single)}
    {pending : List Command} (h : p.Gated rate fields id b pending) : p.Voiced b := by
  obtain ⟨t, ht, hheld⟩ := h.gates
  have hseated := h.ready.seated t ht
  refine ⟨t, ht, fun i hi => ?_⟩
  rw [← hseated.length_eq] at hi
  have hvoice := List.getElem?_eq_getElem hi
  exact ⟨_, _, hseated.region_eq hvoice, hvoice, hheld i _ hvoice⟩

/-- Gates and voices never diverge: after any calls with any automation, the gate of a voice is one
if the voice is active, and zero if it is free or releasing. -/
theorem Session.gates_of_attach (calls : List HostCall) (h : (attach m config).value = .ok s)
    (hkey : s.processor.table.keys.get? .gate = some id)
    (hb : s.processor.table.get? id = some b) (hmidi : b.midi = .unbound)
    (halone : ∀ id' b', id' ≠ id → s.processor.table.get? id' = some b' → b'.scope = .voice →
      b'.Apart b)
    (hminds : s.processor.Minds config.sampleRate b.gateFields) :
    (s.run calls).processor.Voiced b := by
  have hgated := gated_of_attach h hkey hb hmidi halone hminds
  have hrun : (s.run calls).Gated config.sampleRate b.gateFields id b :=
    Session.run_induction (fun s' => s'.Gated config.sampleRate b.gateFields id b)
      (fun s' call _ hs' => hs'.act call) hgated
  exact hrun.gated.voiced

/-- The organ with eight voices, after a note began and automation tried to close its gate. -/
theorem Session.gates_of_attach_organ : ∃ s b, (attach organModule organConfig).value = .ok s ∧
    s.processor.table.get? 2 = some b ∧
      (s.run [.send (.noteOn 0 60 100), .process [] [List.replicate 128 .zero]
        [⟨"/organ/gate", .zero⟩]]).processor.Voiced b := by
  obtain ⟨plan, arena, hattach, hminds⟩ := attach_organ
  obtain ⟨b, hb, hindex, hscope, hmidi⟩ : ∃ b, (hostedTable organModule 8).get? 2 = some b ∧
      b.index = Organ.gate ∧ b.scope = .voice ∧ b.midi = .unbound := by
    exact ⟨_, rfl, rfl, rfl, by decide⟩
  have hkey : (hostedTable organModule 8).keys.get? .gate = some 2 := by decide
  refine ⟨_, b, hattach, hb, Session.gates_of_attach _ hattach hkey hb hmidi
    (fun id' b' hne hb' hscope' => ?_) (hminds.mono fun scope => ?_)⟩
  · exact ParameterTable.apart_of_build (fun scope d => fieldsApart_organ) hne hb' hb
      (hscope'.trans hscope.symm)
  · cases scope with
    | voice =>
      rw [Binding.gateFields, hindex]
      simp [organFields, Organ.inputs]
    | effect => exact List.nil_subset _

end DspHost
