import DspHost.Proofs.Engine.Run
import DspHost.Proofs.Programs.HostedOrgan

/-!
# The handle shows what the audio uses

An event is interpreted twice: by the handle when it is sent, and by the processor when it is taken
from the queue. Between the two lie the pending commands. The invariant of a run therefore speaks of
the values that the instances hold, and says that the handle shows what these become once the
pending commands are applied to them as well. When nothing is pending, the two are the same.

Only the controls count that a host may write: meters are read back, and what notes drive differs
from voice to voice.

## Main definitions

* `ParameterTable.valuesAfter` — the values of the controls after a command
* `Router.Tidy` — controls that do not overlap, with inputs that are minded
* `Router.Holds` — instances that hold the values of the controls
* `Session.Mirrored` — the invariant of a run

## Main results

* `Processor.Ready.holds_apply` — the processor applies a command as the handle has
* `Session.Mirrored.act` — every call without automation keeps the invariant
* `Session.agrees_of_attach` — what the handle shows is what every instance holds
-/

namespace DspHost

/-! ### Values after a command -/

namespace ParameterTable

variable {t : ParameterTable} {xs ys : List Single} {id : BindingId}

/-- Stores the value of every control in a list. -/
def storeEach (t : ParameterTable) (value : Binding → Single) (ids : List BindingId)
    (values : List Single) : List Single :=
  ids.foldl (fun values id =>
    match t.get? id with
    | some b => values.set id (value b)
    | none => values) values

/-- A host may write inputs only. -/
theorem isOutput_of_accepts {b : Binding} (h : t.accepts b = true) : b.isOutput = false := by
  simp only [accepts, Bool.and_eq_true, Bool.not_eq_true'] at h
  exact h.1

/-- The values of the controls after a command. -/
def valuesAfter (t : ParameterTable) (values : List Single) : Command → List Single
  | .controlChange controller value =>
    t.storeEach (·.remapController value) (t.controller controller) values
  | .pitchWheel value => t.storeEach (·.remapWheel value) t.wheel values
  | .setParameter id value => values.set id value
  | _ => values

theorem storeEach_cons_of_some {b : Binding} (h : t.get? id = some b) (value : Binding → Single)
    (rest : List BindingId) (values : List Single) :
    t.storeEach value (id :: rest) values = t.storeEach value rest (values.set id (value b)) := by
  rw [storeEach, List.foldl_cons, h, storeEach]

theorem storeEach_cons_of_none (h : t.get? id = none) (value : Binding → Single)
    (rest : List BindingId) (values : List Single) :
    t.storeEach value (id :: rest) values = t.storeEach value rest values := by
  rw [storeEach, List.foldl_cons, h, storeEach]

/-- Values that agree in one place still do after something was stored. -/
theorem getElem?_set_congr {place : ℕ} (h : xs[place]? = ys[place]?) (id : BindingId)
    (value : Single) : (xs.set id value)[place]? = (ys.set id value)[place]? := by
  rw [List.getElem?_set', List.getElem?_set', h]

theorem getElem?_storeEach_congr {place : ℕ} (h : xs[place]? = ys[place]?)
    (value : Binding → Single) (ids : List BindingId) :
    (t.storeEach value ids xs)[place]? = (t.storeEach value ids ys)[place]? := by
  induction ids generalizing xs ys with
  | nil => exact h
  | cons id rest ih =>
    cases hid : t.get? id with
    | none =>
      rw [storeEach_cons_of_none hid, storeEach_cons_of_none hid]
      exact ih h
    | some b =>
      rw [storeEach_cons_of_some hid, storeEach_cons_of_some hid]
      exact ih (getElem?_set_congr h id _)

/-- Values that agree in one place still do after a command. -/
theorem getElem?_valuesAfter_congr {place : ℕ} (h : xs[place]? = ys[place]?) (command : Command) :
    (t.valuesAfter xs command)[place]? = (t.valuesAfter ys command)[place]? := by
  cases command with
  | controlChange controller value => exact getElem?_storeEach_congr h _ _
  | pitchWheel value => exact getElem?_storeEach_congr h _ _
  | setParameter id value => exact getElem?_set_congr h id value
  | _ => exact h

end ParameterTable

theorem Handle.values_keep (h : Handle) (command : Command) :
    (h.keep command).values = h.table.valuesAfter h.values command := by
  cases command <;> rfl

/-! ### Values that instances hold -/

namespace Router

variable {r : Router} {fields : Scope → List (ℕ × Single)} {a b : Arena} {values : List Single}

/-- Controls that do not overlap, where inputs lie inside their instances and are minded by module
code. -/
structure Tidy (r : Router) (fields : Scope → List (ℕ × Single)) : Prop where
  fits : ∀ id b, r.table.get? id = some b → b.isOutput = false → ∀ region ∈ r.regions b.scope,
    b.index + 4 ≤ region.size
  apart : ∀ id id' b b', id ≠ id' → r.table.get? id = some b → r.table.get? id' = some b' →
    b.scope = b'.scope → b.Apart b'
  minded : ∀ id b, r.table.get? id = some b → b.isOutput = false →
    (b.index, b.default) ∈ fields b.scope

/-- Instances hold the values of the controls that a host may write. -/
def Holds (r : Router) (a : Arena) (values : List Single) : Prop :=
  ∀ id b, r.table.get? id = some b → r.table.accepts b = true →
    ∃ value, values[id]? = some value ∧
      ∀ region ∈ r.regions b.scope, a.readField? region b.index = some value

/-- Different controls miss each other. -/
theorem Tidy.misses (h : r.Tidy fields) {id id' : BindingId} {b' : Binding} (hne : id ≠ id')
    (hb' : r.table.get? id' = some b') : r.Misses id b'.scope b'.index :=
  fun b hb hscope => h.apart id id' b b' hne hb hb' hscope

/-- Storing a value in a list is what writing the control is in the instances. -/
theorem Holds.set (h : r.Holds a values) (htidy : r.Tidy fields) (hwell : r.plan.WellFormed)
    (hsize : a.size = r.plan.arenaSize) (id : BindingId) (value : Single) :
    r.Holds (r.set id value a) (values.set id value) := by
  intro id' b' hb' haccepts
  obtain ⟨old, hold, hstored⟩ := h id' b' hb' haccepts
  have hfits := htidy.fits id' b' hb' (ParameterTable.isOutput_of_accepts haccepts)
  -- The control that is written holds the new value, and every other one misses it.
  by_cases heq : id = id'
  · subst heq
    refine ⟨value, ?_, readField?_set hwell hsize hb' hfits⟩
    rw [List.getElem?_set', if_pos rfl, hold]
    rfl
  · refine ⟨old, ?_, fun region hregion => ?_⟩
    · rw [List.getElem?_set', if_neg heq, hold]
    · rw [readField?_set_of_misses hwell hregion (hfits region hregion) (htidy.misses heq hb')]
      exact hstored region hregion

theorem Holds.setEach (h : r.Holds a values) (htidy : r.Tidy fields) (hwell : r.plan.WellFormed)
    (hsize : a.size = r.plan.arenaSize) (value : Binding → Single) (ids : List BindingId) :
    r.Holds (r.setEach value ids a) (r.table.storeEach value ids values) := by
  -- The list that the handle keeps and the arena are written side by side.
  induction ids generalizing a values with
  | nil => exact h
  | cons id rest ih =>
    cases hid : r.table.get? id with
    | none =>
      rw [setEach_cons_of_none hid, ParameterTable.storeEach_cons_of_none hid]
      exact ih h hsize
    | some b =>
      rw [setEach_cons_of_some hid, ParameterTable.storeEach_cons_of_some hid]
      refine ih (h.set htidy hwell hsize id (value b)) ?_
      rw [size_set, hsize]

/-- What notes drive misses every control that a host may write. -/
theorem Tidy.missedByNotes (h : r.Tidy fields) (hindexed : r.table.Indexed) {id : BindingId}
    {b : Binding} (hb : r.table.get? id = some b) (haccepts : r.table.accepts b = true) :
    r.MissedByNotes b.scope b.index := by
  intro hscope key id' b' hkey hb'
  obtain ⟨owned, howned, hvoices⟩ := hindexed.keys key id' hkey
  obtain rfl := Option.some.inj (hb'.symm.trans howned)
  have hvoice : b'.scope = .voice := by
    simp only [ParameterTable.ownedByVoices, Bool.and_eq_true, beq_iff_eq] at hvoices
    exact hvoices.1.2
  -- What a key leads to belongs to the voices, so a host may not write it.
  have hne : id' ≠ id := by
    rintro rfl
    obtain rfl := Option.some.inj (hb.symm.trans hb')
    simp [ParameterTable.accepts, hvoices] at haccepts
  exact h.misses hne hb b' hb' (hvoice.trans hscope.symm)

end Router

namespace Processor

variable {p p' : Processor} {rate : ℕ} {fields : Scope → List (ℕ × Single)} {values : List Single}

/-- The field of a control that a host may write is minded in every instance. -/
theorem keeps_of_accepts (htidy : p.router.Tidy fields) {id : BindingId} {b : Binding}
    (hb : p.table.get? id = some b) (haccepts : p.table.accepts b = true) {region : InstanceRegion}
    (hregion : region ∈ p.router.regions b.scope) : p.Keeps fields b.scope region b.index := by
  have hinput := ParameterTable.isOutput_of_accepts haccepts
  exact ⟨hregion, htidy.fits id b hb hinput region hregion, b.default,
    htidy.minded id b hb hinput⟩

/-- Notes keep what instances hold. -/
theorem Played.holds (h : p.Played p' fields) (hindexed : p.table.Indexed)
    (htidy : p.router.Tidy fields) (hholds : p.router.Holds p.arena values) :
    p.router.Holds p'.arena values := by
  intro id b hb haccepts
  obtain ⟨value, hvalue, hstored⟩ := hholds id b hb haccepts
  refine ⟨value, hvalue, fun region hregion => ?_⟩
  have hkeeps := keeps_of_accepts htidy hb haccepts hregion
  have hmiss := htidy.missedByNotes hindexed hb haccepts
  exact (h.kept b.scope region b.index hkeeps hmiss).trans (hstored region hregion)

/-- The processor applies a command as the handle has. -/
theorem Ready.holds_apply (h : p.Ready rate fields) (htidy : p.router.Tidy fields)
    (hholds : p.router.Holds p.arena values) (command : Command) :
    p.router.Holds (p.apply command).2.arena (p.table.valuesAfter values command) := by
  cases command with
  | noteOn pitch velocity =>
    obtain ⟨p', hnote, hplayed⟩ := h.played_noteOn pitch velocity
    change p.router.Holds (p.noteOn pitch velocity).2.arena values
    rw [hnote]
    exact hplayed.holds h.indexed htidy hholds
  | noteOff pitch => exact (h.played_noteOff pitch).holds h.indexed htidy hholds
  | controlChange controller value =>
    -- Notes that the controller ends come first, and they keep what instances hold.
    obtain ⟨q, hplayed, -, hchange⟩ := h.played_controlChange controller value
    have hheld := hplayed.holds h.indexed htidy hholds
    change p.router.Holds (p.controlChange controller value).arena _
    rw [hchange]
    change p.router.Holds (q.router.controlChange controller value q.arena) _
    rw [hplayed.router_eq]
    exact hheld.setEach htidy h.wellFormed hplayed.hosts.size_eq _ _
  | pitchWheel value => exact hholds.setEach htidy h.wellFormed h.hosts.size_eq _ _
  | setParameter id value => exact hholds.set htidy h.wellFormed h.hosts.size_eq id value
  | allNotesOff => exact h.played_allNotesOff.holds h.indexed htidy hholds
  | destroy => exact hholds

/-- Values are shown for what instances hold once pending commands are applied to it. -/
def Shows (p : Processor) (pending : List Command) (shown : List Single) : Prop :=
  ∃ values, p.router.Holds p.arena values ∧
    ∀ id b, p.table.get? id = some b → p.table.accepts b = true →
      shown[id]? = (pending.foldl p.table.valuesAfter values)[id]?

/-- A processor in a run, with the commands that are pending and the values that are shown. -/
structure Follows (p : Processor) (rate : ℕ) (fields : Scope → List (ℕ × Single))
    (pending : List Command) (shown : List Single) : Prop where
  ready : p.Ready rate fields
  tidy : p.router.Tidy fields
  meters : ∀ r ∈ p.readbacks.items, r.binding ∈ p.table.meters
  shows : p.Shows pending shown

variable {pending : List Command} {shown : List Single}

/-- Taking a command from the queue is applying it. -/
theorem Follows.apply {command : Command} {rest : List Command}
    (h : p.Follows rate fields (command :: rest) shown) :
    ∃ p', p.apply command = (.ok (), p') ∧ p'.router = p.router ∧
      p'.Follows rate fields rest shown := by
  obtain ⟨values, hholds, hshown⟩ := h.shows
  have hheld := h.ready.holds_apply h.tidy hholds command
  obtain ⟨p', happly, hready, hrouter, hreadbacks⟩ := h.ready.apply command
  have htable : p'.table = p.table := congrArg Router.table hrouter
  rw [happly] at hheld
  refine ⟨p', happly, hrouter, hready, hrouter ▸ h.tidy, ?_, p.table.valuesAfter values command,
    hrouter ▸ hheld, ?_⟩
  · rw [hreadbacks, htable]
    exact h.meters
  · rw [htable]
    exact hshown

/-- A block without automation keeps what instances hold. -/
theorem Follows.processDrained (h : p.Follows rate fields pending shown)
    (inputs outputs : HostBlock) :
    (p.processDrained inputs outputs []).2.2.router = p.router ∧
      (p.processDrained inputs outputs []).2.2.Follows rate fields pending shown := by
  obtain ⟨values, hholds, hshown⟩ := h.shows
  obtain ⟨p', hblock, hready, hrouter, -, hreported, hkept⟩ :=
    h.ready.processDrained inputs outputs []
  have htable : p'.table = p.table := congrArg Router.table hrouter
  rw [hblock]
  refine ⟨hrouter, hready, hrouter ▸ h.tidy, fun r hr => ?_, values, ?_, ?_⟩
  · rw [htable]
    rcases hreported r hr with hold | hmeter
    · exact h.meters r hold
    · exact hmeter
  · rw [hrouter]
    intro id b hb haccepts
    obtain ⟨value, hvalue, hstored⟩ := hholds id b hb haccepts
    refine ⟨value, hvalue, fun region hregion => ?_⟩
    have hkeeps := keeps_of_accepts h.tidy hb haccepts hregion
    exact (hkept b.scope region b.index hkeeps (by simp [AutomationMisses])).trans
      (hstored region hregion)
  · rw [htable]
    exact hshown

/-- Processing a block without automation keeps what is shown right. -/
theorem Follows.process {commands : Queue Command} (h : p.Follows rate fields commands.items shown)
    (inputs outputs : HostBlock) :
    (p.process commands inputs outputs []).2.2.1.router = p.router ∧
      (p.process commands inputs outputs []).2.2.1.Follows rate fields
        (p.process commands inputs outputs []).2.2.2.items shown := by
  refine process_induction
    (fun q pending => q.router = p.router ∧ q.Follows rate fields pending shown)
    (fun q command rest hq => ?_) (fun q pending hq => ?_) ⟨rfl, h⟩
  · obtain ⟨q', happly, hrouter, hfollows⟩ := hq.2.apply
    exact ⟨q', happly, hrouter.trans hq.1, hfollows⟩
  · obtain ⟨hrouter, hblock⟩ := hq.2.processDrained inputs outputs
    exact ⟨hrouter.trans hq.1, hblock⟩

end Processor

namespace Session

variable {s : Session} {rate : ℕ} {fields : Scope → List (ℕ × Single)}

/-- The invariant of a run: the handle shows what the instances hold once pending commands are
applied. -/
structure Mirrored (s : Session) (rate : ℕ) (fields : Scope → List (ℕ × Single)) : Prop where
  table : s.handle.table = s.processor.table
  follows : s.processor.Follows rate fields s.handle.commands.items s.handle.values

/-- A delivered command is shown at once. -/
theorem Mirrored.deliver (h : s.Mirrored rate fields) (command : Command) (log : EventLog)
    (capacity : ℕ) :
    (s.withHandle { s.handle.keep command with
      log
      commands := ⟨capacity, s.handle.commands.items ++ [command]⟩ }).Mirrored rate fields := by
  obtain ⟨values, hholds, hshown⟩ := h.follows.shows
  refine ⟨(Handle.table_keep _ _).trans h.table, h.follows.ready, h.follows.tidy, h.follows.meters,
    values, hholds, fun id b hb haccepts => ?_⟩
  -- The handle has applied the command already; for the instances it is the last one pending.
  change (s.handle.keep command).values[id]? =
    ((s.handle.commands.items ++ [command]).foldl s.processor.table.valuesAfter values)[id]?
  rw [Handle.values_keep, h.table, List.foldl_append]
  exact ParameterTable.getElem?_valuesAfter_congr (hshown id b hb haccepts) command

/-- Sending an event keeps the invariant, whether it is delivered or not. -/
theorem Mirrored.send (h : s.Mirrored rate fields) (event : Event) :
    (s.withHandle (s.handle.send event).value.2).Mirrored rate fields := by
  rcases s.handle.send_cases event with hsame | ⟨command, -, hsent⟩
  · rw [hsame]
    exact h
  · rw [hsent]
    exact h.deliver command _ _

/-- Readbacks are stored in the places of meters. -/
theorem getElem?_receive {handle : Handle} {readbacks : List Readback} {id : BindingId}
    (hid : ∀ r ∈ readbacks, r.binding ≠ id) :
    (handle.receive readbacks).values[id]? = handle.values[id]? := by
  unfold Handle.receive
  generalize handle.values = values
  induction readbacks generalizing values with
  | nil => rfl
  | cons r rest ih =>
    refine (ih (fun x hx => hid x (List.mem_cons_of_mem r hx)) _).trans ?_
    exact List.getElem?_set_ne (hid r List.mem_cons_self)

/-- Taking readbacks keeps the invariant. -/
theorem Mirrored.poll (h : s.Mirrored rate fields) : s.poll.2.Mirrored rate fields := by
  obtain ⟨values, hholds, hshown⟩ := h.follows.shows
  refine ⟨h.table, h.follows.ready.withStatus _ _ _, h.follows.tidy, ?_, values, hholds,
    fun id b hb haccepts => ?_⟩
  · intro r hr
    cases hr
  · -- A readback belongs to a meter, and a host may not write meters.
    refine (getElem?_receive fun r hr heq => ?_).trans (hshown id b hb haccepts)
    obtain ⟨b', hb', houtput⟩ := h.follows.ready.indexed.meters r.binding (h.follows.meters r hr)
    rw [heq] at hb'
    obtain rfl := Option.some.inj (hb.symm.trans hb')
    simp [ParameterTable.accepts, houtput] at haccepts

/-- Processing a block without automation keeps the invariant. -/
theorem Mirrored.process (h : s.Mirrored rate fields) (inputs outputs : HostBlock) :
    (s.process inputs outputs []).2.2.Mirrored rate fields := by
  obtain ⟨hrouter, hfollows⟩ := h.follows.process inputs outputs
  exact ⟨h.table.trans (congrArg Router.table hrouter).symm, hfollows⟩

/-- Every call without automation keeps the invariant. -/
theorem Mirrored.act (h : s.Mirrored rate fields) {call : HostCall} (hcall : call.Unautomated) :
    (s.act call).Mirrored rate fields := by
  cases call with
  | send event => exact h.send event
  | midi bytes =>
    rcases s.act_midi_cases bytes with hsame | ⟨event, hevent⟩
    · rw [hsame]
      exact h
    · rw [hevent]
      exact h.send event
  | poll => exact h.poll
  | process inputs outputs automation =>
    obtain rfl : automation = [] := hcall
    exact h.process inputs outputs

end Session

/-! ### Runs of new processors -/

variable {m : CompiledModule} {config : EngineConfig} {s : Session}

/-- Descriptions whose controls do not overlap make tidy tables, if every instance holds its
inputs. -/
theorem tidy_of_attach (h : (attach m config).value = .ok s)
    (hapart : ∀ scope d, m.describedBy config.voices scope = some d → d.FieldsApart)
    (hstored : ∀ scope, ∀ region ∈ s.processor.router.regions scope,
      region.Stored (s.processor.table.inputFields scope) s.processor.arena) :
    s.processor.router.Tidy s.processor.table.inputFields := by
  have hminded : ∀ id b, s.processor.table.get? id = some b → b.isOutput = false →
      (b.index, b.default) ∈ s.processor.table.inputFields b.scope := by
    intro id b hb hinput
    refine List.mem_map.mpr ⟨b, List.mem_filter.mpr ⟨List.mem_of_getElem? hb, ?_⟩, rfl⟩
    simp [hinput]
  refine ⟨fun id b hb hinput region hregion => ?_, fun id id' b b' hne hb hb' hscope => ?_, hminded⟩
  · exact fits_of_readField? (hstored b.scope region hregion _ (hminded id b hb hinput))
  · obtain ⟨width, plan, arena, -, -, rfl⟩ := attach_eq_ok h
    exact ParameterTable.apart_of_build hapart hne hb hb' hscope

/-- A new processor holds what its handle shows. -/
theorem mirrored_of_attach (h : (attach m config).value = .ok s)
    (hapart : ∀ scope d, m.describedBy config.voices scope = some d → d.FieldsApart)
    (hminds : s.processor.Minds config.sampleRate s.processor.table.inputFields) :
    s.Mirrored config.sampleRate s.processor.table.inputFields := by
  obtain ⟨hready, hstored⟩ := ready_of_attach h hminds
  have htidy := tidy_of_attach h hapart hstored
  obtain ⟨width, plan, arena, -, -, rfl⟩ := attach_eq_ok h
  refine ⟨rfl, hready, htidy, fun r hr => (List.not_mem_nil hr).elim,
    (hostedTable m config.voices).bindings.map (·.default), fun id b hb haccepts => ?_,
    fun _ _ _ _ => rfl⟩
  refine ⟨b.default, ?_, fun region hregion => ?_⟩
  · rw [List.getElem?_map, show (hostedTable m config.voices).bindings[id]? = some b from hb,
      Option.map_some]
  · have hinput := ParameterTable.isOutput_of_accepts haccepts
    exact hstored b.scope region hregion _ (htidy.minded id b hb hinput)

/-- The handle shows, for every control that a host may write, the value that every instance of its
scope holds. -/
def Session.Agrees (s : Session) : Prop :=
  ∀ id b, s.handle.table.get? id = some b → b.isOutput = false →
    s.handle.table.isVoiceManaged id = false →
      ∃ value, s.handle.values[id]? = some value ∧
        ∀ region ∈ s.processor.router.regions b.scope,
          s.processor.arena.readField? region b.index = some value

/-- When nothing is pending, what is shown is what instances hold. -/
theorem Session.Mirrored.agrees {rate : ℕ} {fields : Scope → List (ℕ × Single)}
    (h : s.Mirrored rate fields) (hdrained : s.handle.commands.items = []) : s.Agrees := by
  intro id b hb hinput hfree
  obtain ⟨values, hholds, hshown⟩ := h.follows.shows
  rw [h.table] at hb hfree
  have haccepts : s.processor.table.accepts b = true := by
    rw [ParameterTable.isVoiceManaged, hb, Option.any_some] at hfree
    rw [ParameterTable.accepts, hinput, hfree]
    rfl
  obtain ⟨value, hvalue, hstored⟩ := hholds id b hb haccepts
  refine ⟨value, ?_, hstored⟩
  rw [hshown id b hb haccepts, hdrained]
  exact hvalue

/-- The handle shows what the audio uses: after any calls without automation, whenever every command
has been taken, every control that a host may write has the shown value in every instance. -/
theorem Session.agrees_of_attach {calls : List HostCall} (h : (attach m config).value = .ok s)
    (hapart : ∀ scope d, m.describedBy config.voices scope = some d → d.FieldsApart)
    (hminds : s.processor.Minds config.sampleRate s.processor.table.inputFields)
    (hcalls : ∀ call ∈ calls, call.Unautomated)
    (hdrained : (s.run calls).handle.commands.items = []) : (s.run calls).Agrees := by
  have hmirrored := mirrored_of_attach h hapart hminds
  have hrun := Session.run_induction
    (fun s' => s'.Mirrored config.sampleRate s.processor.table.inputFields)
    (fun s' call hcall hs' => hs'.act (hcalls call hcall)) hmirrored
  exact hrun.agrees hdrained

/-- The organ with eight voices, after a controller was moved and a block was processed. -/
theorem Session.agrees_of_attach_organ : ∃ s, (attach organModule organConfig).value = .ok s ∧
    (s.run [.send (.controlChange 0 74 64), .process [] [List.replicate 128 .zero] []]).Agrees := by
  obtain ⟨plan, arena, hattach, hminds⟩ := attach_organ
  refine ⟨_, hattach, Session.agrees_of_attach hattach (fun scope d => fieldsApart_organ)
    (hminds.mono (inputFields_organ 8)) ?_ ?_⟩
  · simp [HostCall.Unautomated]
  · refine (ready_of_attach hattach hminds).1.items_process rfl (fun hdestroy => ?_) []
      [List.replicate 128 .zero] []
    change Command.destroy ∈ [Command.controlChange 74 64] at hdestroy
    simp at hdestroy

end DspHost
