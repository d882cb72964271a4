import DspHost.Proofs.Control.Routing
import DspHost.Proofs.Memory.Access
import DspHost.Proofs.Programs.HostedOrgan

/-!
# Writes of the router are confined

The five calls of the router differ in three things only: which controls they write, in which
instances, and with which values. Each of them is a number of stores to fields of instances. Table
and plan need not have anything to do with each other. A control whose field does not fit its
instance has no address, and every address that there is lies in the arena, so no store faults. A
byte that changes is a byte of a field, and the field lies inside an instance of the control's own
scope. Writing in one voice is the exception: it goes to the voice that it is given, even if the
control is the effect's.

## Main definitions

* `RouterCall`, `Router.act`, `Router.run` — calls, and what a number of them does
* `Router.ids`, `Router.targets`, `RouterCall.value` — what a call writes, where, and which value
* `Router.code` — a call as code whose stores can fault
* `Router.reach` — the bytes of a control that a call writes
* `Router.Confines` — what can be relied on after a number of calls

## Main results

* `Router.act_eq` — a call writes its controls one after the other
* `Router.run_code` — no store of a call faults
* `Router.changedWithin_act` — a call changes bytes that it reaches, and no others
* `Router.read?_set` — a control that was written is read back
* `Router.confines_of_plan` — whatever is called, writes are confined
-/

namespace DspHost

/-! ### Calls -/

/-- A call of the router. -/
inductive RouterCall where
  /-- A control is written in every instance that holds it. -/
  | set (id : BindingId) (value : Single)
  /-- A control that a host may automate is written by its path. -/
  | setPath (path : String) (value : Single)
  /-- A controller moves. -/
  | controlChange (controller value : UInt8)
  /-- The pitch wheel moves. -/
  | pitchWheel (value : UInt16)
  /-- A control is written in one voice. -/
  | setOnVoice (region : InstanceRegion) (id : BindingId) (value : Single)

namespace RouterCall

/-- The value that a call writes to a control. -/
def value (b : Binding) : RouterCall → Single
  | set _ value => value
  | setPath _ value => value
  | controlChange _ value => b.remapController value
  | pitchWheel value => b.remapWheel value
  | setOnVoice _ _ value => value

/-- The scope of the instances that a call writes a control in. -/
def scope (b : Binding) : RouterCall → Scope
  | setOnVoice _ _ _ => .voice
  | _ => b.scope

/-- A call that writes in one voice is given a voice of the plan. -/
def Aimed (plan : MemoryPlan) : RouterCall → Prop
  | setOnVoice region _ _ => region ∈ plan.voiceInstances
  | _ => True

end RouterCall

namespace Router

/-- The arena after a call. -/
def act (r : Router) (a : Arena) : RouterCall → Arena
  | .set id value => r.set id value a
  | .setPath path value => (r.setPath path value a).2
  | .controlChange controller value => r.controlChange controller value a
  | .pitchWheel value => r.pitchWheel value a
  | .setOnVoice region id value => r.setOnVoice region id value a

/-- The arena after a number of calls. -/
def run (r : Router) (a : Arena) (calls : List RouterCall) : Arena := calls.foldl r.act a

/-- The controls that a call writes. -/
def ids (r : Router) : RouterCall → List BindingId
  | .set id _ => [id]
  | .setPath path _ => (r.automatable? path).toList
  | .controlChange controller _ => r.table.controller controller
  | .pitchWheel _ => r.table.wheel
  | .setOnVoice _ id _ => [id]

/-- The instances that a call writes a control in. -/
def targets (r : Router) (b : Binding) : RouterCall → List InstanceRegion
  | .setOnVoice region _ _ => [region]
  | _ => r.regions b.scope

/-- Writes one of the controls of a call. -/
def write (r : Router) (call : RouterCall) (a : Arena) (id : BindingId) : Arena :=
  match r.table.get? id with
  | some b => a.writeFields (r.targets b call) b.index (call.value b)
  | none => a

variable {r : Router} {call : RouterCall} {calls : List RouterCall} {id : BindingId} {b : Binding}
  {region : InstanceRegion} {value : Single} {a : Arena}

theorem setEach_eq_foldl (call : RouterCall) {value : Binding → Single}
    (hvalue : ∀ b, value b = call.value b) (htargets : ∀ b, r.targets b call = r.regions b.scope)
    (ids : List BindingId) (a : Arena) : r.setEach value ids a = ids.foldl (r.write call) a := by
  unfold setEach
  congr 1
  funext a id
  cases hb : r.table.get? id with
  | none => simp only [write, hb]
  | some b => simp only [write, set, hb, hvalue, htargets]

/-- A call writes its controls one after the other. -/
theorem act_eq (r : Router) (call : RouterCall) (a : Arena) :
    r.act a call = (r.ids call).foldl (r.write call) a := by
  cases call with
  | set id value => rfl
  | setPath path value =>
    simp only [act, ids, setPath]
    cases r.automatable? path <;> rfl
  | controlChange controller value =>
    exact setEach_eq_foldl (.controlChange controller value) (fun _ => rfl) (fun _ => rfl) _ a
  | pitchWheel value =>
    exact setEach_eq_foldl (.pitchWheel value) (fun _ => rfl) (fun _ => rfl) _ a
  | setOnVoice region id value => rfl

theorem size_write (r : Router) (call : RouterCall) (a : Arena) (id : BindingId) :
    (r.write call a id).size = a.size := by
  unfold write
  split
  · exact a.size_writeFields _ _ _
  · rfl

/-! ### Where a call writes -/

/-- A call that is aimed writes in instances of the plan. -/
theorem mem_regions_of_mem_targets (haimed : call.Aimed r.plan) (h : region ∈ r.targets b call) :
    region ∈ r.regions (call.scope b) := by
  cases call with
  | setOnVoice other id value =>
    obtain rfl := List.mem_singleton.mp h
    exact haimed
  | _ => exact h

/-- The bytes of a control that a call writes: those of its field in every instance that the call
writes it in, if the field fits. -/
def reach (r : Router) (call : RouterCall) (b : Binding) : Set ℕ :=
  {i | ∃ region ∈ r.targets b call, b.index + 4 ≤ region.size ∧ i ∈ region.fieldSpan b.index}

/-- The bytes of all controls that a call writes. -/
def reached (r : Router) (call : RouterCall) : Set ℕ :=
  {i | ∃ id ∈ r.ids call, ∃ b, r.table.get? id = some b ∧ i ∈ r.reach call b}

theorem reach_subset_instances (haimed : call.Aimed r.plan) (b : Binding) :
    r.reach call b ⊆ r.plan.area RegionKind.instances := by
  rintro i ⟨region, hregion, hfits, hi⟩
  exact footprint_subset (mem_regions_of_mem_targets haimed hregion)
    (region.fieldSpan_subset hfits hi)

/-- A call keeps away from the instances of other scopes. -/
theorem disjoint_reach_of_ne (hwell : r.plan.WellFormed) (haimed : call.Aimed r.plan)
    {scope : Scope} (hscope : scope ≠ call.scope b) (hregion : region ∈ r.regions scope) :
    Disjoint (r.reach call b) region.footprint := by
  rw [Set.disjoint_left]
  rintro i ⟨target, htarget, hfits, hi⟩ hi'
  have hown := mem_regions_of_mem_targets haimed htarget
  rcases regions_apart hwell hown hregion with ⟨hsame, -⟩ | hapart
  · exact hscope hsame.symm
  · exact Set.disjoint_left.mp hapart (target.fieldSpan_subset hfits hi) hi'

/-! ### Bytes that change -/

/-- Writing a control changes bytes of its fields. -/
theorem changedWithin_write (r : Router) (call : RouterCall) (a : Arena) (id : BindingId) :
    Arena.ChangedWithin {i | ∃ b, r.table.get? id = some b ∧ i ∈ r.reach call b} a
      (r.write call a id) := by
  unfold write
  split
  · next b hb =>
    -- The instances are written in turn, and each of them is one of the call's.
    refine List.foldlRecOn (r.targets b call) _ (Arena.ChangedWithin.refl _ a)
      fun c hc region hregion => hc.trans ?_
    refine (c.changedWithin_fittingField region b.index (call.value b)).mono ?_
    rintro i ⟨hfits, hi⟩
    exact ⟨b, hb, region, hregion, hfits, hi⟩
  · exact .refl _ a

/-- A call changes bytes that it reaches, and no others. -/
theorem changedWithin_act (r : Router) (call : RouterCall) (a : Arena) :
    Arena.ChangedWithin (r.reached call) a (r.act a call) := by
  rw [act_eq]
  refine List.foldlRecOn (r.ids call) _ (Arena.ChangedWithin.refl _ a)
    fun c hc id hid => hc.trans ((r.changedWithin_write call c id).mono ?_)
  rintro i ⟨b, hb, hi⟩
  exact ⟨id, hid, b, hb, hi⟩

theorem changedWithin_run (r : Router) (calls : List RouterCall) (a : Arena) :
    Arena.ChangedWithin {i | ∃ call ∈ calls, i ∈ r.reached call} a (r.run a calls) :=
  List.foldlRecOn calls _ (Arena.ChangedWithin.refl _ a) fun c hc call hcall =>
    hc.trans ((r.changedWithin_act call c).mono fun _ hi => ⟨call, hcall, hi⟩)

/-! ### Stores -/

/-- Stores a value at an offset of an instance, if it lies inside. -/
def storeField (index : ℕ) (value : Single) (region : InstanceRegion) : Access Unit :=
  match region.field? index with
  | some address => Access.storeSingle address value
  | none => return ()

/-- Stores one of the controls of a call. -/
def storeControl (r : Router) (call : RouterCall) (id : BindingId) : Access Unit :=
  match r.table.get? id with
  | some b => Access.forEach (storeField b.index (call.value b)) (r.targets b call)
  | none => return ()

/-- A call as code whose stores can fault. -/
def code (r : Router) (call : RouterCall) : Access Unit :=
  Access.forEach (r.storeControl call) (r.ids call)

theorem run_storeField (hinside : region.offset + region.size ≤ a.size) (index : ℕ)
    (value : Single) :
    (storeField index value region).run a = (.ok (), a.writeField region index value) := by
  cases haddress : region.field? index with
  | none =>
    simp only [storeField, Arena.writeField, haddress]
    rfl
  | some address =>
    obtain ⟨hfits, rfl⟩ := InstanceRegion.field?_eq_some_iff.mp haddress
    have hroom : a.fits (region.offset + index) 4 = true := decide_eq_true (by omega)
    simp only [storeField, Arena.writeField, haddress, if_pos hroom]
    exact if_pos hroom

theorem run_storeControl (hwell : r.plan.WellFormed) (haimed : call.Aimed r.plan)
    (hsize : a.size = r.plan.arenaSize) (id : BindingId) :
    (r.storeControl call id).run a = (.ok (), r.write call a id) := by
  unfold storeControl write
  cases r.table.get? id with
  | none => rfl
  | some b =>
    -- Every instance lies in the arena, and writing keeps the size of the arena.
    refine (Access.run_forEach_eq_foldl (fun c => c.size = r.plan.arenaSize)
      (fun region hregion c hc => ⟨run_storeField ?_ _ _, ?_⟩) hsize).1
    · rw [hc]
      exact region_le_arenaSize hwell (mem_regions_of_mem_targets haimed hregion)
    · rw [Arena.size_writeField, hc]

/-- No store of a call faults. -/
theorem run_code (hwell : r.plan.WellFormed) (haimed : call.Aimed r.plan)
    (hsize : a.size = r.plan.arenaSize) : (r.code call).run a = (.ok (), r.act a call) := by
  rw [act_eq]
  refine (Access.run_forEach_eq_foldl (fun c => c.size = r.plan.arenaSize)
    (fun id _ c hc => ⟨run_storeControl hwell haimed hc id, ?_⟩) hsize).1
  rw [size_write, hc]

/-! ### Reading back -/

/-- The instances of a scope have one size. -/
theorem size_eq_of_mem_regions {scope : Scope} {x y : InstanceRegion} (hx : x ∈ r.regions scope)
    (hy : y ∈ r.regions scope) : x.size = y.size := by
  have hvoice {z : InstanceRegion} {index : ℕ} (hz : r.plan.voiceInstance? index = some z) :
      z.size = r.plan.instanceSize := by
    unfold MemoryPlan.voiceInstance? at hz
    split_ifs at hz
    exact Option.some.inj hz ▸ rfl
  cases scope with
  | voice =>
    obtain ⟨_, hx⟩ := mem_regions_voice.mp hx
    obtain ⟨_, hy⟩ := mem_regions_voice.mp hy
    rw [hvoice hx, hvoice hy]
  | effect =>
    rw [Option.some.inj ((mem_regions_effect.mp hx).symm.trans (mem_regions_effect.mp hy))]

/-- Where there are instances of a scope, there is one that its controls are read from. -/
theorem exists_source {scope : Scope} (h : region ∈ r.regions scope) :
    ∃ source ∈ r.regions scope, r.source? scope = some source := by
  cases scope with
  | voice =>
    obtain ⟨index, hindex⟩ := mem_regions_voice.mp h
    have hsome : 0 < r.plan.instanceCount :=
      (Nat.zero_le index).trans_lt (MemoryPlan.lt_instanceCount hindex)
    have hfirst : r.plan.voiceInstance? 0 = some ⟨r.plan.instances + 0 * r.plan.stride,
        r.plan.instanceSize⟩ := if_pos hsome
    exact ⟨_, mem_regions_voice.mpr ⟨0, hfirst⟩, hfirst⟩
  | effect => exact ⟨region, h, mem_regions_effect.mp h⟩

/-- A control that was written is read back. -/
theorem read?_set (hwell : r.plan.WellFormed) (hsize : a.size = r.plan.arenaSize)
    (hb : r.table.get? id = some b) (hregion : region ∈ r.regions b.scope)
    (hfits : b.index + 4 ≤ region.size) (value : Single) :
    (∀ x ∈ r.regions b.scope, (r.set id value a).readField? x b.index = some value) ∧
      r.read? (r.set id value a) id = some value := by
  have hfields : ∀ x ∈ r.regions b.scope, (r.set id value a).readField? x b.index = some value :=
    readField?_set hwell hsize hb fun x hx => size_eq_of_mem_regions hregion hx ▸ hfits
  obtain ⟨source, hmem, hsource⟩ := exists_source hregion
  refine ⟨hfields, ?_⟩
  simp only [read?, hb, hsource, Option.bind_eq_bind, Option.bind_some]
  exact hfields source hmem

/-! ### Any number of calls -/

/-- What can be relied on after a number of calls. -/
structure Confines (r : Router) (calls : List RouterCall) (a : Arena) : Prop where
  /-- No store faults. -/
  completes : (Access.forEach r.code calls).run a = (.ok (), r.run a calls)
  /-- A byte that changes belongs to a field that a call writes. -/
  changed : Arena.ChangedWithin {i | ∃ call ∈ calls, i ∈ r.reached call} a (r.run a calls)
  /-- The field belongs to instances of one scope: that of the control, or that of the voices if the
  call writes in one voice. -/
  inside : ∀ call ∈ calls, ∀ b, ∀ region ∈ r.targets b call, region ∈ r.regions (call.scope b)
  /-- It has nothing of the instances of the other scope. -/
  others : ∀ call ∈ calls, ∀ b, ∀ scope ≠ call.scope b, ∀ region ∈ r.regions scope,
    Disjoint (r.reach call b) region.footprint
  /-- It has nothing of pointer tables. -/
  tables : ∀ call ∈ calls, ∀ b, Disjoint (r.reach call b) (r.plan.area RegionKind.tables)
  /-- It has nothing of sample buffers. -/
  samples : ∀ call ∈ calls, ∀ b, Disjoint (r.reach call b) (r.plan.area RegionKind.samples)
  /-- A control that fits is stored in every instance of its scope, and is read back. -/
  stored : ∀ id b value, r.table.get? id = some b → ∀ region ∈ r.regions b.scope,
    b.index + 4 ≤ region.size →
      (∀ x ∈ r.regions b.scope,
        (r.set id value (r.run a calls)).readField? x b.index = some value) ∧
        r.read? (r.set id value (r.run a calls)) id = some value

/-- Writes to an arena of the plan are confined, whatever the table is. -/
theorem confines_of_plan {q : LayoutRequest} {p : MemoryPlan} (h : q.plan = .ok p)
    (table : ParameterTable) {a : Arena} (hsize : a.size = p.arenaSize) {calls : List RouterCall}
    (haimed : ∀ call ∈ calls, call.Aimed p) : (Router.mk p table).Confines calls a := by
  have hwell := LayoutRequest.wellFormed_of_plan h
  have hinstances (call : RouterCall) (hcall : call ∈ calls) (b : Binding) :
      (Router.mk p table).reach call b ⊆ p.area RegionKind.instances :=
    reach_subset_instances (r := ⟨p, table⟩) (haimed call hcall) b
  have hchanged := (Router.mk p table).changedWithin_run calls a
  exact {
    completes := (Access.run_forEach_eq_foldl (fun c => c.size = p.arenaSize)
      (fun call hcall c hc => ⟨run_code (r := ⟨p, table⟩) hwell (haimed call hcall) hc,
        ((changedWithin_act _ call c).size_eq).trans hc⟩) hsize).1
    changed := hchanged
    inside := fun call hcall b region => mem_regions_of_mem_targets (haimed call hcall)
    others := fun call hcall b scope hscope region =>
      disjoint_reach_of_ne (r := ⟨p, table⟩) hwell (haimed call hcall) hscope
    tables := fun call hcall b =>
      (hwell.disjoint_area RegionKind.disjoint_tables_instances).symm.mono_left
        (hinstances call hcall b)
    samples := fun call hcall b =>
      (hwell.disjoint_area RegionKind.disjoint_samples_instances).symm.mono_left
        (hinstances call hcall b)
    stored := fun id b value hb region hregion hfits =>
      read?_set hwell (hchanged.size_eq.trans hsize) hb hregion hfits value }

/-- The controls of the organ and of its volume. -/
def organTable : ParameterTable := .build Organ.metadata (some organVolumeMetadata) true

/-- A small arena for the organ with four voices and its volume. -/
def organRequest : LayoutRequest :=
  { instanceSize := Organ.size, inputs := 0, outputs := 1, voices := 4, blockLength := 1,
    effectSize := some 4, pageSize := 64 }

/-- The plan of this arena. -/
def organPlan : MemoryPlan where
  polyphony := .poly 4
  blockLength := 1
  pointerWidth := .four
  inputs := 0
  outputs := 1
  inputTable := ⟨0, 0, .four⟩
  outputTable := ⟨0, 1, .four⟩
  inputSamples := 8
  outputSamples := 8
  mixing := some ⟨⟨4, 1, .four⟩, 12⟩
  instances := 16
  stride := 36
  instanceSize := 36
  effect := some ⟨160, 4⟩
  used := 164
  pageSize := 64
  arenaSize := 256

theorem plan_organRequest : organRequest.plan = .ok organPlan := rfl

/-- Controls of the organ are written everywhere, by path, by messages and in the first voice. -/
theorem confines_organ : (Router.mk organPlan organTable).Confines
    [.set 0 .one, .setPath "/organ/bright" .one, .controlChange 7 100, .pitchWheel 0,
      .setOnVoice ⟨16, 36⟩ 0 .one] organPlan.arena := by
  have hsize : organPlan.arena.size = organPlan.arenaSize := Array.size_replicate
  have hvoice : ⟨16, 36⟩ ∈ organPlan.voiceInstances := List.mem_cons_self
  refine confines_of_plan plan_organRequest organTable hsize ?_
  simpa [RouterCall.Aimed] using hvoice

/-- The volume belongs to the effect, but written in the first voice it becomes the frequency that
the voice plays. -/
theorem setOnVoice_volume_stores_freq :
    organRequest.plan = .ok organPlan ∧ ⟨16, 36⟩ ∈ organPlan.voiceInstances ∧
      (organTable.get? 6).map Binding.scope = some .effect ∧
      organPlan.arena.readField? ⟨16, 36⟩ Organ.freq = some .zero ∧
      ((Router.mk organPlan organTable).setOnVoice ⟨16, 36⟩ 6 .one organPlan.arena).readField?
        ⟨16, 36⟩ Organ.freq = some .one :=
  ⟨plan_organRequest, List.mem_cons_self, by decide, by decide +kernel, by decide +kernel⟩

end Router

end DspHost
