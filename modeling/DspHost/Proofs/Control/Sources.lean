import DspHost.Proofs.Control.Bindings
import DspHost.Proofs.Control.Confinement
import DspHost.Proofs.Json.RoundTrip

/-!
# Which controls a message writes

A table lists every control that is annotated with a controller or with the pitch wheel, and nothing
else. What a message writes is looked up in these lists and not asked about again: a path that leads
to a meter or to a control of the voices is refused, but a message reaches such a control if its
description says so. Messages obey the rule that paths obey just as far as descriptions do.

## Main definitions

* `MidiSource.Valid` — a message that there is
* `ParameterTable.Lists` — a list of all bindings with a property
* `ParameterTable.Complete`, `ParameterTable.Listing` — a table whose indexes are complete
* `Router.Obeys` — a call that writes only what a host may write
* `Router.Permits` — which calls do

## Main results

* `MidiSource.valid_ofText` — an annotation names a controller that there is
* `ParameterTable.Complete.push`, `ParameterTable.complete_build` — every table that is built is
  complete
* `Router.permits_build` — messages obey the rule if and only if the annotations do
-/

namespace DspHost

/-! ### Annotations -/

/-- A controller is one of those that there are. -/
def MidiSource.Valid (source : MidiSource) : Prop :=
  ∀ number, source = .controller number → number.toNat < controllerCount

/-- An annotation names a controller that there is, if it names one. -/
theorem MidiSource.valid_ofText (text : String) : (MidiSource.ofText text).1.Valid := by
  intro number h
  unfold ofText at h
  split at h
  · split_ifs at h
    split at h
    · next n hn =>
      obtain ⟨_, -, hn⟩ := Option.bind_eq_some_iff.mp hn
      have hlt := lt_of_naturalOfText? hn
      obtain rfl : n.toUInt8 = number := MidiSource.controller.inj h
      rw [Nat.toUInt8_eq, UInt8.toNat_ofNat']
      exact (Nat.mod_le n _).trans_lt hlt
    · cases h
  · cases h

theorem MidiSource.valid_ofAnnotations (annotations : List MetaEntry) :
    (MidiSource.ofAnnotations annotations).Valid := by
  unfold ofAnnotations
  split
  · exact valid_ofText _
  · intro number h
    cases h

theorem valid_of_ofVisit? {scope : Scope} {visit : Visit} {b : Binding}
    (h : Binding.ofVisit? scope visit = some b) : b.midi.Valid := by
  unfold Binding.ofVisit? at h
  split at h
  · exact Option.some.inj h ▸ MidiSource.valid_ofAnnotations _
  · exact Option.some.inj h ▸ MidiSource.valid_ofAnnotations _
  · cases h

/-! ### Complete indexes -/

namespace ParameterTable

variable {t : ParameterTable} {b c : Binding} {id : BindingId} {number : UInt8}
  {ids : List BindingId} {property : Binding → Prop}

/-- The list of all bindings with a property: each of them once, in increasing order. -/
structure Lists (t : ParameterTable) (ids : List BindingId) (property : Binding → Prop) :
    Prop where
  increasing : ids.Pairwise (· < ·)
  mem_iff : ∀ id, id ∈ ids ↔ ∃ b, t.get? id = some b ∧ property b

/-- Every index of messages and of meters is complete. -/
structure Complete (t : ParameterTable) : Prop where
  rows : t.controllers.length = controllerCount
  controller : ∀ number, t.Lists (t.controller number) (·.midi = .controller number)
  wheel : t.Lists t.wheel (·.midi = .wheel)
  meters : t.Lists t.meters (·.isOutput = true)

theorem lt_length_of_get? (h : t.get? id = some b) : id < t.bindings.length :=
  (List.getElem?_eq_some_iff.mp h).1

/-- A binding of a larger table is an old one or the new one. -/
theorem get?_push_iff : (t.push b).get? id = some c ↔
    t.get? id = some c ∨ id = t.bindings.length ∧ c = b := by
  constructor
  · intro h
    change (t.bindings ++ [b])[id]? = some c at h
    rcases Nat.lt_or_ge id t.bindings.length with hlt | hge
    · rw [List.getElem?_append_left hlt] at h
      exact .inl h
    · rw [List.getElem?_append_right hge] at h
      obtain ⟨hlt, hc⟩ := List.getElem?_eq_some_iff.mp h
      have hid : id = t.bindings.length :=
        le_antisymm (Nat.sub_eq_zero_iff_le.mp (Nat.lt_one_iff.mp hlt)) hge
      subst hid
      exact .inr ⟨rfl, by simpa using hc.symm⟩
  · rintro (h | ⟨rfl, rfl⟩)
    · exact get?_push_of_get? h b
    · exact t.get?_push_length c

/-- A binding with the property is added at the end of the list. -/
theorem Lists.push_of_pos (h : t.Lists ids property) (hb : property b) :
    (t.push b).Lists (ids ++ [t.bindings.length]) property := by
  refine ⟨List.pairwise_append.mpr ⟨h.increasing, List.pairwise_singleton _ _, ?_⟩, fun id => ?_⟩
  · intro id hid next hnext
    obtain ⟨c, hc, -⟩ := (h.mem_iff id).mp hid
    exact List.mem_singleton.mp hnext ▸ lt_length_of_get? hc
  · rw [List.mem_append, List.mem_singleton, h.mem_iff]
    constructor
    · rintro (⟨c, hc, hproperty⟩ | rfl)
      · exact ⟨c, get?_push_of_get? hc b, hproperty⟩
      · exact ⟨b, t.get?_push_length b, hb⟩
    · rintro ⟨c, hc, hproperty⟩
      rcases get?_push_iff.mp hc with hc | ⟨rfl, -⟩
      · exact .inl ⟨c, hc, hproperty⟩
      · exact .inr rfl

/-- A binding without the property leaves the list as it is. -/
theorem Lists.push_of_neg (h : t.Lists ids property) (hb : ¬property b) :
    (t.push b).Lists ids property := by
  refine ⟨h.increasing, fun id => (h.mem_iff id).trans ?_⟩
  constructor
  · rintro ⟨c, hc, hproperty⟩
    exact ⟨c, get?_push_of_get? hc b, hproperty⟩
  · rintro ⟨c, hc, hproperty⟩
    rcases get?_push_iff.mp hc with hc | ⟨-, rfl⟩
    · exact ⟨c, hc, hproperty⟩
    · exact absurd hproperty hb

theorem wheel_push_of_eq (h : b.midi = .wheel) :
    (t.push b).wheel = t.wheel ++ [t.bindings.length] := by
  rw [push, h]

theorem wheel_push_of_ne (h : b.midi ≠ .wheel) : (t.push b).wheel = t.wheel := by
  rw [push]
  dsimp only
  split
  · contradiction
  · rfl

theorem controllers_push_of_eq (h : b.midi = .controller number) :
    (t.push b).controllers = t.controllers.modify number.toNat (· ++ [t.bindings.length]) := by
  rw [push, h]

theorem controller_push_of_eq (hrow : number.toNat < t.controllers.length)
    (h : b.midi = .controller number) :
    (t.push b).controller number = t.controller number ++ [t.bindings.length] := by
  rw [controller, controller, controllers_push_of_eq h, List.getD_eq_getElem?_getD,
    List.getElem?_modify, List.getD_eq_getElem?_getD, List.getElem?_eq_getElem hrow]
  simp

theorem controller_push_of_ne {number : UInt8} (h : b.midi ≠ .controller number) :
    (t.push b).controller number = t.controller number := by
  cases hmidi : b.midi with
  | controller n =>
    have hne : n.toNat ≠ number.toNat := fun heq =>
      h (by rw [hmidi, UInt8.toNat_inj.mp heq])
    rw [controller, controller, controllers_push_of_eq hmidi, List.getD_eq_getElem?_getD,
      List.getD_eq_getElem?_getD, List.getElem?_modify]
    simp [hne]
  | _ => simp only [controller, push, hmidi]

theorem length_controllers_push (t : ParameterTable) (b : Binding) :
    (t.push b).controllers.length = t.controllers.length := by
  rw [push]
  dsimp only
  split
  · exact List.length_modify _ _ _
  · rfl

/-- The indexes stay complete when a binding is added. -/
theorem Complete.push (h : t.Complete) (hb : b.midi.Valid) : (t.push b).Complete := by
  refine ⟨(t.length_controllers_push b).trans h.rows, fun number => ?_, ?_, ?_⟩
  · by_cases hmidi : b.midi = .controller number
    · rw [controller_push_of_eq (h.rows ▸ hb number hmidi) hmidi]
      exact (h.controller number).push_of_pos hmidi
    · rw [controller_push_of_ne hmidi]
      exact (h.controller number).push_of_neg hmidi
  · by_cases hmidi : b.midi = .wheel
    · rw [wheel_push_of_eq hmidi]
      exact h.wheel.push_of_pos hmidi
    · rw [wheel_push_of_ne hmidi]
      exact h.wheel.push_of_neg hmidi
  · by_cases houtput : b.isOutput = true
    · rw [show (t.push b).meters = t.meters ++ [t.bindings.length] from if_pos houtput]
      exact h.meters.push_of_pos houtput
    · rw [show (t.push b).meters = t.meters from if_neg houtput]
      exact h.meters.push_of_neg houtput

theorem complete_empty (polyphonic : Bool) : (empty polyphonic).Complete := by
  have hnone {property : Binding → Prop} : (empty polyphonic).Lists [] property :=
    ⟨.nil, fun id => by simp [get?, empty]⟩
  refine ⟨List.length_replicate, fun number => ?_, hnone, hnone⟩
  · have hrow : (empty polyphonic).controller number = [] := by
      rw [controller, empty, List.getD_eq_getElem?_getD, List.getElem?_replicate]
      split_ifs <;> rfl
    rw [hrow]
    exact hnone

/-- The indexes of every table that is built are complete. -/
theorem complete_build (voice : ModuleMetadata) (effect : Option ModuleMetadata)
    (polyphonic : Bool) : (build voice effect polyphonic).Complete := by
  have htree (t : ParameterTable) (ht : t.Complete) (scope : Scope) (d : ModuleMetadata) :
      (t.pushTree scope d.ui).Complete := by
    refine List.foldlRecOn _ _ ht fun t ht b hb => ht.push ?_
    obtain ⟨_, -, hvisit⟩ := List.mem_filterMap.mp hb
    exact valid_of_ofVisit? hvisit
  have hvoice := htree _ (complete_empty polyphonic) .voice voice
  cases effect with
  | none => exact hvoice
  | some effect => exact htree _ hvoice .effect effect

/-- Every control that a message moves is in the index of the message. -/
structure Listing (t : ParameterTable) : Prop where
  rows : t.controllers.length = controllerCount
  wheel : ∀ id b, t.get? id = some b → b.midi = .wheel → id ∈ t.wheel
  controller : ∀ number id b, t.get? id = some b → b.midi = .controller number →
    id ∈ t.controller number

/-- In every table that is built, the indexes of messages have all controls that the messages
move. -/
theorem listing_build (voice : ModuleMetadata) (effect : Option ModuleMetadata)
    (polyphonic : Bool) : (build voice effect polyphonic).Listing := by
  have hcomplete := complete_build voice effect polyphonic
  refine ⟨hcomplete.rows, fun id b hb hmidi => ?_, fun number id b hb hmidi => ?_⟩
  · exact (hcomplete.wheel.mem_iff id).mpr ⟨b, hb, hmidi⟩
  · exact ((hcomplete.controller number).mem_iff id).mpr ⟨b, hb, hmidi⟩

/-- A controller leads to the bindings that it moves. -/
theorem Listing.mem_controller_iff (h : t.Listing) (hindexed : t.Indexed) :
    id ∈ t.controller number ↔ ∃ b, t.get? id = some b ∧ b.midi = .controller number :=
  ⟨hindexed.controller number id, fun ⟨b, hb, hmidi⟩ => h.controller number id b hb hmidi⟩

/-- The pitch wheel leads to the bindings that it moves. -/
theorem Listing.mem_wheel_iff (h : t.Listing) (hindexed : t.Indexed) :
    id ∈ t.wheel ↔ ∃ b, t.get? id = some b ∧ b.midi = .wheel :=
  ⟨hindexed.wheel id, fun ⟨b, hb, hmidi⟩ => h.wheel id b hb hmidi⟩

end ParameterTable

/-! ### Who may write -/

namespace Router

variable {r : Router} {call : RouterCall}

/-- A call that writes only what a host may write. -/
def Obeys (r : Router) (call : RouterCall) : Prop :=
  ∀ id ∈ r.ids call, r.table.isAutomatable id = true

/-- The controls with a property are controls that a host may write, and those alone are looked at
when a message moves them. -/
theorem obeys_iff {property : Binding → Prop}
    (hids : ∀ id, id ∈ r.ids call ↔ ∃ b, r.table.get? id = some b ∧ property b) :
    r.Obeys call ↔ ∀ b ∈ r.table.bindings, property b → r.table.accepts b = true := by
  constructor
  · intro h b hb hproperty
    obtain ⟨id, hlt, rfl⟩ := List.mem_iff_getElem.mp hb
    have hget : r.table.get? id = some r.table.bindings[id] := List.getElem?_eq_getElem hlt
    have hauto := h id ((hids id).mpr ⟨_, hget, hproperty⟩)
    rwa [ParameterTable.isAutomatable, hget, Option.any_some] at hauto
  · intro h id hid
    obtain ⟨b, hget, hproperty⟩ := (hids id).mp hid
    rw [ParameterTable.isAutomatable, hget, Option.any_some]
    exact h b (List.mem_of_getElem? hget) hproperty

theorem obeys_setPath (r : Router) (path : String) (value : Single) :
    r.Obeys (.setPath path value) := by
  intro id hid
  obtain ⟨-, hauto⟩ := Option.filter_eq_some_iff.mp (Option.mem_toList.mp hid)
  exact hauto

/-- What a call changes that writes only what a host may write. -/
theorem changedWithin_of_obeys (h : r.Obeys call) (a : Arena) :
    Arena.ChangedWithin
      {i | ∃ b ∈ r.table.bindings, r.table.accepts b = true ∧ i ∈ r.reach call b} a
      (r.act a call) := by
  refine (r.changedWithin_act call a).mono ?_
  rintro i ⟨id, hid, b, hget, hi⟩
  have hauto := h id hid
  rw [ParameterTable.isAutomatable, hget, Option.any_some] at hauto
  exact ⟨b, List.mem_of_getElem? hget, hauto, hi⟩

/-- Which calls write only what a host may write. -/
structure Permits (r : Router) : Prop where
  /-- A controller does if no meter and no control of the voices is annotated with it. -/
  controlChange : ∀ number value, r.Obeys (.controlChange number value) ↔
    ∀ b ∈ r.table.bindings, b.midi = .controller number → r.table.accepts b = true
  /-- So does the pitch wheel. -/
  pitchWheel : ∀ value, r.Obeys (.pitchWheel value) ↔
    ∀ b ∈ r.table.bindings, b.midi = .wheel → r.table.accepts b = true
  /-- A path always does. -/
  setPath : ∀ path value, r.Obeys (.setPath path value)
  /-- A byte that such a call changes belongs to a control that a host may write. -/
  changed : ∀ call, r.Obeys call → ∀ a, Arena.ChangedWithin
    {i | ∃ b ∈ r.table.bindings, r.table.accepts b = true ∧ i ∈ r.reach call b} a (r.act a call)

/-- Messages obey the rule that paths obey if and only if the annotations do. -/
theorem permits_build (voice : ModuleMetadata) (effect : Option ModuleMetadata)
    (polyphonic : Bool) (plan : MemoryPlan) :
    (Router.mk plan (.build voice effect polyphonic)).Permits := by
  have hlisting := ParameterTable.listing_build voice effect polyphonic
  have hindexed := ParameterTable.indexed_build voice effect polyphonic
  exact {
    controlChange := fun _ _ => obeys_iff fun _ => hlisting.mem_controller_iff hindexed
    pitchWheel := fun _ => obeys_iff fun _ => hlisting.mem_wheel_iff hindexed
    setPath := fun path value => obeys_setPath _ path value
    changed := fun _ h a => changedWithin_of_obeys h a }

/-- A meter that a controller moves, and a gate that the pitch wheel moves. -/
def annotatedMetadata : ModuleMetadata where
  name := "annotated"
  filename := ""
  size := Organ.size
  inputs := 0
  outputs := 1
  annotations := []
  ui := [.bargraph .horizontal ⟨"level", "/annotated/level", 0, .zero, .one,
      [[("midi", "ctrl 1")]]⟩,
    .toggle .button ⟨"gate", "/annotated/gate", 4, [[("midi", "pitchwheel")]]⟩]

/-- Messages write the meter and the gate, which nobody may write by path. -/
theorem messages_write_managed :
    let r := Router.mk organPlan (.build annotatedMetadata none true)
    let meter a := Arena.readField? a ⟨16, 36⟩ 0
    let gate a := Arena.readField? a ⟨16, 36⟩ 4
    r.table.isAutomatable 0 = false ∧ r.table.isAutomatable 1 = false ∧
      meter organPlan.arena = some .zero ∧
      meter (r.controlChange 1 127 organPlan.arena) = some .one ∧
      gate organPlan.arena = some .zero ∧
      gate (r.pitchWheel 16383 organPlan.arena) = some .one := by
  decide +kernel

end Router

end DspHost
