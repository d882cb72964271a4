import DspHost.Control.Table
import DspHost.Metadata.Validation
import Mathlib

/-!
# What the indexes of a parameter table lead to

The bindings of a table are the controls of the two trees in document order, those of the instrument
first. A binding keeps its place when others are added, so each index stays right: a controller
leads to bindings that it moves, the list of meters to bindings that the module writes, and the keys
to bindings that belong to the voices.

## Main definitions

* `Binding.Apart` — two controls whose values do not overlap
* `ModuleMetadata.FieldsApart` — a description in which no two controls overlap
* `ParameterTable.Indexed` — a table whose indexes are right

## Main results

* `map_controls` — the bindings of a tree are its controls
* `ParameterTable.indexed_build` — every table that is built is indexed right
* `ParameterTable.apart_of_build` — descriptions without overlaps make bindings without overlaps
-/

namespace DspHost

/-! ### The controls of a tree -/

/-- What a binding is in a list of controls. -/
def Binding.control (b : Binding) : String × ℕ := (b.path, b.index)

mutual

/-- The bindings of a node are its controls. -/
theorem UiItem.map_controls (scope : Scope) (item : UiItem) :
    (item.visits.filterMap (Binding.ofVisit? scope)).map Binding.control = item.controls := by
  cases item with
  | group kind label items =>
    have hexit : [Visit.exit label].filterMap (Binding.ofVisit? scope) = [] := rfl
    rw [UiItem.visits, List.filterMap_cons_none rfl, List.filterMap_append, hexit, List.append_nil,
      map_controls scope items, UiItem.controls]
  | slider kind s => rfl
  | toggle kind t => rfl
  | bargraph kind b => rfl
  | unsupported => rfl

/-- The bindings of sibling nodes are their controls. -/
theorem map_controls (scope : Scope) (items : List UiItem) :
    ((visitsOf items).filterMap (Binding.ofVisit? scope)).map Binding.control =
      controlsOf items := by
  cases items with
  | nil => rfl
  | cons item items =>
    rw [visitsOf, List.filterMap_append, List.map_append, UiItem.map_controls scope item,
      map_controls scope items, controlsOf]

end

theorem scope_of_ofVisit? {scope : Scope} {visit : Visit} {b : Binding}
    (h : Binding.ofVisit? scope visit = some b) : b.scope = scope := by
  unfold Binding.ofVisit? at h
  split at h
  · exact Option.some.inj h ▸ rfl
  · exact Option.some.inj h ▸ rfl
  · cases h

/-- The bindings of a tree have its scope. -/
theorem scope_of_mem_tree {scope : Scope} {ui : List UiItem} {b : Binding}
    (h : b ∈ (visitsOf ui).filterMap (Binding.ofVisit? scope)) : b.scope = scope := by
  obtain ⟨_, -, hvisit⟩ := List.mem_filterMap.mp h
  exact scope_of_ofVisit? hvisit

/-- Two controls of one instance whose values do not overlap. -/
def Binding.Apart (b c : Binding) : Prop := b.index + 4 ≤ c.index ∨ c.index + 4 ≤ b.index

theorem Binding.Apart.symm {b c : Binding} (h : b.Apart c) : c.Apart b := Or.symm h

/-- No two controls of a description overlap. -/
def ModuleMetadata.FieldsApart (m : ModuleMetadata) : Prop :=
  (controlsOf m.ui).Pairwise fun c d => c.2 + 4 ≤ d.2 ∨ d.2 + 4 ≤ c.2

namespace ParameterTable

/-- The inputs of a scope and their values at first. -/
def inputFields (t : ParameterTable) (scope : Scope) : List (ℕ × Single) :=
  (t.bindings.filter fun b => b.scope == scope && !b.isOutput).map fun b => (b.index, b.default)

variable {t : ParameterTable} {b c : Binding} {id : BindingId}

/-! ### Adding a binding -/

/-- A binding keeps its place. -/
theorem get?_push_of_get? (h : t.get? id = some c) (b : Binding) :
    (t.push b).get? id = some c := by
  have hlt : id < t.bindings.length := (List.getElem?_eq_some_iff.mp h).1
  exact (List.getElem?_append_left hlt).trans h

/-- A new binding takes the next place. -/
theorem get?_push_length (t : ParameterTable) (b : Binding) :
    (t.push b).get? t.bindings.length = some b := List.getElem?_concat_length

theorem mem_wheel_push (h : id ∈ (t.push b).wheel) :
    id ∈ t.wheel ∨ id = t.bindings.length ∧ b.midi = .wheel := by
  rw [push] at h
  dsimp only at h
  split at h
  · next hmidi =>
    rcases List.mem_append.mp h with hold | hnew
    · exact .inl hold
    · exact .inr ⟨List.mem_singleton.mp hnew, hmidi⟩
  · exact .inl h

theorem mem_meters_push (h : id ∈ (t.push b).meters) :
    id ∈ t.meters ∨ id = t.bindings.length ∧ b.isOutput = true := by
  rw [push] at h
  dsimp only at h
  split_ifs at h with houtput
  · rcases List.mem_append.mp h with hold | hnew
    · exact .inl hold
    · exact .inr ⟨List.mem_singleton.mp hnew, houtput⟩
  · exact .inl h

theorem mem_controller_push {number : UInt8} (h : id ∈ (t.push b).controller number) :
    id ∈ t.controller number ∨ id = t.bindings.length ∧ b.midi = .controller number := by
  rw [push, controller] at h
  dsimp only at h
  split at h
  · next n hmidi =>
    rw [List.getD_eq_getElem?_getD, List.getElem?_modify] at h
    -- Only the row of the binding's own controller grows.
    cases hrow : t.controllers[number.toNat]? with
    | none => simp [hrow] at h
    | some row =>
      have hold : t.controller number = row := by
        rw [controller, List.getD_eq_getElem?_getD, hrow, Option.getD_some]
      rw [hrow] at h
      change id ∈ (if n.toNat = number.toNat then row ++ [t.bindings.length] else row) at h
      rw [hold]
      split_ifs at h with hnumber
      · obtain rfl := UInt8.toNat_inj.mp hnumber
        rcases List.mem_append.mp h with hold | hnew
        · exact .inl hold
        · exact .inr ⟨List.mem_singleton.mp hnew, hmidi⟩
      · exact .inl h
  · exact .inl h

theorem get?_offer {keys : VoiceKeys} {key key' : VoiceKey} {new : BindingId}
    (h : (keys.offer key new).get? key' = some id) :
    keys.get? key' = some id ∨ key' = key ∧ id = new := by
  have hor {old : Option BindingId} (h : (old <|> some new) = some id) :
      old = some id ∨ id = new := by
    cases old with
    | none => exact .inr (Option.some.inj h).symm
    | some _ => exact .inl h
  cases key <;> cases key' <;> first
    | exact .inl h
    | exact (hor h).imp_right fun hnew => ⟨rfl, hnew⟩

theorem get?_keys_push {key : VoiceKey} (h : (t.push b).keys.get? key = some id) :
    t.keys.get? key = some id ∨ id = t.bindings.length ∧ t.ownedByVoices b = true := by
  rw [push] at h
  dsimp only at h
  split at h
  · next key' hscope hpoly hpath =>
    rcases get?_offer h with hold | ⟨-, hnew⟩
    · exact .inl hold
    · exact .inr ⟨hnew, by simp [ownedByVoices, hpoly, hscope, isVoiceKey, hpath]⟩
  · exact .inl h

/-! ### Indexes -/

/-- Every index of the table leads to bindings that it is for. -/
structure Indexed (t : ParameterTable) : Prop where
  keys : ∀ key id, t.keys.get? key = some id → ∃ b, t.get? id = some b ∧ t.ownedByVoices b = true
  meters : ∀ id ∈ t.meters, ∃ b, t.get? id = some b ∧ b.isOutput = true
  wheel : ∀ id ∈ t.wheel, ∃ b, t.get? id = some b ∧ b.midi = .wheel
  controller : ∀ number, ∀ id ∈ t.controller number, ∃ b,
    t.get? id = some b ∧ b.midi = .controller number

theorem indexed_empty (polyphonic : Bool) : (empty polyphonic).Indexed := by
  refine ⟨fun key id h => ?_, fun id h => ?_, fun id h => ?_, fun number id h => ?_⟩
  · cases key <;> cases h
  · cases h
  · cases h
  · rw [controller, empty, List.getD_eq_getElem?_getD, List.getElem?_replicate] at h
    split_ifs at h <;> cases h

/-- The indexes stay right when a binding is added. -/
theorem Indexed.push (h : t.Indexed) (b : Binding) : (t.push b).Indexed := by
  -- What an index led to before is still there, with all its properties.
  have hold {property : Binding → Prop} {id : BindingId}
      (hb : ∃ c, t.get? id = some c ∧ property c) :
      ∃ c, (t.push b).get? id = some c ∧ property c := by
    obtain ⟨c, hc, hproperty⟩ := hb
    exact ⟨c, get?_push_of_get? hc b, hproperty⟩
  refine ⟨fun key id hid => ?_, fun id hid => ?_, fun id hid => ?_, fun number id hid => ?_⟩
  · rcases get?_keys_push hid with hid | ⟨rfl, howned⟩
    · exact hold (h.keys key id hid)
    · exact ⟨b, t.get?_push_length b, howned⟩
  · rcases mem_meters_push hid with hid | ⟨rfl, houtput⟩
    · exact hold (h.meters id hid)
    · exact ⟨b, t.get?_push_length b, houtput⟩
  · rcases mem_wheel_push hid with hid | ⟨rfl, hmidi⟩
    · exact hold (h.wheel id hid)
    · exact ⟨b, t.get?_push_length b, hmidi⟩
  · rcases mem_controller_push hid with hid | ⟨rfl, hmidi⟩
    · exact hold (h.controller number id hid)
    · exact ⟨b, t.get?_push_length b, hmidi⟩

theorem Indexed.foldl_push (h : t.Indexed) (bs : List Binding) :
    (bs.foldl ParameterTable.push t).Indexed := by
  induction bs generalizing t with
  | nil => exact h
  | cons b rest ih => exact ih (h.push b)

/-- Every table that is built is indexed right. -/
theorem indexed_build (voice : ModuleMetadata) (effect : Option ModuleMetadata)
    (polyphonic : Bool) : (build voice effect polyphonic).Indexed := by
  have hvoice := (indexed_empty polyphonic).foldl_push
    ((visitsOf voice.ui).filterMap (Binding.ofVisit? .voice))
  cases effect with
  | none => exact hvoice
  | some effect => exact hvoice.foldl_push _

/-! ### The bindings of two trees -/

theorem bindings_foldl_push (t : ParameterTable) (bs : List Binding) :
    (bs.foldl push t).bindings = t.bindings ++ bs := by
  induction bs generalizing t with
  | nil => exact (List.append_nil _).symm
  | cons b rest ih => rw [List.foldl_cons, ih, push, List.append_assoc, List.singleton_append]

theorem polyphonic_foldl_push (t : ParameterTable) (bs : List Binding) :
    (bs.foldl push t).polyphonic = t.polyphonic := by
  induction bs generalizing t with
  | nil => rfl
  | cons b rest ih => rw [List.foldl_cons, ih, push]

theorem polyphonic_build (voice : ModuleMetadata) (effect : Option ModuleMetadata)
    (polyphonic : Bool) : (build voice effect polyphonic).polyphonic = polyphonic := by
  cases effect with
  | none => exact polyphonic_foldl_push _ _
  | some effect => exact (polyphonic_foldl_push _ _).trans (polyphonic_foldl_push _ _)

/-- The bindings of the instrument come first, and then those of the effect. -/
theorem bindings_build (voice : ModuleMetadata) (effect : Option ModuleMetadata)
    (polyphonic : Bool) :
    (build voice effect polyphonic).bindings =
      (visitsOf voice.ui).filterMap (Binding.ofVisit? .voice) ++
        effect.elim [] fun effect => (visitsOf effect.ui).filterMap (Binding.ofVisit? .effect) := by
  cases effect with
  | none => exact (bindings_foldl_push _ _).trans (List.append_nil _).symm
  | some effect =>
    refine (bindings_foldl_push _ _).trans (congrArg (· ++ _) ?_)
    exact bindings_foldl_push _ _

/-- The description that the controls of a scope come from. -/
def describedBy (voice : ModuleMetadata) (effect : Option ModuleMetadata) :
    Scope → Option ModuleMetadata
  | .voice => some voice
  | .effect => effect

section Build

variable {voice : ModuleMetadata} {effect : Option ModuleMetadata} {polyphonic : Bool}

/-- Every binding comes from the tree of its scope. -/
theorem visited_of_build (hb : b ∈ (build voice effect polyphonic).bindings) :
    ∃ d, describedBy voice effect b.scope = some d ∧
      b ∈ (visitsOf d.ui).filterMap (Binding.ofVisit? b.scope) := by
  rw [bindings_build, List.mem_append] at hb
  rcases hb with hb | hb
  · have hscope := scope_of_mem_tree hb
    exact ⟨voice, by rw [hscope, describedBy], hscope.symm ▸ hb⟩
  · cases effect with
    | none => cases hb
    | some d =>
      have hscope := scope_of_mem_tree hb
      exact ⟨d, by rw [hscope, describedBy], hscope.symm ▸ hb⟩

/-- What holds between the bindings of each tree holds between all bindings of one scope. -/
theorem pairwise_build {related : Binding → Binding → Prop}
    (htree : ∀ scope d, describedBy voice effect scope = some d →
      ((visitsOf d.ui).filterMap (Binding.ofVisit? scope)).Pairwise related)
    (polyphonic : Bool) :
    (build voice effect polyphonic).bindings.Pairwise fun b c =>
      b.scope = c.scope → related b c := by
  have hweak (scope : Scope) (d : ModuleMetadata) (hd : describedBy voice effect scope = some d) :
      ((visitsOf d.ui).filterMap (Binding.ofVisit? scope)).Pairwise fun b c =>
        b.scope = c.scope → related b c := by
    refine (htree scope d hd).imp ?_
    intro b c h _
    exact h
  rw [bindings_build, List.pairwise_append]
  refine ⟨hweak .voice voice rfl, ?_, fun b hfirst c hsecond hscope => ?_⟩
  · cases effect with
    | none => exact .nil
    | some d => exact hweak .effect d rfl
  · -- Two bindings of different trees have different scopes.
    cases effect with
    | none => cases hsecond
    | some d =>
      rw [scope_of_mem_tree hfirst, scope_of_mem_tree hsecond] at hscope
      cases hscope

/-- Descriptions whose controls do not overlap make bindings of which no two of a scope do. -/
theorem apart_of_build (hapart : ∀ scope d, describedBy voice effect scope = some d →
    d.FieldsApart) {id' : BindingId} (hne : id ≠ id')
    (hb : (build voice effect polyphonic).get? id = some b)
    (hc : (build voice effect polyphonic).get? id' = some c) (hscope : b.scope = c.scope) :
    b.Apart c := by
  have hpairs : (build voice effect polyphonic).bindings.Pairwise fun b c =>
      b.scope = c.scope → b.Apart c := by
    refine pairwise_build (fun scope d hd => ?_) polyphonic
    have hfields := hapart scope d hd
    rwa [ModuleMetadata.FieldsApart, ← map_controls scope d.ui, List.pairwise_map] at hfields
  obtain ⟨hlt, rfl⟩ := List.getElem?_eq_some_iff.mp hb
  obtain ⟨hlt', rfl⟩ := List.getElem?_eq_some_iff.mp hc
  rcases Nat.lt_or_gt_of_ne hne with hless | hgreater
  · exact List.pairwise_iff_getElem.mp hpairs id id' hlt hlt' hless hscope
  · exact (List.pairwise_iff_getElem.mp hpairs id' id hlt' hlt hgreater hscope.symm).symm

end Build

end ParameterTable

end DspHost
