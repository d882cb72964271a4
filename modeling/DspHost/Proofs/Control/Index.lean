import DspHost.Proofs.Control.Sources
import DspHost.Proofs.Metadata.Tree

/-!
# A parameter table as an index of two trees

The bindings of a table are the widgets of the combined tree of an instrument and its effect, in
document order, and the place of a binding in the table is its identity. What leads to bindings is
kept beside them and grows with every binding that is added: a list for each controller, for the
pitch wheel and for the meters, and the latest binding of every path. These are compared with what a
search through all bindings would find.

## Main definitions

* `Binding.Depicts` — a binding with everything that its widget says
* `scopeAt` — the scope of the tree that a place of the combined tree belongs to
* `ParameterTable.Finds` — looking up a path finds the last binding with it
* `ParameterTable.IndexOf` — a table that is an index of two trees

## Main results

* `depicts_build` — the bindings of a table depict the widgets of the combined tree
* `ParameterTable.Finds.push` — the latest binding is the last one with its path
* `ParameterTable.indexOf_build` — every table that is built is an index of its trees
-/

namespace DspHost

/-! ### Widgets and bindings -/

/-- A binding with everything that its widget says. A toggle goes from zero to one and is off at
first; a meter begins with its least value. -/
def Binding.Depicts (b : Binding) (scope : Scope) : UiItem → Prop
  | .slider kind s =>
    b = { path := s.address, index := s.index, min := s.min, max := s.max, default := s.init,
          step := s.step, kind := .input (.slider kind), midi := .ofAnnotations s.annotations,
          scope := scope }
  | .toggle kind t =>
    b = { path := t.address, index := t.index, min := .zero, max := .one, default := .zero,
          step := .one, kind := .input (.toggle kind), midi := .ofAnnotations t.annotations,
          scope := scope }
  | .bargraph _ g =>
    b = { path := g.address, index := g.index, min := g.min, max := g.max, default := g.min,
          step := .zero, kind := .output, midi := .ofAnnotations g.annotations, scope := scope }
  | _ => False

/-- The scope of the tree that a place of the combined tree belongs to: the second panel is the one
of the effect, if there are panels. -/
def scopeAt (effect : Option ModuleMetadata) (place : Place) : Scope :=
  if effect.isSome ∧ [0, 1] <+: place then .effect else .voice

/-- The tree of an instrument and its optional effect. -/
def combinedTree (voice : ModuleMetadata) (effect : Option ModuleMetadata) : List UiItem :=
  combinedUi voice.ui (effect.map (·.ui))

/-- Bindings are made of what a walk meets apart from groups. -/
theorem filterMap_ofVisit?_filter (scope : Scope) (visits : List Visit) :
    (visits.filter Visit.isControl).filterMap (Binding.ofVisit? scope) =
      visits.filterMap (Binding.ofVisit? scope) := by
  rw [List.filterMap_filter]
  refine List.filterMap_congr fun visit _ => ?_
  cases visit <;> rfl

/-- The bindings of a tree depict its widgets. -/
theorem depicts_visitsOf (scope : Scope) (ui : List UiItem) :
    List.Forall₂ (fun widget b => b.Depicts scope widget.2) (widgetsOf ui)
      ((visitsOf ui).filterMap (Binding.ofVisit? scope)) := by
  rw [← filterMap_ofVisit?_filter, visitsOf_eq, List.filterMap_flatMap]
  have hwidgets : ∀ widget ∈ widgetsOf ui, widget.2.isWidget = true := fun widget hwidget =>
    (mem_widgetsOf.mp hwidget).2
  generalize widgetsOf ui = widgets at hwidgets ⊢
  induction widgets with
  | nil => exact .nil
  | cons widget rest ih =>
    obtain ⟨place, item⟩ := widget
    have hrest := ih fun widget hwidget => hwidgets widget (List.mem_cons_of_mem _ hwidget)
    have hitem := hwidgets (place, item) List.mem_cons_self
    rw [List.flatMap_cons]
    -- A widget makes one binding.
    cases item with
    | slider => exact .cons rfl hrest
    | toggle => exact .cons rfl hrest
    | bargraph => exact .cons rfl hrest
    | group => cases hitem
    | unsupported => cases hitem

/-- The widgets of the two panels of a combined tree. -/
theorem widgetsOf_panels (instrument effect : List UiItem) :
    widgetsOf (combinedUi instrument (some effect)) =
      (widgetsOf instrument).map (fun widget => (0 :: 0 :: widget.1, widget.2)) ++
        (widgetsOf effect).map (fun widget => (0 :: 1 :: widget.1, widget.2)) := by
  simp [widgetsOf, leavesOf, combinedUi, leavesFrom, UiItem.leaves, List.filter_map,
    Function.comp_def]

/-- The bindings of a table depict the widgets of the combined tree. -/
theorem depicts_build (voice : ModuleMetadata) (effect : Option ModuleMetadata)
    (polyphonic : Bool) :
    List.Forall₂ (fun widget b => b.Depicts (scopeAt effect widget.1) widget.2)
      (widgetsOf (combinedTree voice effect))
      (ParameterTable.build voice effect polyphonic).bindings := by
  rw [ParameterTable.bindings_build]
  cases effect with
  | none =>
    rw [Option.elim_none, List.append_nil]
    exact (depicts_visitsOf .voice voice.ui).imp fun _ _ h => h
  | some effect =>
    rw [combinedTree, Option.map_some, widgetsOf_panels, Option.elim_some]
    refine List.rel_append ?_ ?_
    · rw [List.forall₂_map_left_iff]
      exact (depicts_visitsOf .voice voice.ui).imp fun _ _ h => h
    · rw [List.forall₂_map_left_iff]
      exact (depicts_visitsOf .effect effect.ui).imp fun _ _ h => h

namespace ParameterTable

variable {t : ParameterTable} {b c : Binding} {id : BindingId} {path : String}

/-! ### Paths -/

/-- Looking up a path finds the last binding with it, if there is one. -/
structure Finds (t : ParameterTable) (path : String) : Prop where
  found : ∀ id, t.lookup? path = some id →
    (∃ b, t.get? id = some b ∧ b.path = path) ∧
      ∀ later c, id < later → t.get? later = some c → c.path ≠ path
  missing : t.lookup? path = none → ∀ b ∈ t.bindings, b.path ≠ path

theorem lookup?_push (t : ParameterTable) (b : Binding) (path : String) :
    (t.push b).lookup? path =
      if path = b.path then some t.bindings.length else t.lookup? path := by
  rw [lookup?, push, List.lookup_cons]
  by_cases h : path = b.path
  · rw [if_pos h, beq_iff_eq.mpr h]
  · rw [if_neg h, beq_eq_false_iff_ne.mpr h, lookup?]

/-- The binding that was added is the last one with its path. -/
theorem Finds.push (h : t.Finds path) (b : Binding) : (t.push b).Finds path := by
  by_cases hpath : path = b.path
  · have hlookup : (t.push b).lookup? path = some t.bindings.length := by
      rw [lookup?_push, if_pos hpath]
    refine ⟨fun id hid => ?_, fun hnone => ?_⟩
    · obtain rfl := Option.some.inj (hlookup.symm.trans hid)
      refine ⟨⟨b, t.get?_push_length b, hpath.symm⟩, fun later c hlt hc => ?_⟩
      rcases get?_push_iff.mp hc with hc | ⟨rfl, -⟩
      · exact absurd hlt (lt_length_of_get? hc).asymm
      · exact absurd hlt (lt_irrefl _)
    · rw [hlookup] at hnone
      cases hnone
  · have hlookup : (t.push b).lookup? path = t.lookup? path := by
      rw [lookup?_push, if_neg hpath]
    refine ⟨fun id hid => ?_, fun hnone c hc => ?_⟩
    · obtain ⟨⟨c, hc, hsame⟩, hlast⟩ := h.found id (hlookup.symm.trans hid)
      refine ⟨⟨c, get?_push_of_get? hc b, hsame⟩, fun later d hlt hd => ?_⟩
      rcases get?_push_iff.mp hd with hd | ⟨-, rfl⟩
      · exact hlast later d hlt hd
      · exact Ne.symm hpath
    · rcases List.mem_append.mp hc with hc | hc
      · exact h.missing (hlookup.symm.trans hnone) c hc
      · rw [List.mem_singleton.mp hc]
        exact Ne.symm hpath

theorem Finds.foldl_push (h : t.Finds path) (bs : List Binding) :
    (bs.foldl ParameterTable.push t).Finds path := by
  induction bs generalizing t with
  | nil => exact h
  | cons b rest ih => exact ih (h.push b)

theorem finds_empty (polyphonic : Bool) (path : String) : (empty polyphonic).Finds path :=
  ⟨fun id hid => (by cases hid), fun _ b hb => (by cases hb)⟩

/-- In every table that is built a path leads to the last binding with it. -/
theorem finds_build (voice : ModuleMetadata) (effect : Option ModuleMetadata) (polyphonic : Bool)
    (path : String) : (build voice effect polyphonic).Finds path := by
  have hvoice := (finds_empty polyphonic path).foldl_push
    ((visitsOf voice.ui).filterMap (Binding.ofVisit? .voice))
  cases effect with
  | none => exact hvoice
  | some effect => exact hvoice.foldl_push _

/-- No binding of the instrument comes after one of the effect. -/
theorem scope_of_lt {voice : ModuleMetadata} {effect : Option ModuleMetadata} {polyphonic : Bool}
    {later : BindingId} (hb : (build voice effect polyphonic).get? id = some b)
    (hscope : b.scope = .effect) (hlt : id < later)
    (hc : (build voice effect polyphonic).get? later = some c) : c.scope = .effect := by
  have hpairs : (build voice effect polyphonic).bindings.Pairwise fun b c =>
      b.scope = .effect → c.scope = .effect := by
    rw [bindings_build, List.pairwise_append]
    refine ⟨List.pairwise_of_forall_mem_list fun b hb c _ h => ?_, ?_, fun b hb c _ h => ?_⟩
    · cases (scope_of_mem_tree hb).symm.trans h
    · cases effect with
      | none => exact .nil
      | some d => exact List.pairwise_of_forall_mem_list fun _ _ c hc _ => scope_of_mem_tree hc
    · cases (scope_of_mem_tree hb).symm.trans h
  obtain ⟨hid, rfl⟩ := List.getElem?_eq_some_iff.mp hb
  obtain ⟨hlater, rfl⟩ := List.getElem?_eq_some_iff.mp hc
  exact List.pairwise_iff_getElem.mp hpairs id later hid hlater hlt hscope

/-- If the effect has a control with a path, the path leads to a control of the effect. -/
theorem Finds.shadows {voice : ModuleMetadata} {effect : Option ModuleMetadata}
    {polyphonic : Bool} (h : (build voice effect polyphonic).Finds b.path)
    (hb : b ∈ (build voice effect polyphonic).bindings) (hscope : b.scope = .effect) :
    ∃ id c, (build voice effect polyphonic).lookup? b.path = some id ∧
      (build voice effect polyphonic).get? id = some c ∧ c.scope = .effect := by
  obtain ⟨place, hlt, rfl⟩ := List.mem_iff_getElem.mp hb
  have hplace := List.getElem?_eq_getElem hlt
  cases hlookup : (build voice effect polyphonic).lookup? _ with
  | none => exact absurd rfl (h.missing hlookup _ hb)
  | some id =>
    obtain ⟨⟨c, hc, -⟩, hlast⟩ := h.found id hlookup
    refine ⟨id, c, rfl, hc, ?_⟩
    rcases lt_trichotomy place id with hless | rfl | hgreater
    · exact scope_of_lt hplace hscope hless hc
    · exact Option.some.inj (hplace.symm.trans hc) ▸ hscope
    · exact absurd rfl (hlast place _ hgreater hplace)

/-! ### The index of two trees -/

/-- A table that is an index of the trees of an instrument and its effect. -/
structure IndexOf (t : ParameterTable) (voice : ModuleMetadata) (effect : Option ModuleMetadata) :
    Prop where
  /-- The widgets of the combined tree are listed in document order. -/
  ordered : (widgetsOf (combinedTree voice effect)).Pairwise fun v w => v.1 < w.1
  /-- The list has every widget of the tree. -/
  complete : ∀ place item, (place, item) ∈ widgetsOf (combinedTree voice effect) ↔
    nodeAt? (combinedTree voice effect) place = some item ∧ item.isWidget = true
  /-- The walk through the tree meets these widgets, in this order, and no other controls. -/
  met : (visitsOf (combinedTree voice effect)).filter Visit.isControl =
    (widgetsOf (combinedTree voice effect)).flatMap fun widget => widget.2.visits
  /-- The bindings are these widgets, in this order. -/
  depicts : List.Forall₂ (fun widget b => b.Depicts (scopeAt effect widget.1) widget.2)
    (widgetsOf (combinedTree voice effect)) t.bindings
  /-- A controller leads to the bindings that it moves. -/
  controller : ∀ number, t.Lists (t.controller number) (·.midi = .controller number)
  /-- The pitch wheel leads to the bindings that it moves. -/
  wheel : t.Lists t.wheel (·.midi = .wheel)
  /-- The meters are the bindings that the module writes. -/
  meters : t.Lists t.meters (·.isOutput = true)
  /-- A path leads to the last binding with it. -/
  finds : ∀ path, t.Finds path
  /-- If the effect has a control with a path, the path leads to a control of the effect. -/
  shadows : ∀ b ∈ t.bindings, b.scope = .effect →
    ∃ id c, t.lookup? b.path = some id ∧ t.get? id = some c ∧ c.scope = .effect
  /-- A group that begins in the walk ends in it, the innermost first. -/
  nested : openAfter? [] (visitsOf (combinedTree voice effect)) = some []

/-- Every table that is built is an index of its trees. The identity of a binding is its place, so
identities fit a word of 32 bits as long as the number of controls does. -/
theorem indexOf_build (voice : ModuleMetadata) (effect : Option ModuleMetadata)
    (polyphonic : Bool) : (build voice effect polyphonic).IndexOf voice effect := by
  have hcomplete := complete_build voice effect polyphonic
  have hnested := openAfter?_visitsOf (combinedTree voice effect) [] []
  rw [List.append_nil] at hnested
  exact {
    ordered := pairwise_widgetsOf _
    complete := fun _ _ => mem_widgetsOf
    met := visitsOf_eq _
    depicts := depicts_build voice effect polyphonic
    controller := hcomplete.controller
    wheel := hcomplete.wheel
    meters := hcomplete.meters
    finds := finds_build voice effect polyphonic
    shadows := fun b hb => (finds_build voice effect polyphonic b.path).shadows hb
    nested := hnested }

end ParameterTable

end DspHost
