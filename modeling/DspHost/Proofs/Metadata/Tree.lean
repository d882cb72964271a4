import DspHost.Metadata.Validation
import Mathlib

/-!
# Places in a tree

The tree of a description is walked more than once: to check it, to bind its controls, and to show
it. What these walks have to agree on is said here without a walk. A node has a place, the numbers
of the items that lead to it, and document order is the lexicographic order of places. The leaves of
a tree, listed in that order, are what every walk meets.

## Main definitions

* `Place`, `nodeAt?` — where a node stands, and the node that stands there
* `leavesOf`, `widgetsOf` — the leaves of a tree, and those that hold values, with their places
* `controlAt?`, `placedControls` — their paths and offsets
* `openAfter?` — the groups that a walk leaves open

## Main results

* `mem_leavesOf`, `pairwise_leavesOf` — the list has all leaves, in document order
* `controlsOf_eq`, `visitsOf_eq` — both walks go through this list
* `openAfter?_visitsOf` — groups that begin in a walk end in it, the innermost first
-/

namespace DspHost

/-! ### Places -/

/-- Where a node stands in a tree: the number of the item at the top that holds it, the number of
the item in that, and so on. Document order is the order of places. -/
abbrev Place := List ℕ

/-- The node at a place below a node. -/
def UiItem.at? : Place → UiItem → Option UiItem
  | [], item => some item
  | n :: place, .group _ _ items => items[n]?.bind (UiItem.at? place)
  | _ :: _, _ => none

/-- The node at a place of a tree. -/
def nodeAt? (ui : List UiItem) : Place → Option UiItem
  | [] => none
  | n :: place => ui[n]?.bind (UiItem.at? place)

/-- Whether a node is no group. -/
def UiItem.isLeaf : UiItem → Bool
  | .group _ _ _ => false
  | _ => true

/-- A leaf as a control: its path and its offset. -/
def UiItem.control? : UiItem → Option (String × ℕ)
  | .slider _ s => some (s.address, s.index)
  | .toggle _ t => some (t.address, t.index)
  | .bargraph _ b => some (b.address, b.index)
  | _ => none

/-- The path and offset of the control at a place of a tree. -/
def controlAt? (ui : List UiItem) (place : Place) : Option (String × ℕ) :=
  (nodeAt? ui place).bind UiItem.control?

/-! ### Leaves -/

mutual

/-- The leaves below a node with their places, in document order. -/
def UiItem.leaves : UiItem → List (Place × UiItem)
  | .group _ _ items => leavesFrom 0 items
  | item => [([], item)]

/-- The leaves of sibling nodes, the first of which has number `n`. -/
def leavesFrom (n : ℕ) : List UiItem → List (Place × UiItem)
  | [] => []
  | item :: items => item.leaves.map (fun leaf => (n :: leaf.1, leaf.2)) ++ leavesFrom (n + 1) items

end

/-- The leaves of a tree with their places, in document order. -/
def leavesOf (ui : List UiItem) : List (Place × UiItem) := leavesFrom 0 ui

variable {item leaf : UiItem} {items ui : List UiItem} {place : Place} {n : ℕ}

/-- The leaves of siblings come from one of them and have its number in front. -/
theorem mem_leavesFrom_iff {x : Place × UiItem} :
    x ∈ leavesFrom n items ↔ ∃ k item y, items[k]? = some item ∧ y ∈ item.leaves ∧
      x = ((n + k) :: y.1, y.2) := by
  induction items generalizing n with
  | nil => simp [leavesFrom]
  | cons first rest ih =>
    rw [leavesFrom, List.mem_append, ih, List.mem_map]
    constructor
    · rintro (⟨y, hy, rfl⟩ | ⟨k, item, y, hitem, hy, rfl⟩)
      · exact ⟨0, first, y, rfl, hy, rfl⟩
      · exact ⟨k + 1, item, y, hitem, hy, by rw [Nat.add_assoc, Nat.add_comm 1]⟩
    · rintro ⟨k, item, y, hitem, hy, rfl⟩
      cases k with
      | zero =>
        obtain rfl := Option.some.inj hitem
        exact .inl ⟨y, hy, rfl⟩
      | succ k => exact .inr ⟨k, item, y, hitem, hy, by rw [Nat.add_assoc, Nat.add_comm 1]⟩

/-- The list has the leaves below a node, and nothing else. -/
theorem UiItem.mem_leaves (place : Place) (leaf item : UiItem) :
    (place, leaf) ∈ item.leaves ↔ item.at? place = some leaf ∧ leaf.isLeaf = true := by
  -- A place decides by its first number which item it goes on with.
  induction place generalizing item with
  | nil =>
    cases item with
    | group kind label items =>
      simp only [UiItem.leaves, UiItem.at?, mem_leavesFrom_iff]
      constructor
      · rintro ⟨_, _, _, _, _, h⟩
        cases h
      · rintro ⟨h, hleaf⟩
        obtain rfl := Option.some.inj h
        cases hleaf
    | _ =>
      simp only [UiItem.leaves, UiItem.at?, List.mem_singleton]
      constructor
      · intro h
        cases h
        exact ⟨rfl, rfl⟩
      · rintro ⟨h, -⟩
        cases h
        rfl
  | cons n place ih =>
    cases item with
    | group kind label items =>
      simp only [UiItem.leaves, UiItem.at?, mem_leavesFrom_iff, Option.bind_eq_some_iff]
      constructor
      · rintro ⟨k, item, y, hitem, hy, h⟩
        obtain ⟨hplace, rfl⟩ := Prod.mk.inj h
        obtain ⟨rfl, rfl⟩ := List.cons.inj hplace
        obtain ⟨hat, hleaf⟩ := (ih item).mp hy
        exact ⟨⟨item, by rwa [Nat.zero_add], hat⟩, hleaf⟩
      · rintro ⟨⟨item, hitem, hat⟩, hleaf⟩
        exact ⟨n, item, (place, leaf), hitem, (ih item).mpr ⟨hat, hleaf⟩, by rw [Nat.zero_add]⟩
    | _ => simp [UiItem.leaves, UiItem.at?]

/-- The list has the leaves of a tree, and nothing else. -/
theorem mem_leavesOf : (place, leaf) ∈ leavesOf ui ↔
    nodeAt? ui place = some leaf ∧ leaf.isLeaf = true := by
  -- A tree is as good as a group without a name.
  have hgroup := UiItem.mem_leaves place leaf (.group .vertical "" ui)
  rw [UiItem.leaves] at hgroup
  rw [leavesOf, hgroup]
  cases place with
  | nil =>
    simp only [UiItem.at?, nodeAt?]
    constructor
    · rintro ⟨h, hleaf⟩
      obtain rfl := Option.some.inj h
      cases hleaf
    · rintro ⟨h, -⟩
      cases h
  | cons n place => rfl

mutual

/-- The leaves below a node are in document order. -/
theorem UiItem.pairwise_leaves (item : UiItem) :
    item.leaves.Pairwise fun x y => x.1 < y.1 := by
  cases item with
  | group kind label items => exact pairwise_leavesFrom 0 items
  | _ => exact List.pairwise_singleton _ _

/-- The leaves of sibling nodes are in document order. -/
theorem pairwise_leavesFrom (n : ℕ) (items : List UiItem) :
    (leavesFrom n items).Pairwise fun x y => x.1 < y.1 := by
  cases items with
  | nil => exact .nil
  | cons item items =>
    rw [leavesFrom, List.pairwise_append, List.pairwise_map]
    refine ⟨item.pairwise_leaves.imp fun h => ?_, pairwise_leavesFrom (n + 1) items, ?_⟩
    · exact List.cons_lt_cons_self.mpr h
    · intro x hx y hy
      obtain ⟨_, -, rfl⟩ := List.mem_map.mp hx
      obtain ⟨k, _, _, -, -, rfl⟩ := mem_leavesFrom_iff.mp hy
      exact List.cons_lt_cons_iff.mpr (.inl (by omega))

end

/-- The leaves of a tree are in document order. -/
theorem pairwise_leavesOf (ui : List UiItem) :
    (leavesOf ui).Pairwise fun x y => x.1 < y.1 := pairwise_leavesFrom 0 ui

/-- Whether a node is a widget that holds a value. -/
def UiItem.isWidget (item : UiItem) : Bool := item.control?.isSome

theorem UiItem.isLeaf_of_isWidget (h : item.isWidget = true) : item.isLeaf = true := by
  cases item with
  | group => cases h
  | _ => rfl

/-- The widgets of a tree with their places, in document order. -/
def widgetsOf (ui : List UiItem) : List (Place × UiItem) :=
  (leavesOf ui).filter (·.2.isWidget)

theorem mem_widgetsOf : (place, item) ∈ widgetsOf ui ↔
    nodeAt? ui place = some item ∧ item.isWidget = true := by
  rw [widgetsOf, List.mem_filter, mem_leavesOf, and_assoc]
  exact and_congr_right fun _ => and_iff_right_of_imp UiItem.isLeaf_of_isWidget

theorem pairwise_widgetsOf (ui : List UiItem) :
    (widgetsOf ui).Pairwise fun x y => x.1 < y.1 := (pairwise_leavesOf ui).filter _

/-! ### Controls -/

/-- The controls of a tree with their places, in document order. -/
def placedControls (ui : List UiItem) : List (Place × String × ℕ) :=
  (leavesOf ui).filterMap fun leaf => leaf.2.control?.map (leaf.1, ·)

theorem mem_placedControls {control : String × ℕ} :
    (place, control) ∈ placedControls ui ↔ controlAt? ui place = some control := by
  rw [placedControls, List.mem_filterMap, controlAt?, Option.bind_eq_some_iff]
  constructor
  · rintro ⟨⟨_, leaf⟩, hleaf, hcontrol⟩
    obtain ⟨_, hsame, h⟩ := Option.map_eq_some_iff.mp hcontrol
    obtain ⟨rfl, rfl⟩ := Prod.mk.inj h
    exact ⟨leaf, (mem_leavesOf.mp hleaf).1, hsame⟩
  · rintro ⟨leaf, hleaf, hcontrol⟩
    have hwidget : leaf.isWidget = true := by rw [UiItem.isWidget, hcontrol, Option.isSome_some]
    have hmem := mem_leavesOf.mpr ⟨hleaf, UiItem.isLeaf_of_isWidget hwidget⟩
    exact ⟨(place, leaf), hmem, by rw [hcontrol, Option.map_some]⟩

theorem pairwise_placedControls (ui : List UiItem) :
    (placedControls ui).Pairwise fun x y => x.1 < y.1 := by
  refine (pairwise_leavesOf ui).filterMap _ fun leaf leaf' hlt x hx y hy => ?_
  obtain ⟨_, -, rfl⟩ := Option.map_eq_some_iff.mp hx
  obtain ⟨_, -, rfl⟩ := Option.map_eq_some_iff.mp hy
  exact hlt

/-! ### Walks -/

mutual

/-- The controls of a node are found at its leaves. -/
theorem UiItem.controls_eq (item : UiItem) :
    item.controls = item.leaves.filterMap fun leaf => leaf.2.control? := by
  cases item with
  | group kind label items => exact controlsOf_eq_leavesFrom 0 items
  | _ => rfl

/-- The controls of sibling nodes are found at their leaves. -/
theorem controlsOf_eq_leavesFrom (n : ℕ) (items : List UiItem) :
    controlsOf items = (leavesFrom n items).filterMap fun leaf => leaf.2.control? := by
  cases items with
  | nil => rfl
  | cons item items =>
    rw [controlsOf, leavesFrom, List.filterMap_append, List.filterMap_map, item.controls_eq,
      controlsOf_eq_leavesFrom (n + 1) items]
    rfl

end

/-- The walk that checks a tree goes through its controls in document order. -/
theorem controlsOf_eq (ui : List UiItem) : controlsOf ui = (placedControls ui).map (·.2) := by
  rw [placedControls, List.map_filterMap, controlsOf_eq_leavesFrom 0 ui]
  refine List.filterMap_congr fun leaf _ => ?_
  rw [Option.map_map]
  exact Option.map_id_apply.symm

/-- Whether a walk meets a control. -/
def Visit.isControl : Visit → Bool
  | .input _ => true
  | .output _ => true
  | _ => false

mutual

/-- The walk below a node meets its widgets. -/
theorem UiItem.visits_eq (item : UiItem) :
    item.visits.filter Visit.isControl =
      (item.leaves.filter (·.2.isWidget)).flatMap fun widget => widget.2.visits := by
  cases item with
  | group kind label items =>
    rw [UiItem.visits, UiItem.leaves, List.filter_cons_of_neg (by simp [Visit.isControl]),
      List.filter_append, visitsOf_eq_leavesFrom 0 items]
    exact List.append_nil _
  | _ => rfl

/-- The walk through sibling nodes meets their widgets. -/
theorem visitsOf_eq_leavesFrom (n : ℕ) (items : List UiItem) :
    (visitsOf items).filter Visit.isControl =
      ((leavesFrom n items).filter (·.2.isWidget)).flatMap fun widget => widget.2.visits := by
  cases items with
  | nil => rfl
  | cons item items =>
    rw [visitsOf, leavesFrom, List.filter_append, List.filter_append, List.flatMap_append,
      List.filter_map, List.flatMap_map, item.visits_eq, visitsOf_eq_leavesFrom (n + 1) items]
    rfl

end

/-- The walk that shows a tree goes through its widgets in document order. -/
theorem visitsOf_eq (ui : List UiItem) :
    (visitsOf ui).filter Visit.isControl = (widgetsOf ui).flatMap fun widget => widget.2.visits :=
  visitsOf_eq_leavesFrom 0 ui

/-! ### Groups -/

/-- The groups that are open after a walk, the innermost first; none if a group ends that is not the
innermost open one. -/
def openAfter? : List String → List Visit → Option (List String)
  | groups, [] => some groups
  | groups, .enter label :: rest => openAfter? (label :: groups) rest
  | [], .exit _ :: _ => none
  | innermost :: groups, .exit label :: rest =>
    if label = innermost then openAfter? groups rest else none
  | groups, .input _ :: rest => openAfter? groups rest
  | groups, .output _ :: rest => openAfter? groups rest
  | groups, .unsupported :: rest => openAfter? groups rest

example : openAfter? [] [.enter "a", .enter "b", .exit "a", .exit "b"] = none := by decide

mutual

/-- The walk below a node ends all groups that it has begun. -/
theorem UiItem.openAfter?_visits (item : UiItem) (groups : List String) (rest : List Visit) :
    openAfter? groups (item.visits ++ rest) = openAfter? groups rest := by
  cases item with
  | group kind label items =>
    rw [UiItem.visits, List.cons_append, openAfter?, List.append_assoc,
      openAfter?_visitsOf items (label :: groups), List.singleton_append, openAfter?, if_pos rfl]
  | _ => simp only [UiItem.visits, List.singleton_append, openAfter?]

/-- The walk through sibling nodes ends all groups that it has begun. -/
theorem openAfter?_visitsOf (items : List UiItem) (groups : List String) (rest : List Visit) :
    openAfter? groups (visitsOf items ++ rest) = openAfter? groups rest := by
  cases items with
  | nil => rfl
  | cons item items =>
    rw [visitsOf, List.append_assoc, item.openAfter?_visits groups,
      openAfter?_visitsOf items groups rest]

end

end DspHost
