import DspHost.Proofs.Metadata.Verdict
import DspHost.Proofs.Metadata.Widgets

/-!
# Descriptions that are printed and read again

A description is printed with everything that it has, where the document it was read from may have
left things out or spelled them in another way. It is read again as it is, for all trees, unless it
has a value that is not finite, which no number spells, or is written deeper than documents are
read: an empty list that was left out opens one more container where it is printed.

## Main definitions

* `UiItem.levels`, `UiItem.levelsOf` — how deep a tree is written
* `UiItem.Kept`, `ModuleMetadata.Kept` — what is read back but for its values and its depth
* `ModuleMetadata.sizes`, `ModuleMetadata.isFinite` — the numbers of a description

## Main results

* `UiItem.sound_toJson`, `UiItem.read?_toJson` — when a node is read back, by induction on the tree
* `UiItem.kept_of_read?` — what is read is kept, by induction on the depth
* `ModuleMetadata.parse_toText_of_parse` — what becomes of the text of a description
-/

namespace DspHost

/-! ### The tree -/

theorem UiTag.ofName_name (tag : UiTag) : ofName tag.name = tag := by
  cases tag with
  | unsupported => decide
  | group kind | slider kind | toggle kind | bargraph kind => cases kind <;> decide

namespace UiItem

/-- The kind of a node that was written, and its members. -/
theorem split?_ofMembers {members : List (String × Json)} (h : "type" ∉ members.map (·.1))
    (nested : Bool) (tag : UiTag) :
    split? nested (.ofMembers (("type", .ofString tag.name) :: members)) =
      some (tag, .ofMembers members) := by
  have hother : ∀ m ∈ members.map fun m => ((some m.1, m.2) : Option String × Json),
      m.1 ≠ some "type" :=
    List.forall_mem_map.mpr fun m hm heq => h (Option.some.inj heq ▸ List.mem_map_of_mem hm)
  have hmember : Json.member? "type" ((some "type", .ofString tag.name) ::
      members.map fun m => (some m.1, m.2)) = some (some (.ofString tag.name)) := by
    rw [Json.member?, List.filter_cons, if_pos (beq_self_eq_true _),
      List.filter_eq_nil_iff.mpr fun m hm => by simpa using hother m hm]
  rw [Json.ofMembers, List.map_cons, split?, hmember, List.filter_cons, if_neg (by simp),
    List.filter_eq_self.mpr fun m hm => by simpa using hother m hm]
  simp [Json.ofString, UiTag.ofJson?, UiTag.ofName_name, Json.ofMembers]

mutual

/-- How many containers are open at once where a node is written. -/
def levels : UiItem → ℕ
  | .group _ _ items => levelsOf items + 2
  | .slider _ s => annotationLevels s.annotations + 1
  | .toggle _ t => annotationLevels t.annotations + 1
  | .bargraph _ b => annotationLevels b.annotations + 1
  | .unsupported => 1

/-- How many of them are open at once where sibling nodes are written. -/
def levelsOf : List UiItem → ℕ
  | [] => 0
  | item :: items => max item.levels (levelsOf items)

end

theorem levelsOf_le_iff {items : List UiItem} {n : ℕ} :
    levelsOf items ≤ n ↔ ∀ item ∈ items, item.levels ≤ n := by
  induction items with
  | nil => simp [levelsOf]
  | cons item items ih => simp [levelsOf, ih]

/-- A node that is read back, as long as its values are finite: its annotations are ordered, and its
offsets are read as they are written. -/
inductive Kept : UiItem → Prop where
  | group {kind : GroupKind} {label : String} {items : List UiItem}
    (h : ∀ item ∈ items, Kept item) : Kept (.group kind label items)
  | slider {kind : SliderKind} {s : Slider} (annotations : ∀ entry ∈ s.annotations, entry.Ordered)
    (index : (Json.ofNat s.index).lenientSize? = some s.index) : Kept (.slider kind s)
  | toggle {kind : ToggleKind} {t : Toggle} (annotations : ∀ entry ∈ t.annotations, entry.Ordered)
    (index : (Json.ofNat t.index).lenientSize? = some t.index) : Kept (.toggle kind t)
  | bargraph {kind : BargraphKind} {b : Bargraph}
    (annotations : ∀ entry ∈ b.annotations, entry.Ordered)
    (index : (Json.ofNat b.index).lenientSize? = some b.index) : Kept (.bargraph kind b)
  | unsupported : Kept .unsupported

theorem listToJson_eq (items : List UiItem) : listToJson items = items.map toJson := by
  induction items with
  | nil => rfl
  | cons item items ih => rw [listToJson, ih, List.map_cons]

theorem all_visitsOf (p : Visit → Bool) (items : List UiItem) :
    (visitsOf items).all p = items.all fun item => item.visits.all p := by
  induction items with
  | nil => rfl
  | cons item items ih => rw [visitsOf, List.all_append, ih, List.all_cons]

variable {item : UiItem}

/-- A node is read back if its values are finite. -/
theorem read?_toJson (h : item.Kept) {depth : ℕ} (hlevels : item.levels ≤ depth) (nested : Bool) :
    read? depth nested item.toJson = if item.visits.all Visit.isFinite then some item else none := by
  induction h generalizing depth nested with
  | @slider kind s annotations index =>
    rw [toJson, read?.eq_def, split?_ofMembers (by simp [Slider.members])]
    simp only [Option.bind_eq_bind, Option.bind_some, Slider.ofJson?_members index annotations]
    simp only [visits, List.all_cons, List.all_nil, Bool.and_true, Visit.isFinite, Slider.input]
    split <;> rfl
  | @toggle kind t annotations index =>
    rw [toJson, read?.eq_def, split?_ofMembers (by simp [Toggle.members])]
    simp only [Option.bind_eq_bind, Option.bind_some, Toggle.ofJson?_members index annotations]
    have hoff : Single.zero.isFinite = true := by decide
    have hon : Single.one.isFinite = true := by decide
    simp [visits, Visit.isFinite, Toggle.input, hoff, hon]
  | @bargraph kind b annotations index =>
    rw [toJson, read?.eq_def, split?_ofMembers (by simp [Bargraph.members])]
    simp only [Option.bind_eq_bind, Option.bind_some, Bargraph.ofJson?_members index annotations]
    simp only [visits, List.all_cons, List.all_nil, Bool.and_true, Visit.isFinite]
    split <;> rfl
  | unsupported =>
    rw [toJson, read?.eq_def, split?_ofMembers (by simp)]
    rfl
  | @group kind label items h ih =>
    rw [levels] at hlevels
    obtain ⟨depth, rfl⟩ : ∃ k, depth = k + 1 := ⟨depth - 1, by omega⟩
    have hfields := Json.fields?_ofMembers
      [("label", .ofString label), ("items", .array (listToJson items))] (by simp)
    simp only [List.map_cons, List.map_nil] at hfields
    have hitems := Json.mapM_map_eq (p := fun item : UiItem => item.visits.all Visit.isFinite)
      fun item hitem =>
        ih item hitem (levelsOf_le_iff.mp (show levelsOf items ≤ depth by omega) item hitem) true
    rw [← listToJson_eq] at hitems
    rw [toJson, read?.eq_def, split?_ofMembers (by simp)]
    simp only [Option.bind_eq_bind, Option.bind_some]
    rw [hfields]
    simp only [Option.bind_some, Json.ofString, Json.string?, Json.list?, Json.items?,
      Option.bind_eq_bind, hitems]
    simp only [visits, List.all_cons, List.all_append, List.all_nil, Visit.isFinite, Bool.true_and,
      Bool.and_true, all_visitsOf]
    split <;> rfl

/-- A node is written at the depth that it has. -/
theorem sound_toJson (h : item.Kept) {depth : ℕ} :
    item.toJson.sound depth = true ↔ item.levels ≤ depth := by
  induction h generalizing depth with
  | @slider kind s annotations index =>
    simp only [toJson, Json.sound_ofMembers, Slider.members, List.forall_mem_cons,
      Json.sound_ofString, Json.sound_ofNat index, Json.sound_ofSingle, sound_annotationsToJson,
      levels, List.not_mem_nil, IsEmpty.forall_iff, implies_true, true_and, and_true]
    omega
  | @toggle kind t annotations index =>
    simp only [toJson, Json.sound_ofMembers, Toggle.members, List.forall_mem_cons,
      Json.sound_ofString, Json.sound_ofNat index, sound_annotationsToJson, levels,
      List.not_mem_nil, IsEmpty.forall_iff, implies_true, true_and, and_true]
    omega
  | @bargraph kind b annotations index =>
    simp only [toJson, Json.sound_ofMembers, Bargraph.members, List.forall_mem_cons,
      Json.sound_ofString, Json.sound_ofNat index, Json.sound_ofSingle, sound_annotationsToJson,
      levels, List.not_mem_nil, IsEmpty.forall_iff, implies_true, true_and, and_true]
    omega
  | unsupported =>
    simp only [toJson, Json.sound_ofMembers, List.forall_mem_singleton, Json.sound_ofString,
      and_true, levels]
    omega
  | @group kind label items h ih =>
    have hitems : (∀ item ∈ items, item.toJson.sound (depth - 1 - 1) = true) ↔
        levelsOf items ≤ depth - 1 - 1 := by
      rw [levelsOf_le_iff]
      exact forall₂_congr fun item hitem => ih item hitem
    simp only [toJson, Json.sound_ofMembers, List.forall_mem_cons, Json.sound_ofString,
      listToJson_eq, Json.sound_array, List.forall_mem_map, hitems, levels, List.not_mem_nil,
      IsEmpty.forall_iff, implies_true, true_and, and_true]
    omega

theorem spelled_toJson (h : item.Kept) : item.toJson.Spelled := by
  induction h with
  | slider | toggle | bargraph | unsupported =>
    refine Json.spelled_ofMembers ?_
    simp [Slider.members, Toggle.members, Bargraph.members]
  | @group kind label items h ih =>
    have hitems : (Json.array (listToJson items)).Spelled :=
      .array (listToJson_eq items ▸ List.forall_mem_map.mpr ih)
    refine Json.spelled_ofMembers ?_
    simp [hitems]

/-- A node is read back if its values are finite and it is not too deep. -/
theorem ofJson?_toJson (h : item.Kept) (room : ℕ) :
    ofJson? room item.toJson =
      if item.visits.all Visit.isFinite && decide (item.levels ≤ room) then some item else none := by
  rw [ofJson?]
  by_cases hlevels : item.levels ≤ room
  · rw [if_pos ((sound_toJson h).mpr hlevels), read?_toJson h hlevels, decide_eq_true hlevels,
      Bool.and_true]
  · rw [if_neg ((sound_toJson h).not.mpr hlevels), decide_eq_false hlevels, Bool.and_false]
    rfl

end UiItem

/-! ### What is read -/

namespace UiItem

theorem controlsOf_eq_flatMap (items : List UiItem) : controlsOf items = items.flatMap controls := by
  induction items with
  | nil => rfl
  | cons item items ih => rw [controlsOf, ih, List.flatMap_cons]

/-- A node that was read is read back if its offsets are: its annotations were gathered, and so were
those of the nodes in it. -/
theorem kept_of_read? {depth : ℕ} {nested : Bool} {document : Json}
    (h : read? depth nested document = some item)
    (hindex : ∀ c ∈ item.controls, (Json.ofNat c.2).lenientSize? = some c.2) : item.Kept := by
  -- The depth of a group is needed for its items only, so the other nodes are not told apart by it.
  induction depth using Nat.strong_induction_on generalizing nested document item with
  | _ depth ih =>
    rw [read?.eq_def] at h
    obtain ⟨⟨tag, body⟩, -, h⟩ := Option.bind_eq_some_iff.mp h
    cases tag with
    | slider kind =>
      obtain ⟨s, hs, h⟩ := Option.bind_eq_some_iff.mp h
      obtain rfl := Option.some.inj h
      exact .slider (Slider.ordered_of_ofJson? hs) (hindex _ List.mem_cons_self)
    | toggle kind =>
      obtain ⟨t, ht, h⟩ := Option.bind_eq_some_iff.mp h
      obtain rfl := Option.some.inj h
      exact .toggle (Toggle.ordered_of_ofJson? ht) (hindex _ List.mem_cons_self)
    | bargraph kind =>
      obtain ⟨b, hb, h⟩ := Option.bind_eq_some_iff.mp h
      obtain rfl := Option.some.inj h
      exact .bargraph (Bargraph.ordered_of_ofJson? hb) (hindex _ List.mem_cons_self)
    | unsupported =>
      dsimp only at h
      split_ifs at h
      obtain rfl := Option.some.inj h
      exact .unsupported
    | group kind =>
      obtain _ | below := depth
      · cases h
      obtain ⟨fields, -, h⟩ := Option.bind_eq_some_iff.mp h
      split at h
      · obtain ⟨label, -, h⟩ := Option.bind_eq_some_iff.mp h
        obtain rfl := Option.some.inj h
        exact .group fun child hchild => (List.not_mem_nil hchild).elim
      · obtain ⟨label, -, h⟩ := Option.bind_eq_some_iff.mp h
        obtain ⟨items, hitems, h⟩ := Option.bind_eq_some_iff.mp h
        obtain ⟨parts, -, hitems⟩ := Option.bind_eq_some_iff.mp hitems
        obtain rfl := Option.some.inj h
        refine .group fun child hchild => ?_
        obtain ⟨part, -, hread⟩ := Json.exists_of_mapM_eq_some hitems child hchild
        refine ih below (Nat.lt_succ_self below) hread fun c hc => hindex c ?_
        rw [controls, controlsOf_eq_flatMap]
        exact List.mem_flatMap.mpr ⟨child, hchild, hc⟩
      · cases h

end UiItem

/-! ### Descriptions -/

namespace ModuleMetadata

variable {m : ModuleMetadata} {text : String}

/-- The sizes and offsets of a description. -/
def sizes (m : ModuleMetadata) : List ℕ :=
  m.size :: m.inputs :: m.outputs :: (controlsOf m.ui).map (·.2)

/-- Whether every value of a description is finite. -/
def isFinite (m : ModuleMetadata) : Bool := (visitsOf m.ui).all Visit.isFinite

/-- What was read for the fields of a description. -/
theorem cases_of_ofJson? {document : Json} (h : ofJson? document = some m) :
    (∃ d : Json, d.lenientSize? = some m.size) ∧ (∃ d : Json, d.lenientSize? = some m.inputs) ∧
      (∃ d : Json, d.lenientSize? = some m.outputs) ∧ (∀ entry ∈ m.annotations, entry.Ordered) ∧
        ∀ item ∈ m.ui, ∃ d, UiItem.ofJson? (Json.deepest - 2) d = some item := by
  obtain ⟨fields, -, h⟩ := Option.bind_eq_some_iff.mp h
  split at h
  · simp only [Option.bind_eq_bind, Option.bind_eq_some_iff] at h
    obtain ⟨_, -, h⟩ := h
    split at h <;>
    · simp only [Option.bind_eq_some_iff] at h
      obtain ⟨_, -, _, hsize, _, hinputs, _, houtputs, _, hannotations, _, hui, h⟩ := h
      obtain rfl := Option.some.inj h
      obtain ⟨parts, -, hui⟩ := Option.bind_eq_some_iff.mp hui
      refine ⟨⟨_, hsize⟩, ⟨_, hinputs⟩, ⟨_, houtputs⟩,
        MetaEntry.ordered_of_listOfJson? hannotations, fun item hitem => ?_⟩
      obtain ⟨part, -, hread⟩ := Json.exists_of_mapM_eq_some hui item hitem
      exact ⟨part, hread⟩
  · cases h

/-- A description that is read back, as long as its values are finite and it is not too deep. -/
structure Kept (m : ModuleMetadata) : Prop where
  size : (Json.ofNat m.size).lenientSize? = some m.size
  inputs : (Json.ofNat m.inputs).lenientSize? = some m.inputs
  outputs : (Json.ofNat m.outputs).lenientSize? = some m.outputs
  annotations : ∀ entry ∈ m.annotations, entry.Ordered
  ui : ∀ item ∈ m.ui, item.Kept

/-- A description is read back if its values are finite and it is not too deep. -/
theorem ofJson?_toJson (h : m.Kept) :
    ofJson? m.toJson =
      if m.isFinite ∧ UiItem.levelsOf m.ui ≤ Json.deepest - 2 then some m else none := by
  have hfields := Json.fields?_ofMembers
    [("name", .ofString m.name), ("filename", .ofString m.filename), ("size", .ofNat m.size),
      ("inputs", .ofNat m.inputs), ("outputs", .ofNat m.outputs),
      ("meta", annotationsToJson m.annotations), ("ui", uiToJson m.ui)] (by simp)
  simp only [List.map_cons, List.map_nil] at hfields
  have hitems := Json.mapM_map_eq fun item hitem =>
    UiItem.ofJson?_toJson (h.ui item hitem) (Json.deepest - 2)
  rw [← UiItem.listToJson_eq] at hitems
  have hannotations := MetaEntry.listOfJson?_annotationsToJson h.annotations
  have hall : (m.ui.all fun item => item.visits.all Visit.isFinite &&
      decide (item.levels ≤ Json.deepest - 2)) = true ↔
        m.isFinite ∧ UiItem.levelsOf m.ui ≤ Json.deepest - 2 := by
    rw [isFinite, UiItem.all_visitsOf, UiItem.levelsOf_le_iff, List.all_eq_true, List.all_eq_true,
      ← forall₂_and]
    simp only [Bool.and_eq_true, decide_eq_true_eq]
  unfold ofJson?
  rw [toJson, hfields]
  simp only [Option.bind_eq_bind, Option.bind_some, Json.ofString, Json.string?, h.size, h.inputs,
    h.outputs, hannotations, Json.list?, Json.items?, uiToJson, hitems, hall]
  split <;> rfl

theorem spelled_toJson (h : m.Kept) : m.toJson.Spelled := by
  have htree : (uiToJson m.ui).Spelled := .array (UiItem.listToJson_eq m.ui ▸
    List.forall_mem_map.mpr fun item hitem => UiItem.spelled_toJson (h.ui item hitem))
  exact Json.spelled_ofMembers (by simp [htree])

/-- The text of a description is read as its document is, and checked again. -/
theorem parse_toText (h : m.Kept) (hsound : m.Sound) :
    parse m.toJson.toText =
      if m.isFinite ∧ UiItem.levelsOf m.ui ≤ Json.deepest - 2 then .ok m else .error .malformed := by
  rw [parse, Json.parse?_toText (spelled_toJson h), Option.bind_some, ofJson?_toJson h]
  split_ifs
  · simp [check?_eq_none_iff.mpr hsound]
  · rfl

/-- A description that was accepted is read back if its sizes and offsets are. -/
theorem kept_of_parse (h : parse text = .ok m) (hsizes : ∀ n ∈ m.sizes, Json.Exact n) : m.Kept := by
  obtain ⟨hread, hsound⟩ := parse_eq_ok_iff.mp h
  obtain ⟨document, -, hread⟩ := Option.bind_eq_some_iff.mp hread
  obtain ⟨⟨_, hsize⟩, ⟨_, hinputs⟩, ⟨_, houtputs⟩, hannotations, hui⟩ := cases_of_ofJson? hread
  have hword := Json.lt_of_lenientSize? hsize
  simp only [sizes, List.forall_mem_cons, List.forall_mem_map] at hsizes
  obtain ⟨hsize', hinputs', houtputs', hindices⟩ := hsizes
  refine ⟨hsize'.lenientSize?_ofNat hword,
    hinputs'.lenientSize?_ofNat (Json.lt_of_lenientSize? hinputs),
    houtputs'.lenientSize?_ofNat (Json.lt_of_lenientSize? houtputs), hannotations,
    fun item hitem => ?_⟩
  obtain ⟨part, hpart⟩ := hui item hitem
  rw [UiItem.ofJson?] at hpart
  split_ifs at hpart
  refine UiItem.kept_of_read? hpart fun c hc => ?_
  have hmem : c ∈ controlsOf m.ui := by
    rw [UiItem.controlsOf_eq_flatMap]
    exact List.mem_flatMap.mpr ⟨item, hitem, hc⟩
  -- An offset lies inside the instance, so it is a word as well.
  have hinside : c.2 + 4 ≤ m.size :=
    ((firstOffence?_eq_none_iff _ _ _).mp (check?_eq_none_iff.mpr hsound)).1 c hmem
  exact (hindices c hmem).lenientSize?_ofNat (by omega)

/-! ### Modules with one item

They are where printing and reading end well and where they do not: a meter with a value in a text,
and an empty group inside of others. -/

/-- A module without channels and with one item in its tree. -/
def ofItem (item : UiItem) : ModuleMetadata := ⟨"", "", 4, 0, 0, [], [item]⟩

/-- The members of such a module, with the document of its item. -/
def itemMembers (document : Json) : List (String × Json) :=
  [("name", .ofString ""), ("filename", .ofString ""), ("size", .ofNat 4), ("inputs", .ofNat 0),
    ("outputs", .ofNat 0), ("meta", annotationsToJson []), ("ui", .array [document])]

/-- The document of such a module. -/
def itemDocument (document : Json) : Json := .ofMembers (itemMembers document)

theorem parse_itemDocument {document : Json} {item : UiItem} (hspelled : document.Spelled)
    (hitem : UiItem.ofJson? (Json.deepest - 2) document = some item)
    (hsound : (ofItem item).Sound) : parse (itemDocument document).toText = .ok (ofItem item) := by
  have hui : (Json.array [document]).Spelled := .array (by simpa using hspelled)
  have hlist : (Json.array [document]).list? (UiItem.ofJson? (Json.deepest - 2)) = some [item] := by
    simp [Json.list?, Json.items?, hitem]
  have hzero : (Json.ofNat 0).lenientSize? = some 0 := by decide +kernel
  have hsize : (Json.ofNat 4).lenientSize? = some 4 := by decide +kernel
  have hannotations : MetaEntry.listOfJson? (some (annotationsToJson [])) = some [] := rfl
  have hfields := Json.fields?_ofMembers (itemMembers document) (by simp [itemMembers])
  simp only [itemMembers, List.map_cons, List.map_nil] at hfields
  have hdocument : (itemDocument document).Spelled :=
    Json.spelled_ofMembers (by simp [itemMembers, hui])
  refine parse_eq_ok_iff.mpr ⟨?_, hsound⟩
  rw [Json.parse?_toText hdocument, Option.bind_some]
  unfold ofJson?
  simp only [Option.bind_eq_bind, Option.bind_some, itemDocument, itemMembers, hfields, hsize,
    hzero, hannotations, hlist]
  rfl

/-- A meter up to a given value. -/
def meter (max : Single) : UiItem := .bargraph .horizontal ⟨"level", "/level", 0, .zero, max, []⟩

/-- The members of such a meter, with the greatest value in a text. -/
def meterMembers (max : String) : List (String × Json) :=
  [("label", .ofString "level"), ("address", .ofString "/level"), ("index", .ofNat 0),
    ("min", .ofNat 0), ("max", .ofString max), ("meta", annotationsToJson [])]

/-- The document of such a meter. -/
def meterDocument (max : String) : Json :=
  .ofMembers (("type", .ofString (UiTag.bargraph .horizontal).name) :: meterMembers max)

/-- A meter is read with the value that its text spells. -/
theorem parse_meterDocument {max : String} {x : Single}
    (hmax : (Json.ofString max).lenientSingle? = some x) :
    parse (itemDocument (meterDocument max)).toText = .ok (ofItem (meter x)) := by
  have hzero : (Json.ofNat 0).lenientSize? = some 0 := by decide +kernel
  have hmin : (Json.ofNat 0).lenientSingle? = some .zero := by decide +kernel
  have hannotations : MetaEntry.listOfJson? (some (annotationsToJson [])) = some [] := rfl
  have hfields := Json.fields?_ofMembers (meterMembers max) (by simp [meterMembers])
  simp only [meterMembers, List.map_cons, List.map_nil] at hfields
  have hsound : (meterDocument max).sound (Json.deepest - 2) = true := by
    rw [meterDocument, Json.sound_ofMembers]
    simp [meterMembers, Json.sound_ofNat hzero, sound_annotationsToJson, annotationLevels,
      Json.deepest]
  have hread : UiItem.ofJson? (Json.deepest - 2) (meterDocument max) = some (meter x) := by
    rw [UiItem.ofJson?, if_pos hsound, meterDocument, UiItem.read?.eq_def,
      UiItem.split?_ofMembers (by simp [meterMembers])]
    simp only [Option.bind_eq_bind, Option.bind_some, Bargraph.ofJson?, meterMembers, hfields,
      hzero, hmin, hmax, hannotations]
    rfl
  exact parse_itemDocument (Json.spelled_ofMembers (by simp [meterMembers])) hread
    (check?_eq_none_iff.mp rfl)

theorem exact_of_lt {n : ℕ} (h : n < power 2 53) : Json.Exact n :=
  .inr ⟨n, 0, h, (Nat.mul_one n).symm⟩

theorem exact_ofItem {item : UiItem} (h : ∀ c ∈ item.controls, c.2 < power 2 53) :
    ∀ n ∈ (ofItem item).sizes, Json.Exact n := by
  simp only [sizes, ofItem, List.forall_mem_cons, List.forall_mem_map, controlsOf, List.append_nil]
  refine ⟨exact_of_lt ?_, exact_of_lt ?_, exact_of_lt ?_, fun c hc => exact_of_lt (h c hc)⟩ <;>
    decide +kernel

theorem exact_meter (max : Single) : ∀ n ∈ (ofItem (meter max)).sizes, Json.Exact n := by
  refine exact_ofItem fun c hc => ?_
  obtain rfl := List.mem_singleton.mp hc
  exact power_pos two_pos 53

/-- An empty group inside of `n` others. -/
def nest : ℕ → UiItem
  | 0 => .group .vertical "" []
  | n + 1 => .group .vertical "" [nest n]

/-- The members of such a group: the list of its items is left out where it is empty. -/
def nestMembers : ℕ → List (String × Json)
  | 0 => [("label", .ofString "")]
  | n + 1 => [("label", .ofString ""), ("items", .array [.ofMembers
      (("type", .ofString (UiTag.group .vertical).name) :: nestMembers n)])]

/-- The document of such a group. -/
def nestDocument (n : ℕ) : Json :=
  .ofMembers (("type", .ofString (UiTag.group .vertical).name) :: nestMembers n)

theorem levels_nest (n : ℕ) : (nest n).levels = 2 * n + 2 := by
  induction n with
  | zero => rfl
  | succ n ih =>
    rw [nest, UiItem.levels, UiItem.levelsOf, UiItem.levelsOf, ih]
    omega

theorem controls_nest (n : ℕ) : (nest n).controls = [] := by
  induction n with
  | zero => rfl
  | succ n ih => rw [nest, UiItem.controls, controlsOf, controlsOf, ih, List.append_nil]

theorem spelled_nestDocument (n : ℕ) : (nestDocument n).Spelled := by
  induction n with
  | zero => exact Json.spelled_ofMembers (by simp [nestMembers])
  | succ n ih =>
    have hitems : (Json.array [nestDocument n]).Spelled := .array (by simpa using ih)
    exact Json.spelled_ofMembers (by simpa [nestMembers, nestDocument] using hitems)

theorem sound_nestDocument {n depth : ℕ} (h : 2 * n < depth) :
    (nestDocument n).sound depth = true := by
  induction n generalizing depth with
  | zero =>
    rw [nestDocument, Json.sound_ofMembers]
    simpa [nestMembers] using h
  | succ n ih =>
    have hitems : (Json.array [nestDocument n]).sound (depth - 1) = true := by
      rw [Json.sound_array, List.forall_mem_singleton]
      exact ⟨by omega, ih (by omega)⟩
    rw [nestDocument, Json.sound_ofMembers]
    exact ⟨by omega, by simpa [nestMembers, nestDocument] using hitems⟩

theorem read?_nestDocument {n depth : ℕ} (h : n < depth) (nested : Bool) :
    UiItem.read? depth nested (nestDocument n) = some (nest n) := by
  induction n generalizing depth nested with
  | zero =>
    obtain ⟨depth, rfl⟩ := Nat.exists_eq_succ_of_ne_zero h.ne'
    rw [nestDocument, UiItem.read?.eq_def, UiItem.split?_ofMembers (by simp [nestMembers])]
    simp [nestMembers, Json.ofMembers, Json.fields?, Json.member?, Json.ofString, Json.string?,
      nest]
  | succ n ih =>
    obtain ⟨depth, rfl⟩ : ∃ k, depth = k + 1 := ⟨depth - 1, by omega⟩
    have hitems : (Json.array [nestDocument n]).list? (UiItem.read? depth true) =
        some [nest n] := by
      simp [Json.list?, Json.items?, ih (Nat.lt_of_succ_lt_succ h) true]
    have hfields : (Json.ofMembers (nestMembers (n + 1))).fields? ["label", "items"] =
        some [some (.ofString ""), some (.array [nestDocument n])] :=
      Json.fields?_ofMembers _ (by simp [nestMembers])
    rw [nestDocument, UiItem.read?.eq_def, UiItem.split?_ofMembers (by simp [nestMembers])]
    simp only [Option.bind_eq_bind, Option.bind_some, hfields, hitems]
    rfl

theorem parse_nestDocument {n : ℕ} (h : 2 * n < Json.deepest - 2) :
    parse (itemDocument (nestDocument n)).toText = .ok (ofItem (nest n)) := by
  refine parse_itemDocument (spelled_nestDocument n) ?_ (check?_eq_none_iff.mp ?_)
  · rw [UiItem.ofJson?, if_pos (sound_nestDocument h), read?_nestDocument (by omega)]
  · simp [check?, ofItem, controlsOf, controls_nest, firstOffence?]

theorem exact_nest (n : ℕ) : ∀ k ∈ (ofItem (nest n)).sizes, Json.Exact k := by
  refine exact_ofItem fun c hc => ?_
  rw [controls_nest] at hc
  exact (List.not_mem_nil hc).elim

/-! ### The text of a description -/

/-- Printing a description that was accepted, and reading the text again. If its sizes and offsets
are read as they are written, then the same description is accepted again, with the same bits in
each of its values, exactly if all its values are finite and it is not written deeper than documents
are read. Otherwise its text is refused as malformed. -/
theorem parse_toText_of_parse (h : parse text = .ok m) (hsizes : ∀ n ∈ m.sizes, Json.Exact n) :
    parse m.toJson.toText =
      if m.isFinite ∧ UiItem.levelsOf m.ui ≤ Json.deepest - 2 then .ok m else .error .malformed :=
  parse_toText (kept_of_parse h hsizes) (parse_eq_ok_iff.mp h).2

/-- A value that is spelled in a text is printed as a number and read back. -/
theorem parse_toText_meter_tenth :
    parse (itemDocument (meterDocument "0.1")).toText = .ok (ofItem (meter ⟨0x3dcccccd⟩)) ∧
      (∀ n ∈ (ofItem (meter ⟨0x3dcccccd⟩)).sizes, Json.Exact n) ∧
        parse (ofItem (meter ⟨0x3dcccccd⟩)).toJson.toText = .ok (ofItem (meter ⟨0x3dcccccd⟩)) := by
  have hparse := parse_meterDocument
    (show (Json.ofString "0.1").lenientSingle? = some ⟨0x3dcccccd⟩ by decide +kernel)
  refine ⟨hparse, exact_meter _, ?_⟩
  rw [parse_toText_of_parse hparse (exact_meter _), if_pos]
  exact ⟨by decide, by decide⟩

/-- What is accepted but not as it is printed: an infinite value, which is spelled in a text but not
as a number, and an empty group inside of so many others that no list can be opened in it. -/
theorem parse_toText_ne :
    (parse (itemDocument (meterDocument "inf")).toText = .ok (ofItem (meter .infinity)) ∧
      parse (ofItem (meter .infinity)).toJson.toText = .error .malformed) ∧
    parse (itemDocument (nestDocument 62)).toText = .ok (ofItem (nest 62)) ∧
      parse (ofItem (nest 62)).toJson.toText = .error .malformed := by
  have hmeter := parse_meterDocument
    (show (Json.ofString "inf").lenientSingle? = some .infinity by decide +kernel)
  have hnest := parse_nestDocument (n := 62) (by decide)
  refine ⟨⟨hmeter, ?_⟩, hnest, ?_⟩
  · rw [parse_toText (kept_of_parse hmeter (exact_meter _)) (parse_eq_ok_iff.mp hmeter).2, if_neg]
    exact fun h => absurd h.1 (by decide)
  · rw [parse_toText (kept_of_parse hnest (exact_nest _)) (parse_eq_ok_iff.mp hnest).2, if_neg]
    intro h
    have := h.2
    rw [ofItem, UiItem.levelsOf, UiItem.levelsOf, levels_nest] at this
    exact absurd this (by decide)

end ModuleMetadata

end DspHost
