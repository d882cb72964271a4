import DspHost.Proofs.Json.Records
import DspHost.Proofs.Json.Singles
import DspHost.Proofs.Metadata.Sizes
import Mathlib.Data.String.Basic

/-!
# Widgets that are written

A widget is written with all its fields, those included that may be missing where it is read. It is
read back with the same texts. Its annotations are in the order in which they are gathered, because
they were gathered before. Its offset is read back if it is the word nearest to its double, and its
values are if they are finite: the others have no number, and what is written instead of them is
refused.

## Main definitions

* `MetaEntry.Ordered` — annotations as they are gathered
* `Json.Exact` — the sizes that are read as they are written
* `Visit.isFinite` — whether the values of a widget are finite
* `annotationLevels` — how deep annotations are written

## Main results

* `MetaEntry.ofJson?_toJson`, `MetaEntry.ordered_of_listOfJson?` — annotations are read back if they
  were read
* `Json.Exact.lenientSize?_ofNat` — sizes are
* `Slider.ofJson?_members`, `Toggle.ofJson?_members`, `Bargraph.ofJson?_members` — widgets are
-/

namespace DspHost

/-! ### Annotations -/

namespace MetaEntry

/-- Annotations in the order of their keys, one for each key. -/
def Ordered (entry : MetaEntry) : Prop := entry.Pairwise (·.1 < ·.1)

theorem mem_insert {entry : MetaEntry} {key value : String} {a : String × String}
    (h : a ∈ entry.insert key value) : a = (key, value) ∨ a ∈ entry := by
  induction entry with
  | nil => exact .inl (List.mem_singleton.mp h)
  | cons first rest ih =>
    obtain ⟨k, v⟩ := first
    rw [insert] at h
    split_ifs at h
    · exact List.mem_cons.mp h
    · exact (List.mem_cons.mp h).imp_right (List.mem_cons_of_mem _)
    · rcases List.mem_cons.mp h with rfl | h
      · exact .inr List.mem_cons_self
      · exact (ih h).imp_right (List.mem_cons_of_mem _)

theorem Ordered.insert {entry : MetaEntry} (h : entry.Ordered) (key value : String) :
    (entry.insert key value).Ordered := by
  induction entry with
  | nil => exact List.pairwise_singleton _ _
  | cons first rest ih =>
    obtain ⟨k, v⟩ := first
    obtain ⟨hfirst, hrest⟩ := List.pairwise_cons.mp h
    rw [MetaEntry.insert]
    split_ifs with hless heq
    · refine List.pairwise_cons.mpr ⟨fun a ha => ?_, h⟩
      rcases List.mem_cons.mp ha with rfl | ha
      · exact hless
      · exact hless.trans (hfirst a ha)
    · subst heq
      exact List.pairwise_cons.mpr ⟨hfirst, hrest⟩
    · refine List.pairwise_cons.mpr ⟨fun a ha => ?_, ih hrest⟩
      rcases mem_insert ha with rfl | ha
      · exact (lt_or_gt_of_ne heq).resolve_left hless
      · exact hfirst a ha

theorem ordered_ofList (annotations : List (String × String)) : (ofList annotations).Ordered :=
  List.foldlRecOn annotations _ (motive := Ordered) List.Pairwise.nil
    fun _ h a _ => h.insert a.1 a.2

/-- An annotation behind all others is added at the end. -/
theorem insert_of_forall_lt {entry : MetaEntry} {key : String} (h : ∀ a ∈ entry, a.1 < key)
    (value : String) : entry.insert key value = entry ++ [(key, value)] := by
  induction entry with
  | nil => rfl
  | cons first rest ih =>
    obtain ⟨k, v⟩ := first
    obtain ⟨hfirst, hrest⟩ := List.forall_mem_cons.mp h
    rw [insert, if_neg hfirst.not_gt, if_neg hfirst.ne', ih hrest]
    rfl

/-- Ordered annotations are gathered as they are. -/
theorem ofList_eq_self {entry : MetaEntry} (h : entry.Ordered) : ofList entry = entry := by
  -- What was gathered is in front of what is left, so the next annotation is behind all of it.
  suffices ∀ before : MetaEntry, Ordered (before ++ entry) →
      entry.foldl (fun entry a => insert entry a.1 a.2) before = before ++ entry from this [] h
  clear h
  induction entry with
  | nil => exact fun before _ => (List.append_nil before).symm
  | cons first rest ih =>
    intro before hbefore
    have hlast : ∀ a ∈ before, a.1 < first.1 := fun a ha =>
      (List.pairwise_append.mp hbefore).2.2 a ha first List.mem_cons_self
    rw [List.append_cons] at hbefore ⊢
    rw [List.foldl_cons, insert_of_forall_lt hlast, ih _ hbefore]

/-- Ordered annotations are read back. -/
theorem ofJson?_toJson {entry : MetaEntry} (h : entry.Ordered) :
    ofJson? entry.toJson = some entry := by
  have hread : (entry.map fun a => (some a.1, Json.ofString a.2)).mapM
      (fun m : Option String × Json => do return (← m.1, ← m.2.string?)) = some entry :=
    Json.mapM_map_eq_some fun a _ => rfl
  rw [toJson, Json.ofMembers, List.map_map]
  exact Option.bind_eq_some_iff.mpr ⟨entry, hread, congrArg some (ofList_eq_self h)⟩

/-- Annotations that are read were gathered. -/
theorem ordered_of_ofJson? {document : Json} {entry : MetaEntry}
    (h : ofJson? document = some entry) : entry.Ordered := by
  unfold ofJson? at h
  split at h
  · obtain ⟨annotations, -, h⟩ := Option.bind_eq_some_iff.mp h
    exact Option.some.inj h ▸ ordered_ofList annotations
  · cases h

/-- Entries that are read are ordered. -/
theorem ordered_of_listOfJson? {field : Option Json} {entries : List MetaEntry}
    (h : listOfJson? field = some entries) : ∀ entry ∈ entries, entry.Ordered := by
  cases field with
  | none =>
    obtain rfl := Option.some.inj h
    exact fun entry hentry => (List.not_mem_nil hentry).elim
  | some document =>
    obtain ⟨items, -, h⟩ := Option.bind_eq_some_iff.mp h
    intro entry hentry
    obtain ⟨item, -, hitem⟩ := Json.exists_of_mapM_eq_some h entry hentry
    exact ordered_of_ofJson? hitem

/-- Ordered entries are read back. -/
theorem listOfJson?_annotationsToJson {entries : List MetaEntry}
    (h : ∀ entry ∈ entries, entry.Ordered) :
    listOfJson? (some (annotationsToJson entries)) = some entries :=
  Json.mapM_map_eq_some fun entry hentry => ofJson?_toJson (h entry hentry)

end MetaEntry

/-! ### Sizes -/

namespace Json

/-- A size that is read is a word. -/
theorem lt_of_lenientSize? {document : Json} {n : ℕ} (h : document.lenientSize? = some n) :
    n < wordLimit := by
  have hpos := wordLimit_pos
  unfold lenientSize? at h
  split at h
  · split at h
    · split_ifs at h
      obtain rfl := Option.some.inj h
      omega
    · cases h
  · exact lt_of_naturalOfText? h
  · cases h

/-- A word with this property is read as a number as it is written: a double holds it, or it is the
greatest word. -/
def Exact (n : ℕ) : Prop := n = wordLimit - 1 ∨ Format.double.Fits n

theorem Exact.lenientSize?_ofNat {n : ℕ} (h : Exact n) (hn : n < wordLimit) :
    (ofNat n).lenientSize? = some n := by
  rw [(lenientSize?_eq_iff n).mpr (.inr (h.imp_right fun hfits => ⟨hn, hfits⟩)), lenientSize?_text,
    if_pos hn]

theorem sound_ofNat {n : ℕ} (h : (ofNat n).lenientSize? = some n) (depth : ℕ) :
    (ofNat n).sound depth = true := by
  rw [ofNat, sound]
  cases hnumeral : (Literal.ofNat n).numeral? with
  | some x => rfl
  | none =>
    rw [ofNat, lenientSize?, hnumeral] at h
    cases h

end Json

/-! ### Widgets -/

/-- Whether every value of what a walk meets is finite. -/
def Visit.isFinite : Visit → Bool
  | .input c => c.init.isFinite && c.min.isFinite && c.max.isFinite && c.step.isFinite
  | .output b => b.min.isFinite && b.max.isFinite
  | _ => true

/-- How many containers are open at once where the annotations of a widget are written. -/
def annotationLevels (entries : List MetaEntry) : ℕ := if entries = [] then 1 else 2

section

variable {entries : List MetaEntry} {depth : ℕ}

theorem sound_annotationsToJson :
    (annotationsToJson entries).sound depth = true ↔ annotationLevels entries ≤ depth := by
  have hentry (entry : MetaEntry) (depth : ℕ) : entry.toJson.sound depth = true ↔ 0 < depth := by
    rw [MetaEntry.toJson, Json.sound_ofMembers, and_iff_left_iff_imp]
    exact fun _ => List.forall_mem_map.mpr fun a _ => Json.sound_ofString a.2 _
  rw [annotationsToJson, Json.sound_array, annotationLevels]
  simp only [List.forall_mem_map, hentry]
  cases entries with
  | nil => simp [Nat.succ_le_iff]
  | cons entry entries =>
    rw [if_neg (List.cons_ne_nil entry entries)]
    constructor
    · rintro ⟨-, h⟩
      have := h entry List.mem_cons_self
      omega
    · exact fun h => ⟨by omega, fun _ _ => by omega⟩

@[simp] theorem spelled_annotationsToJson (entries : List MetaEntry) :
    (annotationsToJson entries).Spelled := by
  refine .array (List.forall_mem_map.mpr fun entry _ => Json.spelled_ofMembers ?_)
  exact List.forall_mem_map.mpr fun a _ => .string a.2

end

variable {s : Slider} {t : Toggle} {b : Bargraph}

/-- A slider is read back if its values are finite. -/
theorem Slider.ofJson?_members (hindex : (Json.ofNat s.index).lenientSize? = some s.index)
    (hannotations : ∀ entry ∈ s.annotations, entry.Ordered) :
    Slider.ofJson? (.ofMembers s.members) =
      if s.init.isFinite && s.min.isFinite && s.max.isFinite && s.step.isFinite then some s
      else none := by
  have hfields := Json.fields?_ofMembers s.members (by simp [members])
  have hread := MetaEntry.listOfJson?_annotationsToJson hannotations
  simp only [members, List.map_cons, List.map_nil] at hfields
  unfold Slider.ofJson?
  rw [members, hfields]
  simp only [Option.bind_eq_bind, Option.bind_some, hread, hindex, Json.lenientSingle?_ofSingle,
    Json.ofString, Json.string?]
  cases s.init.isFinite <;> cases s.min.isFinite <;> cases s.max.isFinite <;>
    cases s.step.isFinite <;> rfl

/-- A toggle has no values, so it is read back. -/
theorem Toggle.ofJson?_members (hindex : (Json.ofNat t.index).lenientSize? = some t.index)
    (hannotations : ∀ entry ∈ t.annotations, entry.Ordered) :
    Toggle.ofJson? (.ofMembers t.members) = some t := by
  have hfields := Json.fields?_ofMembers t.members (by simp [members])
  have hread := MetaEntry.listOfJson?_annotationsToJson hannotations
  simp only [members, List.map_cons, List.map_nil] at hfields
  unfold Toggle.ofJson?
  rw [members, hfields]
  simp only [Option.bind_eq_bind, Option.bind_some, hread, hindex, Json.ofString, Json.string?]
  rfl

/-- A meter is read back if its values are finite. -/
theorem Bargraph.ofJson?_members (hindex : (Json.ofNat b.index).lenientSize? = some b.index)
    (hannotations : ∀ entry ∈ b.annotations, entry.Ordered) :
    Bargraph.ofJson? (.ofMembers b.members) =
      if b.min.isFinite && b.max.isFinite then some b else none := by
  have hfields := Json.fields?_ofMembers b.members (by simp [members])
  have hread := MetaEntry.listOfJson?_annotationsToJson hannotations
  simp only [members, List.map_cons, List.map_nil] at hfields
  unfold Bargraph.ofJson?
  rw [members, hfields]
  simp only [Option.bind_eq_bind, Option.bind_some, hread, hindex, Json.lenientSingle?_ofSingle,
    Json.ofString, Json.string?]
  cases b.min.isFinite <;> cases b.max.isFinite <;> rfl

/-! ### What is read -/

theorem Slider.ordered_of_ofJson? {body : Json} (h : Slider.ofJson? body = some s) :
    ∀ entry ∈ s.annotations, entry.Ordered := by
  obtain ⟨fields, -, h⟩ := Option.bind_eq_some_iff.mp h
  split at h
  · simp only [Option.bind_eq_bind, Option.bind_eq_some_iff] at h
    obtain ⟨_, -, _, -, _, -, _, -, _, -, _, -, h⟩ := h
    split at h <;>
    · simp only [Option.bind_eq_some_iff] at h
      obtain ⟨_, -, _, hannotations, h⟩ := h
      obtain rfl := Option.some.inj h
      exact MetaEntry.ordered_of_listOfJson? hannotations
  · cases h

theorem Toggle.ordered_of_ofJson? {body : Json} (h : Toggle.ofJson? body = some t) :
    ∀ entry ∈ t.annotations, entry.Ordered := by
  obtain ⟨fields, -, h⟩ := Option.bind_eq_some_iff.mp h
  split at h
  · simp only [Option.bind_eq_bind, Option.bind_eq_some_iff] at h
    obtain ⟨_, -, _, -, _, -, _, hannotations, h⟩ := h
    obtain rfl := Option.some.inj h
    exact MetaEntry.ordered_of_listOfJson? hannotations
  · cases h

theorem Bargraph.ordered_of_ofJson? {body : Json} (h : Bargraph.ofJson? body = some b) :
    ∀ entry ∈ b.annotations, entry.Ordered := by
  obtain ⟨fields, -, h⟩ := Option.bind_eq_some_iff.mp h
  split at h
  · simp only [Option.bind_eq_bind, Option.bind_eq_some_iff] at h
    obtain ⟨_, -, _, -, _, -, _, -, _, -, _, hannotations, h⟩ := h
    obtain rfl := Option.some.inj h
    exact MetaEntry.ordered_of_listOfJson? hannotations
  · cases h

end DspHost
