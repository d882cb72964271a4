import DspHost.Json.Decode
import DspHost.Proofs.Json.Fields
import DspHost.Proofs.Json.RoundTrip
import DspHost.Proofs.Outcome
import Mathlib.Data.List.Nodup

/-!
# Records that are written

A record is written as an object with one member for each of its fields. Where the names of the
fields differ, each of them is found again, and what is found is what was written. A list is read
back if each of its items is.

## Main results

* `Json.fields?_ofMembers` — the fields of a record that was written
* `Json.mapM_map_eq` — the items of a list that was written, if some of them may be refused
* `Json.sound_ofMembers`, `Json.sound_array` — how deep a record and a list are
* `Json.spelled_ofString`, `Json.spelled_ofNat` — texts and sizes have a spelling
-/

namespace DspHost

namespace Json

variable {members : List (String × Json)}

/-! ### Fields -/

/-- A field of a record with different names is found under its name. -/
theorem member?_of_mem (hnodup : (members.map (·.1)).Nodup) {m : String × Json} (hm : m ∈ members) :
    member? m.1 (members.map fun m => (some m.1, m.2)) = some (some m.2) := by
  obtain ⟨before, after, rfl⟩ := List.append_of_mem hm
  rw [List.map_append, List.map_cons, List.nodup_middle, List.nodup_cons, List.mem_append,
    not_or] at hnodup
  obtain ⟨⟨hbefore, hafter⟩, -⟩ := hnodup
  have hother {others : List (String × Json)} (h : m.1 ∉ others.map (·.1)) :
      (others.map fun m => (some m.1, m.2)).filter (fun x => x.1 == some m.1) = [] := by
    refine List.filter_eq_nil_iff.mpr fun x hx => ?_
    obtain ⟨other, hmem, rfl⟩ := List.mem_map.mp hx
    have hne : other.1 ≠ m.1 := fun heq => h (heq ▸ List.mem_map_of_mem hmem)
    simpa using hne
  rw [member?, List.map_append, List.map_cons, List.filter_append, List.filter_cons,
    hother hbefore, hother hafter, if_pos (beq_self_eq_true _)]
  rfl

/-- The fields of a record that was written are those that were written. -/
theorem fields?_ofMembers (members : List (String × Json)) (hnodup : (members.map (·.1)).Nodup) :
    (ofMembers members).fields? (members.map (·.1)) = some (members.map fun m => some m.2) := by
  have hnamed : (members.map fun m => (some m.1, m.2)).all (fun m => m.1.isSome) = true := by simp
  rw [ofMembers, fields?, if_pos hnamed]
  refine mapM_eq_some_of_forall₂ (List.forall₂_map_left_iff.mpr (List.forall₂_map_right_iff.mpr ?_))
  exact List.forall₂_same.mpr fun m hm => member?_of_mem hnodup hm

/-! ### Lists -/

/-- The items of a list are read back if each of them is read back, and refused if one is. -/
theorem mapM_map_eq {α β : Type} {f : β → Option α} {g : α → β} {p : α → Bool} {xs : List α}
    (h : ∀ x ∈ xs, f (g x) = if p x then some x else none) :
    (xs.map g).mapM f = if xs.all p then some xs else none := by
  induction xs with
  | nil => rfl
  | cons x xs ih =>
    obtain ⟨hx, hxs⟩ := List.forall_mem_cons.mp h
    rw [List.map_cons, List.mapM_cons, hx, ih hxs, List.all_cons]
    cases p x <;> cases xs.all p <;> rfl

/-- Items that are all read back. -/
theorem mapM_map_eq_some {α β : Type} {f : β → Option α} {g : α → β} {xs : List α}
    (h : ∀ x ∈ xs, f (g x) = some x) : (xs.map g).mapM f = some xs :=
  mapM_eq_some_of_forall₂ (List.forall₂_map_left_iff.mpr (List.forall₂_same.mpr h))

/-- What is read from a list comes from its items. -/
theorem exists_of_mapM_eq_some {α β : Type} {f : β → Option α} {ds : List β} {xs : List α}
    (h : ds.mapM f = some xs) : ∀ x ∈ xs, ∃ d ∈ ds, f d = some x := by
  induction ds generalizing xs with
  | nil =>
    obtain rfl := Option.some.inj h
    exact fun x hx => (List.not_mem_nil hx).elim
  | cons d ds ih =>
    rw [List.mapM_cons] at h
    obtain ⟨first, hfirst, h⟩ := Option.bind_eq_some_iff.mp h
    obtain ⟨rest, hrest, h⟩ := Option.bind_eq_some_iff.mp h
    obtain rfl := Option.some.inj h
    intro x hx
    rcases List.mem_cons.mp hx with rfl | hx
    · exact ⟨d, List.mem_cons_self, hfirst⟩
    · obtain ⟨d', hd', hx'⟩ := ih hrest x hx
      exact ⟨d', List.mem_cons_of_mem d hd', hx'⟩

/-! ### Depth -/

/-- A list is a container, and its items may be as deep as is left. -/
theorem sound_array {items : List Json} {depth : ℕ} :
    (array items).sound depth = true ↔
      0 < depth ∧ ∀ item ∈ items, item.sound (depth - 1) = true := by
  cases depth with
  | zero => simp [sound]
  | succ depth =>
    rw [sound]
    induction items with
    | nil => simp [soundItems]
    | cons item items ih => simpa [soundItems] using fun _ => by simpa using ih

/-- A record is a container, and its fields may be as deep as is left. -/
theorem sound_ofMembers {depth : ℕ} :
    (ofMembers members).sound depth = true ↔
      0 < depth ∧ ∀ m ∈ members, m.2.sound (depth - 1) = true := by
  cases depth with
  | zero => simp [ofMembers, sound]
  | succ depth =>
    rw [ofMembers, sound]
    induction members with
    | nil => simp [soundMembers]
    | cons m members ih => simpa [soundMembers] using fun _ => by simpa using ih

@[simp] theorem sound_ofString (text : String) (depth : ℕ) :
    (ofString text).sound depth = true := by
  rw [ofString, sound]
  rfl

/-! ### Spelling -/

@[simp] theorem spelled_ofString (text : String) : (ofString text).Spelled := .string text

@[simp] theorem spelled_ofNat (n : ℕ) : (ofNat n).Spelled := .number (Literal.canonical_ofNat n)

end Json

end DspHost
