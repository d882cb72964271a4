import DspHost.Json.Decode
import Mathlib.Tactic.Common

/-!
# One field of a record

A record looks its fields up by their names. So what it finds depends on the value of one member in
one place only: where that member is looked up. If there is another member with its name, the record
is refused whatever the values are.

## Main results

* `Json.member?_of_ne`, `Json.exists_member?_eq` — what is found under the other names, and under
  the name of the member itself
* `Json.exists_fields?_eq` — all fields of a record
-/

namespace DspHost

namespace Json

/-- The other members with a name are those of the rest. -/
theorem member?_of_ne {name key : String} (h : key ≠ name)
    (before after : List (Option String × Json)) (value : Json) :
    member? key (before ++ (some name, value) :: after) = member? key (before ++ after) := by
  have hother : (some name == some key) = false := by simpa using h.symm
  simp only [member?, List.filter_append, List.filter_cons, hother, Bool.false_eq_true, if_false]

/-- A member is the only one with its name, or it is refused whatever its value. -/
theorem exists_member?_eq (name : String) (before after : List (Option String × Json)) :
    (∀ value, member? name (before ++ (some name, value) :: after) = some (some value)) ∨
      ∀ value, member? name (before ++ (some name, value) :: after) = none := by
  have hself : (some name == some name) = true := beq_self_eq_true _
  simp only [member?, List.filter_append, List.filter_cons, hself, if_true]
  cases before.filter (fun m => m.1 == some name) with
  | nil =>
    cases after.filter (fun m => m.1 == some name) with
    | nil => exact .inl fun value => rfl
    | cons m rest => exact .inr fun value => rfl
  | cons m rest => cases rest <;> exact .inr fun value => rfl

theorem length_of_mapM_eq_some {α β : Type} {f : α → Option β} {xs : List α} {ys : List β}
    (h : xs.mapM f = some ys) : ys.length = xs.length := by
  induction xs generalizing ys with
  | nil =>
    obtain rfl := Option.some.inj h
    rfl
  | cons x xs ih =>
    rw [List.mapM_cons] at h
    obtain ⟨y, -, h⟩ := Option.bind_eq_some_iff.mp h
    obtain ⟨rest, hrest, h⟩ := Option.bind_eq_some_iff.mp h
    obtain rfl := Option.some.inj h
    rw [List.length_cons, List.length_cons, ih hrest]

/-- The other members are looked up with the same answers. -/
theorem mapM_member?_of_notMem {names : List String} {name : String} (h : name ∉ names)
    (before after : List (Option String × Json)) (value : Json) :
    names.mapM (member? · (before ++ (some name, value) :: after)) =
      names.mapM (member? · (before ++ after)) := by
  induction names with
  | nil => rfl
  | cons key names ih =>
    obtain ⟨hkey, hnames⟩ := not_or.mp (List.mem_cons.not.mp h)
    rw [List.mapM_cons, List.mapM_cons, member?_of_ne (Ne.symm hkey), ih hnames]

/-- Members are looked up with the same answers but for one name, or refused whatever its value. -/
theorem exists_mapM_member?_eq {names : List String} (hnodup : names.Nodup) {i : ℕ} {name : String}
    (hname : names[i]? = some name) (before after : List (Option String × Json)) :
    ∃ others : Option (List (Option Json)), (∀ fields ∈ others, fields.length = names.length) ∧
      ∀ value, names.mapM (member? · (before ++ (some name, value) :: after)) =
        others.map (·.set i (some value)) := by
  induction names generalizing i with
  | nil => cases hname
  | cons key names ih =>
    obtain ⟨hkey, hnodup⟩ := List.nodup_cons.mp hnodup
    simp only [List.mapM_cons]
    cases i with
    | zero =>
      obtain rfl := Option.some.inj hname
      have hrest := mapM_member?_of_notMem hkey before after
      rcases exists_member?_eq key before after with hone | hnone
      · refine ⟨(names.mapM (member? · (before ++ after))).map (none :: ·), ?_, fun value => ?_⟩
        · rintro fields hfields
          obtain ⟨rest, hrest, rfl⟩ := Option.map_eq_some_iff.mp hfields
          rw [List.length_cons, List.length_cons, length_of_mapM_eq_some hrest]
        · rw [hone, hrest]
          cases names.mapM (member? · (before ++ after)) <;> rfl
      · exact ⟨none, fun _ h => (Option.not_mem_none _ h).elim, fun value => by rw [hnone]; rfl⟩
    | succ i =>
      obtain ⟨others, hlength, hothers⟩ := ih hnodup hname
      have hne : key ≠ name := fun heq => hkey (heq ▸ List.mem_of_getElem? hname)
      refine ⟨(member? key (before ++ after)).bind fun first => others.map (first :: ·), ?_,
        fun value => ?_⟩
      · rintro fields hfields
        obtain ⟨first, -, hfields⟩ := Option.bind_eq_some_iff.mp hfields
        obtain ⟨rest, hrest, rfl⟩ := Option.map_eq_some_iff.mp hfields
        rw [List.length_cons, List.length_cons, hlength rest hrest]
      · rw [member?_of_ne hne, hothers]
        cases member? key (before ++ after) <;> cases others <;> rfl

/-- The fields of a record are refused whatever the value of one of its members, or they are the
same but for that member. -/
theorem exists_fields?_eq {names : List String} (hnodup : names.Nodup) {i : ℕ} {name : String}
    (hname : names[i]? = some name) (before after : List (Option String × Json)) :
    ∃ others : Option (List (Option Json)), (∀ fields ∈ others, fields.length = names.length) ∧
      ∀ value, fields? names (.object (before ++ (some name, value) :: after)) =
        others.map (·.set i (some value)) := by
  obtain ⟨others, hlength, hothers⟩ := exists_mapM_member?_eq hnodup hname before after
  have hnamed (value : Json) : (before ++ (some name, value) :: after).all (fun m => m.1.isSome) =
      (before ++ after).all fun m => m.1.isSome := by simp
  by_cases hall : (before ++ after).all (fun m => m.1.isSome) = true
  · exact ⟨others, hlength, fun value => by rw [fields?, hnamed, if_pos hall, hothers]⟩
  · exact ⟨none, fun _ h => (Option.not_mem_none _ h).elim,
      fun value => by rw [fields?, hnamed, if_neg hall]; rfl⟩

end Json

end DspHost
