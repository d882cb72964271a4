import DspHost.Metadata.Basic

/-!
# Checking metadata

The value of every control has to lie inside the instance, and no two controls may share a path. The
first control in document order that breaks a rule is reported; a control that breaks both is
reported for its place.

## Main definitions

* `MetadataError` — what is reported
* `UiItem.controls` — the paths and offsets of a tree, in document order
* `ModuleMetadata.check?` — the first control that breaks a rule
-/

namespace DspHost

/-- Why metadata is rejected. -/
inductive MetadataError where
  /-- The text is no description of a module. -/
  | malformed
  /-- The value of a control does not lie inside the instance. -/
  | indexOutOfRange (path : String) (index size : Nat)
  /-- Two controls share a path. -/
  | duplicatePath (path : String)
  deriving DecidableEq, Repr

/-- The message of a metadata error. -/
def MetadataError.message : MetadataError → String
  | malformed => "malformed module metadata"
  | indexOutOfRange path index size =>
    s!"control {path} at byte {index} lies outside the {size}-byte instance"
  | duplicatePath path => s!"duplicate control path {path}"

mutual

/-- The path and offset of every control of a node, in document order. -/
def UiItem.controls : UiItem → List (String × Nat)
  | .group _ _ items => controlsOf items
  | .slider _ s => [(s.address, s.index)]
  | .toggle _ t => [(t.address, t.index)]
  | .bargraph _ b => [(b.address, b.index)]
  | .unsupported => []

/-- The path and offset of every control of sibling nodes. -/
def controlsOf : List UiItem → List (String × Nat)
  | [] => []
  | item :: items => item.controls ++ controlsOf items

end

/-- The first control that breaks a rule, where `seen` holds the paths before it. -/
def firstOffence? (size : Nat) (seen : List String) : List (String × Nat) → Option MetadataError
  | [] => none
  | (path, index) :: rest =>
    if size < index + 4 then some (.indexOutOfRange path index size)
    else if path ∈ seen then some (.duplicatePath path)
    else firstOffence? size (path :: seen) rest

/-- The first control of a description that breaks a rule. -/
def ModuleMetadata.check? (m : ModuleMetadata) : Option MetadataError :=
  firstOffence? m.size [] (controlsOf m.ui)

/-- Nothing is reported exactly if every value lies inside the instance and no path is repeated. -/
theorem firstOffence?_eq_none_iff (size : Nat) (seen : List String)
    (controls : List (String × Nat)) :
    firstOffence? size seen controls = none ↔
      (∀ c ∈ controls, c.2 + 4 ≤ size) ∧ (∀ c ∈ controls, c.1 ∉ seen) ∧
        (controls.map (·.1)).Nodup := by
  induction controls generalizing seen with
  | nil => simp [firstOffence?]
  | cons c rest ih =>
    obtain ⟨path, index⟩ := c
    rw [firstOffence?]
    split
    · next hrange =>
      simp only [reduceCtorEq, false_iff]
      rintro ⟨hfit, -⟩
      have := hfit (path, index) (by simp)
      omega
    · next hrange =>
      split
      · next hseen =>
        simp only [reduceCtorEq, false_iff]
        rintro ⟨-, hfresh, -⟩
        exact hfresh (path, index) (by simp) hseen
      · next hseen =>
        rw [ih]
        constructor
        · intro ⟨hfit, hfresh, hnodup⟩
          refine ⟨?_, ?_, ?_⟩
          · intro c hc
            rcases List.mem_cons.1 hc with rfl | hc
            · omega
            · exact hfit c hc
          · intro c hc
            rcases List.mem_cons.1 hc with rfl | hc
            · exact hseen
            · exact fun h => hfresh c hc (List.mem_cons_of_mem _ h)
          · rw [List.map_cons, List.nodup_cons]
            refine ⟨?_, hnodup⟩
            intro h
            obtain ⟨c, hc, hpath⟩ := List.mem_map.1 h
            exact hfresh c hc (by simp [hpath])
        · intro ⟨hfit, hfresh, hnodup⟩
          rw [List.map_cons, List.nodup_cons] at hnodup
          refine ⟨fun c hc => hfit c (List.mem_cons_of_mem _ hc), ?_, hnodup.2⟩
          intro c hc h
          rcases List.mem_cons.1 h with hpath | h
          · exact hnodup.1 (List.mem_map.2 ⟨c, hc, hpath⟩)
          · exact hfresh c (List.mem_cons_of_mem _ hc) h

end DspHost
