import DspHost.Proofs.Engine.Attachment
import DspHost.Proofs.Metadata.Tree

/-!
# The verdict on a description

A description is accepted if the value of every control lies inside the instance and no two controls
share a path, wherever they stand in the tree. Otherwise one control is reported: the first one in
document order that lies outside or repeats the path of a control before it. These rules are stated
about places, and neither about the walk that checks them nor about the paths that it has seen.

The same tree is walked once more to bind its controls, and what an accepted description lets
through is what is bound: every binding fits every instance that it is written to.

## Main definitions

* `ModuleMetadata.Sound` — a description that breaks no rule
* `ModuleMetadata.FirstOffence` — the control that is reported, and `ModuleMetadata.offence` how

## Main results

* `ModuleMetadata.check?_eq_none_iff`, `ModuleMetadata.check?_eq_some_iff` — what is reported
* `ModuleMetadata.fits_of_sound` — bindings of sound descriptions fit their instances
* `ModuleMetadata.parse_exact` — what becomes of any text
-/

namespace DspHost

namespace ModuleMetadata

/-! ### Rules -/

/-- A description that breaks no rule. -/
structure Sound (m : ModuleMetadata) : Prop where
  /-- The value of every control lies inside the instance. -/
  inside : ∀ place path index, controlAt? m.ui place = some (path, index) → index + 4 ≤ m.size
  /-- No two controls share a path. -/
  distinct : ∀ place place' path index index', controlAt? m.ui place = some (path, index) →
    controlAt? m.ui place' = some (path, index') → place = place'

/-- The control at a place lies outside the instance, or a control before it has its path. -/
def Offends (m : ModuleMetadata) (place : Place) (path : String) (index : ℕ) : Prop :=
  controlAt? m.ui place = some (path, index) ∧
    (m.size < index + 4 ∨
      ∃ earlier < place, ∃ index', controlAt? m.ui earlier = some (path, index'))

/-- The first control in document order that breaks a rule. -/
structure FirstOffence (m : ModuleMetadata) (place : Place) (path : String) (index : ℕ) :
    Prop where
  offends : m.Offends place path index
  first : ∀ earlier < place, ∀ path' index', ¬m.Offends earlier path' index'

/-- How a control that breaks a rule is reported: one that breaks both for its place. -/
def offence (m : ModuleMetadata) (path : String) (index : ℕ) : MetadataError :=
  if m.size < index + 4 then .indexOutOfRange path index m.size else .duplicatePath path

variable {m : ModuleMetadata} {place : Place} {path : String} {index : ℕ}

/-! ### The check -/

/-- What is reported is the first control of a list that breaks a rule; nothing is wrong with the
controls before it. -/
theorem firstOffence?_eq_some_iff {seen : List String} {controls : List (String × ℕ)}
    {e : MetadataError} :
    firstOffence? m.size seen controls = some e ↔
      ∃ before path index after, controls = before ++ (path, index) :: after ∧
        firstOffence? m.size seen before = none ∧
          (m.size < index + 4 ∨ path ∈ seen ∨ path ∈ before.map (·.1)) ∧
            e = m.offence path index := by
  induction controls generalizing seen with
  | nil => simp [firstOffence?]
  | cons c rest ih =>
    obtain ⟨path, index⟩ := c
    by_cases hoffends : m.size < index + 4 ∨ path ∈ seen
    · -- The first control is the one, and a longer list before it would report it too.
      have hfound : ∀ rest', firstOffence? m.size seen ((path, index) :: rest') =
          some (m.offence path index) := by
        intro rest'
        rw [firstOffence?, offence]
        split_ifs with hrange hseen
        · rfl
        · rfl
        · exact absurd hoffends (by simp [hrange, hseen])
      rw [hfound]
      constructor
      · intro h
        obtain rfl := Option.some.inj h
        exact ⟨[], path, index, rest, rfl, rfl, hoffends.imp_right .inl, rfl⟩
      · rintro ⟨before, path', index', after, hsplit, hbefore, -, rfl⟩
        cases before with
        | nil =>
          obtain ⟨hfirst, -⟩ := List.cons.inj hsplit
          obtain ⟨rfl, rfl⟩ := Prod.mk.inj hfirst
          rfl
        | cons first before =>
          obtain ⟨rfl, -⟩ := List.cons.inj hsplit
          rw [hfound] at hbefore
          cases hbefore
    · obtain ⟨hrange, hseen⟩ := not_or.mp hoffends
      have hnext : ∀ rest', firstOffence? m.size seen ((path, index) :: rest') =
          firstOffence? m.size (path :: seen) rest' := fun rest' => by
        rw [firstOffence?, if_neg hrange, if_neg hseen]
      rw [hnext, ih]
      constructor
      · rintro ⟨before, path', index', after, rfl, hbefore, hbreaks, rfl⟩
        refine ⟨(path, index) :: before, path', index', after, rfl, ?_, ?_, rfl⟩
        · rw [hnext, hbefore]
        · simpa [or_assoc, or_left_comm] using hbreaks
      · rintro ⟨before, path', index', after, hsplit, hbefore, hbreaks, rfl⟩
        cases before with
        | nil =>
          obtain ⟨hfirst, -⟩ := List.cons.inj hsplit
          obtain ⟨rfl, rfl⟩ := Prod.mk.inj hfirst
          exact absurd hbreaks (by simp [hrange, hseen])
        | cons first before =>
          obtain ⟨rfl, rfl⟩ := List.cons.inj hsplit
          refine ⟨before, path', index', after, rfl, ?_, ?_, rfl⟩
          · rw [← hnext, hbefore]
          · simpa [or_assoc, or_left_comm] using hbreaks

/-- Nothing is reported exactly if the description breaks no rule. -/
theorem check?_eq_none_iff : m.check? = none ↔ m.Sound := by
  rw [check?, firstOffence?_eq_none_iff, controlsOf_eq, List.map_map]
  constructor
  · rintro ⟨hinside, -, hnodup⟩
    refine ⟨fun place path index hcontrol => ?_, ?_⟩
    · exact hinside _ (List.mem_map_of_mem (mem_placedControls.mpr hcontrol))
    · intro place place' path index index' hcontrol hcontrol'
      have hsame := List.inj_on_of_nodup_map hnodup (mem_placedControls.mpr hcontrol)
        (mem_placedControls.mpr hcontrol') rfl
      exact (Prod.mk.inj hsame).1
  · intro hsound
    refine ⟨fun c hc => ?_, by simp, List.pairwise_map.mpr ?_⟩
    · obtain ⟨⟨place, path, index⟩, hplaced, rfl⟩ := List.mem_map.mp hc
      exact hsound.inside place path index (mem_placedControls.mp hplaced)
    · -- Two controls of the list stand at different places.
      refine (pairwise_placedControls m.ui).imp_of_mem fun {x y} hx hy hlt hpath => ?_
      obtain ⟨place, path, index⟩ := x
      obtain ⟨place', path', index'⟩ := y
      obtain rfl : path = path' := hpath
      have hplace := hsound.distinct place place' path index index' (mem_placedControls.mp hx)
        (mem_placedControls.mp hy)
      exact (lt_irrefl _ (hplace ▸ hlt : place' < place'))

/-- Document order splits the controls of a description at any of them. -/
theorem mem_before_iff {before after : List (Place × String × ℕ)} {control : String × ℕ}
    (hsplit : placedControls m.ui = before ++ (place, control) :: after) {earlier : Place}
    {other : String × ℕ} :
    (earlier, other) ∈ before ↔ earlier < place ∧ controlAt? m.ui earlier = some other := by
  have hordered := pairwise_placedControls m.ui
  rw [hsplit, List.pairwise_append, List.pairwise_cons] at hordered
  obtain ⟨-, ⟨hafter, -⟩, hbefore⟩ := hordered
  rw [← mem_placedControls, hsplit, List.mem_append, List.mem_cons]
  constructor
  · intro hmem
    exact ⟨hbefore _ hmem _ List.mem_cons_self, .inl hmem⟩
  · rintro ⟨hlt, hmem | hsame | hmem⟩
    · exact hmem
    · obtain ⟨rfl, -⟩ := Prod.mk.inj hsame
      exact absurd hlt (lt_irrefl _)
    · exact absurd hlt (hafter _ hmem).asymm

/-- A control of a description breaks a rule by itself or by what is before it. -/
theorem offends_iff {before after : List (Place × String × ℕ)}
    (hsplit : placedControls m.ui = before ++ (place, path, index) :: after) :
    m.Offends place path index ↔
      m.size < index + 4 ∨ path ∈ (before.map (·.2)).map (·.1) := by
  have hcontrol : controlAt? m.ui place = some (path, index) := by
    rw [← mem_placedControls, hsplit]
    exact List.mem_append_right _ List.mem_cons_self
  have hmem : path ∈ (before.map (·.2)).map (·.1) ↔
      ∃ earlier < place, ∃ index', controlAt? m.ui earlier = some (path, index') := by
    simp only [List.map_map, List.mem_map, Function.comp_apply]
    constructor
    · rintro ⟨⟨earlier, path, index'⟩, hbefore, rfl⟩
      obtain ⟨hlt, hother⟩ := (mem_before_iff hsplit).mp hbefore
      exact ⟨earlier, hlt, index', hother⟩
    · rintro ⟨earlier, hlt, index', hother⟩
      exact ⟨(earlier, path, index'), (mem_before_iff hsplit).mpr ⟨hlt, hother⟩, rfl⟩
  rw [Offends, hmem, and_iff_right hcontrol]

/-- Nothing is wrong with the controls before a place exactly if none of them breaks a rule. -/
theorem firstOffence?_before_eq_none_iff {before after : List (Place × String × ℕ)}
    (hsplit : placedControls m.ui = before ++ (place, path, index) :: after) :
    firstOffence? m.size [] (before.map (·.2)) = none ↔
      ∀ earlier < place, ∀ path' index', ¬m.Offends earlier path' index' := by
  constructor
  · intro hnone earlier hlt path' index' hoffends
    obtain ⟨first, rest, rfl⟩ :=
      List.append_of_mem ((mem_before_iff hsplit).mpr ⟨hlt, hoffends.1⟩)
    rw [List.append_assoc, List.cons_append] at hsplit
    rw [List.map_append, List.map_cons] at hnone
    obtain ⟨hinside, -, hnodup⟩ := (firstOffence?_eq_none_iff _ _ _).mp hnone
    rcases (offends_iff hsplit).mp hoffends with hrange | hmem
    · exact absurd hrange (hinside (path', index') (by simp)).not_gt
    · rw [List.map_append, List.map_cons] at hnodup
      exact List.disjoint_of_nodup_append hnodup hmem List.mem_cons_self
  · intro hfirst
    cases hfound : firstOffence? m.size [] (before.map (·.2)) with
    | none => rfl
    | some e =>
      obtain ⟨first, path', index', rest, hbefore, -, hbreaks, -⟩ :=
        firstOffence?_eq_some_iff.mp hfound
      obtain ⟨front, back, rfl, rfl, hback⟩ := List.map_eq_append_iff.mp hbefore
      obtain ⟨⟨earlier, _, _⟩, back, rfl, h, -⟩ := List.map_eq_cons_iff.mp hback
      obtain ⟨rfl, rfl⟩ := Prod.mk.inj h
      have hlt := ((mem_before_iff hsplit).mp
        (List.mem_append_right front (List.mem_cons_self (l := back)))).1
      rw [List.append_assoc, List.cons_append] at hsplit
      exact absurd ((offends_iff hsplit).mpr (by simpa using hbreaks)) (hfirst _ hlt _ _)

/-- What is reported is the first control that breaks a rule. -/
theorem check?_eq_some_iff {e : MetadataError} :
    m.check? = some e ↔
      ∃ place path index, m.FirstOffence place path index ∧ e = m.offence path index := by
  rw [check?, firstOffence?_eq_some_iff, controlsOf_eq]
  constructor
  · rintro ⟨before, path, index, after, hsplit, hbefore, hbreaks, rfl⟩
    obtain ⟨front, back, hplaced, rfl, hback⟩ := List.map_eq_append_iff.mp hsplit
    obtain ⟨⟨place, _, _⟩, back, rfl, h, -⟩ := List.map_eq_cons_iff.mp hback
    obtain ⟨rfl, rfl⟩ := Prod.mk.inj h
    refine ⟨place, _, _, ⟨(offends_iff hplaced).mpr (by simpa using hbreaks), ?_⟩, rfl⟩
    exact (firstOffence?_before_eq_none_iff hplaced).mp hbefore
  · rintro ⟨place, path, index, ⟨hoffends, hfirst⟩, rfl⟩
    obtain ⟨front, back, hplaced⟩ := List.append_of_mem (mem_placedControls.mpr hoffends.1)
    refine ⟨front.map (·.2), path, index, back.map (·.2), by rw [hplaced]; simp, ?_, ?_, rfl⟩
    · exact (firstOffence?_before_eq_none_iff hplaced).mpr hfirst
    · simpa using (offends_iff hplaced).mp hoffends

/-! ### Bindings -/

/-- Bindings of sound descriptions fit the instances that they are written to. -/
theorem fits_of_sound {voice : ModuleMetadata} {effect : Option ModuleMetadata} {b : Binding}
    (hsound : ∀ d, ParameterTable.describedBy voice effect b.scope = some d → d.Sound)
    {polyphonic : Bool}
    (hb : b ∈ (ParameterTable.build voice effect polyphonic).bindings) {config : EngineConfig}
    {width : PointerWidth} {plan : MemoryPlan} {table : ParameterTable}
    (hplan : (layoutFor voice effect config width).plan = .ok plan) {region : InstanceRegion}
    (hregion : region ∈ (Router.mk plan table).regions b.scope) :
    b.index + 4 ≤ region.size := by
  obtain ⟨d, hd, hmem⟩ := ParameterTable.visited_of_build hb
  obtain ⟨d', hd', hsize⟩ := size_of_layout hplan hregion
  obtain rfl := Option.some.inj (hd.symm.trans hd')
  -- The walk that binds controls meets those that the check has met.
  have hcontrol : b.control ∈ controlsOf d.ui :=
    map_controls b.scope d.ui ▸ List.mem_map_of_mem hmem
  rw [controlsOf_eq] at hcontrol
  obtain ⟨⟨place, _⟩, hplaced, rfl⟩ := List.mem_map.mp hcontrol
  rw [hsize]
  exact (hsound d hd).inside place b.path b.index (mem_placedControls.mp hplaced)

/-! ### Texts -/

/-- A text is accepted exactly if it holds a description that breaks no rule. -/
theorem parse_eq_ok_iff {text : String} :
    parse text = .ok m ↔ (Json.parse? text).bind ofJson? = some m ∧ m.Sound := by
  rw [parse]
  cases (Json.parse? text).bind ofJson? with
  | none => simp
  | some d =>
    dsimp only
    cases hcheck : d.check? with
    | none =>
      have hsound := check?_eq_none_iff.mp hcheck
      constructor
      · intro h
        obtain rfl := Except.ok.inj h
        exact ⟨rfl, hsound⟩
      · rintro ⟨h, -⟩
        exact congrArg Except.ok (Option.some.inj h)
    | some e =>
      constructor
      · intro h
        cases h
      · rintro ⟨h, hsound⟩
        obtain rfl := Option.some.inj h
        rw [check?_eq_none_iff.mpr hsound] at hcheck
        cases hcheck

/-- A text is refused if it holds no description, and for the first control of its description that
breaks a rule. -/
theorem parse_eq_error_iff {text : String} {e : MetadataError} :
    parse text = .error e ↔
      (Json.parse? text).bind ofJson? = none ∧ e = .malformed ∨
        ∃ m, (Json.parse? text).bind ofJson? = some m ∧ m.check? = some e := by
  rw [parse]
  cases (Json.parse? text).bind ofJson? with
  | none => simp [eq_comm]
  | some d =>
    dsimp only
    cases hcheck : d.check? <;> simp [hcheck]

/-- What becomes of any text. It is accepted exactly if it holds a description in which the value of
every control lies inside the instance and no two controls share a path. It is refused as malformed
exactly if it holds none; any other refusal names the first control in document order that breaks a
rule. And the bindings of accepted descriptions fit the instances that they are written to, in every
plan that is made for them. -/
theorem parse_exact (text : String) :
    (∀ m, parse text = .ok m ↔ (Json.parse? text).bind ofJson? = some m ∧ m.Sound) ∧
      (∀ e, parse text = .error e ↔
        (Json.parse? text).bind ofJson? = none ∧ e = .malformed ∨
          ∃ m place path index, (Json.parse? text).bind ofJson? = some m ∧
            m.FirstOffence place path index ∧
              e = if m.size < index + 4 then .indexOutOfRange path index m.size
                else .duplicatePath path) ∧
      ∀ voice effect polyphonic, parse text = .ok voice →
        (∀ d ∈ effect, ∃ text', parse text' = .ok d) →
          ∀ b ∈ (ParameterTable.build voice effect polyphonic).bindings,
            ∀ config width plan, (layoutFor voice effect config width).plan = .ok plan →
              ∀ region ∈ (Router.mk plan (.build voice effect polyphonic)).regions b.scope,
                b.index + 4 ≤ region.size := by
  refine ⟨fun m => parse_eq_ok_iff, fun e => ?_, ?_⟩
  · rw [parse_eq_error_iff]
    refine or_congr_right (exists_congr fun m => ?_)
    simp only [check?_eq_some_iff, exists_and_left]
    rfl
  · intro voice effect polyphonic hvoice heffect b hb config width plan hplan region hregion
    refine fits_of_sound (fun d hd => ?_) hb hplan hregion
    cases hscope : b.scope with
    | voice =>
      rw [hscope] at hd
      obtain rfl := Option.some.inj hd
      exact (parse_eq_ok_iff.mp hvoice).2
    | effect =>
      rw [hscope] at hd
      obtain ⟨text', htext⟩ := heffect d hd
      exact (parse_eq_ok_iff.mp htext).2

/-- A control that lies outside and repeats a path is reported for its place. -/
example :
    check? ⟨"", "", 8, 0, 0, [], [.group .vertical "" [.toggle .button ⟨"", "/a", 4, []⟩],
      .bargraph .vertical ⟨"", "/a", 5, .zero, .one, []⟩]⟩ =
        some (.indexOutOfRange "/a" 5 8) := by decide

end ModuleMetadata

end DspHost
