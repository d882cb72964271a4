import DspHost.Proofs.Engine.Contract

/-!
# Which fields a write reaches

A control is one field of every instance of its scope. Writing it stores the value in all of these
instances and leaves every other field alone, whatever else lies in the same instances.

## Main definitions

* `Router.Misses` — a control that does not overlap a field
* `Router.setKey` — writes one of the controls that notes drive

## Main results

* `Router.readField?_set` — a control that was written is read back from every instance
* `Router.readField?_set_of_misses`, `Router.readField?_setEach_of_misses`,
  `Router.readField?_setKey_of_ne` — fields that are missed keep their values
* `Router.changedWithin_set` — writes stay inside instances
-/

namespace DspHost

/-! ### Writing a field of several instances -/

namespace Arena

variable {a : Arena} {regions : List InstanceRegion} {region : InstanceRegion} {index index' : ℕ}
  {value : Single}

/-- The bytes of a field that lie inside its instance. -/
theorem changedWithin_inter_writeField (a : Arena) (region : InstanceRegion) (index : ℕ)
    (value : Single) :
    ChangedWithin (region.footprint ∩ region.fieldSpan index) a
      (a.writeField region index value) :=
  (changedWithin_footprint_writeField a region index value).inter
    (changedWithin_writeField a region index value)

/-- A field is written in the given instances only. -/
theorem changedWithin_writeFields (a : Arena) (regions : List InstanceRegion) (index : ℕ)
    (value : Single) :
    ChangedWithin {i | ∃ region ∈ regions, i ∈ region.footprint ∩ region.fieldSpan index} a
      (a.writeFields regions index value) := by
  unfold writeFields
  induction regions generalizing a with
  | nil => exact .refl _ a
  | cons first rest ih =>
    refine ((changedWithin_inter_writeField a first index value).mono fun i hi => ?_).trans
      ((ih _).mono ?_)
    · exact ⟨first, List.mem_cons_self, hi⟩
    · rintro i ⟨region, hregion, hi⟩
      exact ⟨region, List.mem_cons_of_mem first hregion, hi⟩

/-- A field that holds a value still does after the value was written anywhere else. -/
theorem readField?_writeField_again (hfits : index + 4 ≤ region.size)
    (hinside : region.offset + region.size ≤ a.size) {other : InstanceRegion}
    (hapart : region = other ∨ Disjoint region.footprint other.footprint)
    (h : a.readField? region index = some value) :
    (a.writeField other index value).readField? region index = some value := by
  rcases hapart with rfl | hapart
  · exact readField?_writeField hfits hinside value
  · refine ((changedWithin_footprint_writeField a other index value).readField?_eq ?_).trans h
    exact hapart.mono_left (region.fieldSpan_subset hfits)

theorem readField?_writeFields_again (hfits : index + 4 ≤ region.size)
    (hinside : region.offset + region.size ≤ a.size)
    (hapart : ∀ y ∈ regions, region = y ∨ Disjoint region.footprint y.footprint)
    (h : a.readField? region index = some value) :
    (a.writeFields regions index value).readField? region index = some value := by
  unfold writeFields
  induction regions generalizing a with
  | nil => exact h
  | cons first rest ih =>
    refine ih ?_ (fun y hy => hapart y (List.mem_cons_of_mem first hy)) ?_
    · rwa [size_writeField]
    · exact readField?_writeField_again hfits hinside (hapart first List.mem_cons_self) h

/-- A field that was written in several instances is read back from each. -/
theorem readField?_writeFields (hfits : ∀ x ∈ regions, index + 4 ≤ x.size)
    (hinside : ∀ x ∈ regions, x.offset + x.size ≤ a.size)
    (hapart : ∀ x ∈ regions, ∀ y ∈ regions, x = y ∨ Disjoint x.footprint y.footprint) :
    ∀ x ∈ regions, (a.writeFields regions index value).readField? x index = some value := by
  induction regions generalizing a with
  | nil => simp
  | cons first rest ih =>
    have hmem {x : InstanceRegion} (hx : x ∈ rest) : x ∈ first :: rest :=
      List.mem_cons_of_mem first hx
    have hsize := size_writeField a first index value
    have hwrite : a.writeFields (first :: rest) index value =
      (a.writeField first index value).writeFields rest index value := rfl
    intro x hx
    rw [hwrite]
    rcases List.mem_cons.mp hx with rfl | hx
    · -- The instance may be listed again, which writes the same value once more.
      refine readField?_writeFields_again (hfits x List.mem_cons_self) ?_
        (fun y hy => hapart x List.mem_cons_self y (hmem hy)) ?_
      · rw [hsize]
        exact hinside x List.mem_cons_self
      · exact readField?_writeField (hfits x List.mem_cons_self) (hinside x List.mem_cons_self)
          value
    · refine ih (fun y hy => hfits y (hmem hy)) (fun y hy => ?_)
        (fun y hy z hz => hapart y (hmem hy) z (hmem hz)) x hx
      rw [hsize]
      exact hinside y (hmem hy)

end Arena

/-! ### Writing a control -/

namespace Router

variable {r : Router} {id : BindingId} {b : Binding} {scope : Scope} {region other : InstanceRegion}
  {index : ℕ} {value : Single} {a : Arena}

/-- The control has no byte in common with a field of the instances of a scope. -/
def Misses (r : Router) (id : BindingId) (scope : Scope) (index : ℕ) : Prop :=
  ∀ b, r.table.get? id = some b → b.scope = scope →
    b.index + 4 ≤ index ∨ index + 4 ≤ b.index

/-- A control is written inside instances. -/
theorem changedWithin_set (r : Router) (id : BindingId) (value : Single) (a : Arena) :
    Arena.ChangedWithin (r.plan.area RegionKind.instances) a (r.set id value a) := by
  unfold set
  split
  · next b hb =>
    refine (a.changedWithin_writeFields _ b.index value).mono ?_
    rintro i ⟨region, hregion, hi, -⟩
    exact footprint_subset hregion hi
  · exact .refl _ a

/-- A control is written in one voice. -/
theorem changedWithin_setOnVoice (r : Router) (other : InstanceRegion) (id : BindingId)
    (value : Single) (a : Arena) :
    Arena.ChangedWithin other.footprint a (r.setOnVoice other id value a) := by
  unfold setOnVoice
  split
  · next b hb => exact a.changedWithin_footprint_writeField other b.index value
  · exact .refl _ a

theorem setEach_cons_of_some (h : r.table.get? id = some b) (value : Binding → Single)
    (rest : List BindingId) (a : Arena) :
    r.setEach value (id :: rest) a = r.setEach value rest (r.set id (value b) a) := by
  rw [setEach, List.foldl_cons, h, setEach]

theorem setEach_cons_of_none (h : r.table.get? id = none) (value : Binding → Single)
    (rest : List BindingId) (a : Arena) :
    r.setEach value (id :: rest) a = r.setEach value rest a := by
  rw [setEach, List.foldl_cons, h, setEach]

theorem changedWithin_setEach (r : Router) (value : Binding → Single) (ids : List BindingId)
    (a : Arena) :
    Arena.ChangedWithin (r.plan.area RegionKind.instances) a (r.setEach value ids a) := by
  induction ids generalizing a with
  | nil => exact .refl _ a
  | cons id rest ih =>
    cases hid : r.table.get? id with
    | none =>
      rw [setEach_cons_of_none hid]
      exact ih a
    | some b =>
      rw [setEach_cons_of_some hid]
      exact (r.changedWithin_set id (value b) a).trans (ih _)

/-- A control that was written is read back from every instance that holds it. -/
theorem readField?_set (hwell : r.plan.WellFormed) (hsize : a.size = r.plan.arenaSize)
    (hb : r.table.get? id = some b) (hfits : ∀ x ∈ r.regions b.scope, b.index + 4 ≤ x.size) :
    ∀ x ∈ r.regions b.scope, (r.set id value a).readField? x b.index = some value := by
  have hset : r.set id value a = a.writeFields (r.regions b.scope) b.index value := by
    rw [set, hb]
  rw [hset]
  refine Arena.readField?_writeFields hfits (fun x hx => ?_) fun x hx y hy => ?_
  · rw [hsize]
    exact region_le_arenaSize hwell hx
  · exact (regions_apart hwell hx hy).imp_left And.right

/-- A field that a control misses keeps its value when the control is written. -/
theorem readField?_set_of_misses (hwell : r.plan.WellFormed) (hregion : region ∈ r.regions scope)
    (hfits : index + 4 ≤ region.size) (hmiss : r.Misses id scope index) :
    (r.set id value a).readField? region index = a.readField? region index := by
  unfold set
  split
  · next b hb =>
    refine (a.changedWithin_writeFields _ b.index value).readField?_eq (Set.disjoint_left.mpr ?_)
    rintro i hi ⟨x, hx, hx', hfield⟩
    -- Within the instance the control misses the field, and other instances have other bytes.
    rcases regions_apart hwell hx hregion with ⟨hscope, rfl⟩ | hapart
    · have hdisjoint := x.disjoint_fieldSpan (hmiss b hb hscope)
      exact Set.disjoint_left.mp hdisjoint hfield hi
    · exact Set.disjoint_left.mp hapart hx' (region.fieldSpan_subset hfits hi)
  · rfl

theorem readField?_setEach_of_misses (hwell : r.plan.WellFormed)
    (hregion : region ∈ r.regions scope) (hfits : index + 4 ≤ region.size)
    {ids : List BindingId} (hmiss : ∀ id ∈ ids, r.Misses id scope index)
    (value : Binding → Single) (a : Arena) :
    (r.setEach value ids a).readField? region index = a.readField? region index := by
  induction ids generalizing a with
  | nil => rfl
  | cons id rest ih =>
    have hrest := ih fun other hother => hmiss other (List.mem_cons_of_mem id hother)
    cases hid : r.table.get? id with
    | none =>
      rw [setEach_cons_of_none hid]
      exact hrest a
    | some b =>
      rw [setEach_cons_of_some hid, hrest]
      exact readField?_set_of_misses hwell hregion hfits (hmiss id List.mem_cons_self)

/-! ### Writing by path -/

theorem changedWithin_setPath (r : Router) (path : String) (value : Single) (a : Arena) :
    Arena.ChangedWithin (r.plan.area RegionKind.instances) a (r.setPath path value a).2 := by
  unfold setPath
  split
  · exact r.changedWithin_set _ value a
  · exact .refl _ a

theorem readField?_setPath_of_misses (hwell : r.plan.WellFormed)
    (hregion : region ∈ r.regions scope) (hfits : index + 4 ≤ region.size) {path : String}
    (hmiss : ∀ id, r.automatable? path = some id → r.Misses id scope index) (value : Single)
    (a : Arena) :
    (r.setPath path value a).2.readField? region index = a.readField? region index := by
  unfold setPath
  split
  · next id hid => exact readField?_set_of_misses hwell hregion hfits (hmiss id hid)
  · rfl

/-! ### Writing what a note drives -/

/-- Writes one of the controls that notes drive in one voice, if there is such a control. -/
def setKey (r : Router) (other : InstanceRegion) (key : VoiceKey) (value : Single) (a : Arena) :
    Arena :=
  match r.table.keys.get? key with
  | some id => r.setOnVoice other id value a
  | none => a

theorem changedWithin_setKey (r : Router) (other : InstanceRegion) (key : VoiceKey)
    (value : Single) (a : Arena) :
    Arena.ChangedWithin other.footprint a (r.setKey other key value a) := by
  unfold setKey
  split
  · exact r.changedWithin_setOnVoice other _ value a
  · exact .refl _ a

theorem readField?_setOnVoice_of_ne (hwell : r.plan.WellFormed) (hother : other ∈ r.regions .voice)
    (hregion : region ∈ r.regions scope) (hfits : index + 4 ≤ region.size)
    (hmiss : other = region → scope = .voice → ∀ b, r.table.get? id = some b →
      b.index + 4 ≤ index ∨ index + 4 ≤ b.index) :
    (r.setOnVoice other id value a).readField? region index = a.readField? region index := by
  unfold setOnVoice
  split
  · next b hb =>
    refine (Arena.changedWithin_inter_writeField a other b.index value).readField?_eq
      (Set.disjoint_left.mpr ?_)
    rintro i hi ⟨hinside, hfield⟩
    rcases regions_apart hwell hother hregion with ⟨hscope, rfl⟩ | hapart
    · have hdisjoint := other.disjoint_fieldSpan (hmiss rfl hscope.symm b hb)
      exact Set.disjoint_left.mp hdisjoint hfield hi
    · exact Set.disjoint_left.mp hapart hinside (region.fieldSpan_subset hfits hi)
  · rfl

/-- Writing what a note drives leaves alone a field that the control misses, and every field of
other instances. -/
theorem readField?_setKey_of_ne (hwell : r.plan.WellFormed) (hother : other ∈ r.regions .voice)
    (hregion : region ∈ r.regions scope) (hfits : index + 4 ≤ region.size) {key : VoiceKey}
    (hmiss : other = region → scope = .voice → ∀ id b, r.table.keys.get? key = some id →
      r.table.get? id = some b → b.index + 4 ≤ index ∨ index + 4 ≤ b.index) :
    (r.setKey other key value a).readField? region index = a.readField? region index := by
  unfold setKey
  split
  · next id hid =>
    refine readField?_setOnVoice_of_ne hwell hother hregion hfits fun heq hscope b hb => ?_
    exact hmiss heq hscope id b hid hb
  · rfl

end Router

end DspHost
