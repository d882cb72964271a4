import DspHost.Engine.Setup
import DspHost.Proofs.Engine.Commands

/-!
# New processors

A processor that could be attached was planned, its tables point at its buffers, and the code of
every instance has run once. The code of one instance leaves the others alone, so in the end every
instance holds what its own code has stored.

## Main definitions

* `CompiledModule.describedBy` — the description of the controls of a scope
* `InstanceRegion.Stored` — an instance holds the values of some fields

## Main results

* `attach_eq_ok` — what attaching a module consists of
* `size_of_layout` — instances have the sizes that their descriptions give
* `exists_attach` — code that minds its fields can be attached
* `ready_of_attach` — a new processor can go on, and its instances hold their fields
-/

namespace DspHost

/-- The description of the controls of a scope, where the effect has one if it is hosted. -/
def CompiledModule.describedBy (m : CompiledModule) (voices : ℕ) : Scope → Option ModuleMetadata :=
  ParameterTable.describedBy m.metadata ((hostedEffect? m voices).map (·.metadata))

variable {m : CompiledModule} {config : EngineConfig} {s : Session}

theorem value_attach (m : CompiledModule) (config : EngineConfig) :
    (attach m config).value = (prepare m config).map fun x => connect m config x.1 x.2 := by
  unfold attach
  cases prepare m config with
  | error error =>
    dsimp only
    split <;> rfl
  | ok x =>
    dsimp only
    split <;> rfl

/-- What attaching a module consists of. -/
theorem attach_eq_ok (h : (attach m config).value = .ok s) :
    ∃ width plan arena,
      (layoutFor m.metadata ((hostedEffect? m config.voices).map (·.metadata)) config width).plan =
          .ok plan ∧
        (setupCode plan m.kernel ((hostedEffect? m config.voices).map (·.kernel))
          config.sampleRate).run plan.arena = (.ok (), arena) ∧
          s = connect m config plan arena := by
  rw [value_attach] at h
  cases hprepare : prepare m config with
  | error error =>
    rw [hprepare] at h
    cases h
  | ok x =>
    obtain ⟨plan, arena⟩ := x
    rw [hprepare] at h
    simp only [prepare, bind_eq_ok_iff, Except.mapError_eq_ok_iff] at hprepare
    obtain ⟨_, -, width, -, _, hplan, _, houtcome, hdone⟩ := hprepare
    obtain ⟨rfl, rfl⟩ := Prod.mk.inj (Except.ok.inj hdone)
    exact ⟨width, _, _, hplan, Prod.ext houtcome rfl, (Except.ok.inj h).symm⟩

/-! ### Sizes -/

/-- Instances have the sizes that their descriptions give, whatever the controls are. -/
theorem size_of_layout {voice : ModuleMetadata} {effect : Option ModuleMetadata}
    {width : PointerWidth} {plan : MemoryPlan} {table : ParameterTable}
    (hplan : (layoutFor voice effect config width).plan = .ok plan) {scope : Scope}
    {region : InstanceRegion} (hregion : region ∈ (Router.mk plan table).regions scope) :
    ∃ d, ParameterTable.describedBy voice effect scope = some d ∧ region.size = d.size := by
  have hanswer := LayoutRequest.answeredBy_of_plan hplan
  cases scope with
  | voice =>
    obtain ⟨index, hindex⟩ := Router.mem_regions_voice.mp hregion
    obtain ⟨-, hvoice⟩ := Option.ite_none_right_eq_some.mp hindex
    obtain rfl := Option.some.inj hvoice
    exact ⟨voice, rfl, hanswer.instanceSize⟩
  | effect =>
    have heffect := hanswer.effect
    rw [show plan.effect = some region from Router.mem_regions_effect.mp hregion,
      Option.map_some] at heffect
    split_ifs at heffect with hpoly
    obtain ⟨d, hd, hsize⟩ := Option.map_eq_some_iff.mp heffect.symm
    exact ⟨d, hd, hsize.symm⟩

/-- The instances of a new processor have the sizes that the descriptions of its module give. -/
theorem size_of_plan {width : PointerWidth} {plan : MemoryPlan} {arena : Arena}
    (hplan : (layoutFor m.metadata ((hostedEffect? m config.voices).map (·.metadata)) config
      width).plan = .ok plan) {scope : Scope} {region : InstanceRegion}
    (hregion : region ∈ (connect m config plan arena).processor.router.regions scope) :
    ∃ d, m.describedBy config.voices scope = some d ∧ region.size = d.size :=
  size_of_layout hplan hregion

/-- Every instance has code that runs in it. -/
theorem code?_of_attach (h : (attach m config).value = .ok s) {scope : Scope}
    {region : InstanceRegion} (hregion : region ∈ s.processor.router.regions scope) :
    ∃ k, s.processor.code? scope = some k := by
  obtain ⟨width, plan, arena, hplan, -, rfl⟩ := attach_eq_ok h
  obtain ⟨d, hd, -⟩ := size_of_plan hplan hregion
  cases scope with
  | voice => exact ⟨m.kernel, rfl⟩
  | effect =>
    obtain ⟨effect, heffect, -⟩ := Option.map_eq_some_iff.mp hd
    exact ⟨effect.kernel, Option.map_eq_some_iff.mpr ⟨effect, heffect, rfl⟩⟩

/-! ### What is stored at first -/

/-- The instance holds the values of some fields. -/
def InstanceRegion.Stored (region : InstanceRegion) (fields : List (ℕ × Single)) (a : Arena) :
    Prop :=
  ∀ field ∈ fields, a.readField? region field.1 = some field.2

theorem fits_of_readField? {a : Arena} {region : InstanceRegion} {index : ℕ} {value : Single}
    (h : a.readField? region index = some value) : index + 4 ≤ region.size := by
  obtain ⟨address, haddress, -⟩ := Option.bind_eq_some_iff.mp h
  exact (InstanceRegion.field?_eq_some_iff.mp haddress).1

namespace Processor

variable {p : Processor} {rate : ℕ} {fields : Scope → List (ℕ × Single)} {a b : Arena}
  {scope scope' : Scope} {region other : InstanceRegion} {k : Kernel}

/-- Setting up an instance stores its fields and leaves tables and other instances alone. -/
theorem Minds.of_run_init (h : p.Minds rate fields) (hwell : p.plan.WellFormed)
    (hregion : region ∈ p.router.regions scope) (hk : p.code? scope = some k)
    (ha : p.plan.Hosts a) (hrun : (k.init region.offset rate).run a = (.ok (), b)) :
    p.plan.Hosts b ∧ region.Stored (fields scope) b ∧
      ∀ scope' other, other ∈ p.router.regions scope' → other.Stored (fields scope') a →
        other.Stored (fields scope') b := by
  have hinit := (h scope region hregion k hk).init a ha
  rw [MemoryPlan.region_seat] at hinit
  obtain ⟨hchange, hstored⟩ := hinit.post_of_run hrun
  have htables : Disjoint (p.plan.area RegionKind.tables)
      (p.plan.seat scope region).writable := by
    refine @Router.disjoint_writable p.router _ _ _
      (hwell.disjoint_area RegionKind.disjoint_tables_samples) ?_
    exact (hwell.disjoint_area RegionKind.disjoint_tables_instances).mono_right
      (@Router.footprint_subset p.router _ _ hregion)
  refine ⟨ha.of_changedWithin hwell hchange htables, hstored, ?_⟩
  intro scope' other hother hold field hfield
  rcases @Router.regions_apart p.router _ _ _ _ hwell hother hregion with ⟨rfl, rfl⟩ | hapart
  · exact hstored field hfield
  · -- A field that holds a value lies inside its instance, where this code does not write.
    have hread := hold field hfield
    refine (hchange.readField?_eq ?_).trans hread
    refine Disjoint.mono_left (other.fieldSpan_subset (fits_of_readField? hread)) ?_
    exact @Router.disjoint_writable p.router _ _ _
      (@Router.disjoint_footprint_samples p.router _ _ hwell hother) hapart

/-- Setting up all instances leaves each with its fields stored. -/
theorem Minds.of_run_initInstances (h : p.Minds rate fields) (hwell : p.plan.WellFormed)
    (hcode : ∀ region ∈ p.router.regions .effect, ∃ k, p.code? .effect = some k)
    (ha : p.plan.Hosts a)
    (hrun : (initInstances p.plan p.kernel p.effect rate).run a = (.ok (), b)) :
    p.plan.Hosts b ∧
      ∀ scope, ∀ region ∈ p.router.regions scope, region.Stored (fields scope) b := by
  have hkernel : p.code? .voice = some p.kernel := rfl
  obtain ⟨_, c, hvoices, heffect⟩ := Access.run_bind_eq_ok_iff.mp hrun
  -- The property holds of instances of the plan only, since others may overlap them.
  obtain ⟨hc, hstored, -⟩ := Access.forEach_establishes p.plan.Hosts
    (fun region a => region ∈ p.router.regions .voice → region.Stored (fields .voice) a)
    (fun region hregion a b ha hinit => by
      obtain ⟨hb, hown, hothers⟩ := h.of_run_init hwell hregion hkernel ha hinit
      exact ⟨hb, fun _ => hown, fun other hold hother =>
        hothers .voice other hother (hold hother)⟩)
    ha hvoices
  have hvoice : ∀ region ∈ p.router.regions .voice, region.Stored (fields .voice) c :=
    fun region hregion => hstored region hregion hregion
  cases hplanned : p.plan.effect with
  | none =>
    -- Without an instance nothing is run, whether there is code for an effect or not.
    have hdone : (.ok (), c) = ((.ok (), b) : Except Fault Unit × Arena) := by
      rw [hplanned] at heffect
      cases hk : p.effect with
      | none =>
        rw [hk] at heffect
        exact heffect
      | some k =>
        rw [hk] at heffect
        exact heffect
    obtain rfl := (Prod.mk.inj hdone).2
    refine ⟨hc, fun scope region hregion => ?_⟩
    cases scope with
    | voice => exact hvoice region hregion
    | effect =>
      have hnone := Router.mem_regions_effect.mp hregion
      exact absurd (hnone.symm.trans hplanned) (Option.some_ne_none region)
  | some e =>
    have he : e ∈ p.router.regions .effect := Router.mem_regions_effect.mpr hplanned
    obtain ⟨k, hk⟩ := hcode e he
    rw [hplanned, show p.effect = some k from hk] at heffect
    obtain ⟨hb, hown, hothers⟩ := h.of_run_init hwell he hk hc heffect
    refine ⟨hb, fun scope region hregion => ?_⟩
    cases scope with
    | voice => exact hothers .voice region hregion (hvoice region hregion)
    | effect =>
      have hsame := (Router.mem_regions_effect.mp hregion).symm.trans hplanned
      obtain rfl := Option.some.inj hsame
      exact hown

/-- Code that minds its fields sets up all instances. -/
theorem Minds.initInstances_ends (h : p.Minds rate fields) (hwell : p.plan.WellFormed)
    (ha : p.plan.Hosts a) :
    (initInstances p.plan p.kernel p.effect rate).Ends a fun _ b => p.plan.Hosts b := by
  have hends {scope : Scope} {region : InstanceRegion} {k : Kernel} {a : Arena}
      (hregion : region ∈ p.router.regions scope) (hk : p.code? scope = some k)
      (ha : p.plan.Hosts a) :
      (k.init region.offset rate).Ends a fun _ b => p.plan.Hosts b := by
    have hinit := (h scope region hregion k hk).init a ha
    rw [MemoryPlan.region_seat] at hinit
    obtain ⟨_, b, hrun, -⟩ := hinit
    exact .of_run hrun (h.of_run_init hwell hregion hk ha hrun).1
  refine .bind ((Access.Ends.forEach (fun region hregion b hb => ?_) ha).mono fun _ b hb => ?_)
  · exact @hends .voice region _ b hregion rfl hb
  · split
    · next k region hk hregion =>
      exact @hends .effect region k b (Router.mem_regions_effect.mpr hregion) hk hb
    · exact .pure hb

end Processor

/-- A module whose code minds its fields can be attached, if the configuration is accepted, the
arena is planned and its addresses fit the words of the tables. -/
theorem exists_attach {fields : Scope → List (ℕ × Single)} {width : PointerWidth}
    {plan : MemoryPlan}
    (hconfig : config.check? = none) (hwidth : config.width = .ok width)
    (hplan : (layoutFor m.metadata ((hostedEffect? m config.voices).map (·.metadata)) config
      width).plan = .ok plan)
    (hroom : plan.arenaSize < power 256 plan.pointerWidth.bytes)
    (hminds : (connect m config plan plan.arena).processor.Minds config.sampleRate fields) :
    ∃ arena, (attach m config).value = .ok (connect m config plan arena) := by
  have hwell := LayoutRequest.wellFormed_of_plan hplan
  -- Tables come first: module code may be run as soon as every word is a pointer.
  obtain ⟨_, arena, hrun, -⟩ : (setupCode plan m.kernel
      ((hostedEffect? m config.voices).map PlainModule.kernel) config.sampleRate).Ends plan.arena
        fun _ b => plan.Hosts b :=
    .bind ((MemoryPlan.pointTables_ends hwell hroom plan.size_arena rfl).mono fun _ b hb =>
      hminds.initInstances_ends hwell hb)
  have hvalid : config.validate = .ok () := by rw [EngineConfig.validate, hconfig]
  have hprepare : prepare m config = .ok (plan, arena) := by
    simp only [prepare, bind_eq_ok_iff, Except.mapError_eq_ok_iff]
    refine ⟨(), hvalid, width, hwidth, plan, hplan, (), congrArg Prod.fst hrun, ?_⟩
    exact congrArg (fun x => Except.ok (plan, x)) (congrArg Prod.snd hrun)
  refine ⟨arena, ?_⟩
  rw [value_attach, hprepare]
  rfl

/-- A new processor can go on, and its instances hold their fields. -/
theorem ready_of_attach {fields : Scope → List (ℕ × Single)} (h : (attach m config).value = .ok s)
    (hminds : s.processor.Minds config.sampleRate fields) :
    s.processor.Ready config.sampleRate fields ∧
      ∀ scope, ∀ region ∈ s.processor.router.regions scope,
        region.Stored (fields scope) s.processor.arena := by
  have hcode := fun region hregion => @code?_of_attach _ _ _ h .effect region hregion
  obtain ⟨width, plan, arena, hplan, hrun, rfl⟩ := attach_eq_ok h
  have hwell := LayoutRequest.wellFormed_of_plan hplan
  obtain ⟨_, b, hpoint, hinit⟩ := Access.run_bind_eq_ok_iff.mp hrun
  have hb : plan.Hosts b := MemoryPlan.hosts_of_pointTables hwell plan.size_arena rfl hpoint
  obtain ⟨hhosts, hstored⟩ := hminds.of_run_initInstances hwell hcode hb hinit
  refine ⟨⟨hwell, ?_, hminds, hhosts, fun t ht => VoiceTable.seated_ofPlan? ht⟩, hstored⟩
  exact ParameterTable.indexed_build _ _ _

end DspHost
