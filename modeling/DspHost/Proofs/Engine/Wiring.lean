import DspHost.Proofs.Engine.Safety
import DspHost.Proofs.Memory.Exactness

/-!
# Why a module cannot be attached, and how it is wired if it can

Attaching a module is a chain of steps: the configuration is checked, the arena is planned, the
words of the pointer tables are pointed at their buffers, and the code of every instance is run
once. Each step has its own error, and the steps before it leave few reasons for one. An accepted
configuration is planned unless its arena is too large. A planned arena is wired unless its words
have 32 bits and some buffer begins where 32 bits do not reach; words of 64 bits reach everywhere.
Once everything is wired it stays so as long as the code that sets up instances leaves the tables
alone.

## Main definitions

* `MemoryPlan.OutOfReach` — some buffer begins where words of 32 bits do not reach
* `LaidOut` — the configuration of a module is accepted, and its arena is planned
* `InitEnds` — the code that sets up instances does not fault
* `Processor.SparesTables` — the code that sets up instances leaves the tables alone
* `Reasons` — why a module cannot be attached, and how it is wired if it can

## Main results

* `MemoryPlan.exists_pointTables_iff` — words can be pointed if and only if addresses fit them
* `LayoutRequest.addressable_iff_of_plan` — in a planned arena that is a matter of 32 bits
* `prepare_of_validate` — what becomes of an accepted configuration
* `pointed_of_attach` — a new processor is wired
* `reasons_attach` — every module and every configuration
-/

namespace DspHost

/-! ### Words that are wide enough -/

theorem Arena.loadPointer_lt {a : Arena} {address n : ℕ} (h : a.loadPointer address = .ok n) :
    n < power 256 a.pointerWidth.bytes := by
  unfold Arena.loadPointer at h
  dsimp only at h
  split_ifs at h
  obtain rfl := Except.ok.inj h
  have hlt := wordValue_lt (a.readBytes address a.pointerWidth.bytes)
  rwa [Arena.readBytes_eq_map, List.length_map, List.length_range, ← Arena.readBytes_eq_map] at hlt

namespace MemoryPlan

variable {p : MemoryPlan} {a b : Arena}

theorem channel_lt_of_buffer? {base channel channels : ℕ} {target : SampleBuffer}
    (h : p.buffer? base channel channels = some target) : channel < channels := by
  unfold buffer? at h
  split_ifs at h with hlt
  exact hlt

/-- Words that hold the addresses of all buffers are wide enough for them. -/
theorem Pointed.addressable (h : p.Pointed a) (hwidth : a.pointerWidth = p.pointerWidth) :
    p.Addressable := by
  have hreach {slot : Option ℕ} {buffer : Option SampleBuffer} {target : SampleBuffer}
      (hreaches : a.Reaches slot buffer) (hbuffer : buffer = some target) :
      target.offset < power 256 p.pointerWidth.bytes := by
    obtain ⟨address, other, -, hother, hload⟩ := hreaches
    obtain rfl := Option.some.inj (hbuffer.symm.trans hother)
    exact hwidth ▸ Arena.loadPointer_lt hload
  rintro target ⟨channel, hb | hb | hb⟩
  · exact hreach (h.input channel (channel_lt_of_buffer? hb)) hb
  · exact hreach (h.output channel (channel_lt_of_buffer? hb)) hb
  · obtain ⟨m, hm, hbuffer⟩ := Option.bind_eq_some_iff.mp hb
    exact hreach (h.mixing m hm channel (channel_lt_of_buffer? hbuffer)) hb

/-- Every word can be pointed at its buffer if and only if the addresses of buffers fit words. -/
theorem exists_pointTables_iff (hwell : p.WellFormed) :
    (∃ b, (pointTables p).run p.arena = (.ok (), b)) ↔ p.Addressable := by
  constructor
  · rintro ⟨b, hrun⟩
    have hhosts := hosts_of_pointTables hwell p.size_arena rfl hrun
    exact (hhosts.pointed hwell).addressable hhosts.width_eq
  · intro hfits
    obtain ⟨_, b, hrun, -⟩ := hfits.pointTables_ends hwell p.size_arena rfl
    exact ⟨b, hrun⟩

/-- Words have 32 bits, and some buffer begins where these do not reach. -/
def OutOfReach (p : MemoryPlan) : Prop :=
  p.pointerWidth = .four ∧ ∃ b, p.ChannelBuffer b ∧ 2 ^ 32 ≤ b.offset

end MemoryPlan

namespace LayoutRequest

variable {r : LayoutRequest} {p : MemoryPlan}

/-- Words of 64 bits reach everywhere in a planned arena, and those of 32 bits as far as they go. -/
theorem addressable_iff_of_plan (h : r.plan = .ok p) : p.Addressable ↔ ¬p.OutOfReach := by
  have hwell := wellFormed_of_plan h
  have hsize : p.arenaSize < power 2 64 := (computedInWords_of_plan h).arenaSize
  cases hwidth : p.pointerWidth with
  | four =>
    simp only [MemoryPlan.Addressable, MemoryPlan.OutOfReach, hwidth, true_and, not_exists,
      not_and, not_le]
    rfl
  | eight =>
    constructor
    · rintro - ⟨hfour, -⟩
      rw [hwidth] at hfour
      cases hfour
    · intro _ b hbuffer
      have hstop := hbuffer.stop_le_arenaSize hwell
      rw [hwidth]
      exact (Nat.le_of_add_right_le hstop).trans_lt hsize

end LayoutRequest

/-! ### The steps of attaching -/

variable {m : CompiledModule} {config : EngineConfig} {width : PointerWidth} {plan : MemoryPlan}
  {arena : Arena} {s : Session}

/-- What the planner is asked for when a module is attached. -/
def requestFor (m : CompiledModule) (config : EngineConfig) (width : PointerWidth) :
    LayoutRequest :=
  layoutFor m.metadata ((hostedEffect? m config.voices).map (·.metadata)) config width

/-- The code that fills the arena of a module. -/
def fillingCode (m : CompiledModule) (config : EngineConfig) (plan : MemoryPlan) : Access Unit :=
  setupCode plan m.kernel ((hostedEffect? m config.voices).map (·.kernel)) config.sampleRate

theorem EngineConfig.check?_of_validate (h : config.validate = .ok ()) : config.check? = none := by
  rw [validate] at h
  cases hcheck : config.check? with
  | none => rfl
  | some flaw =>
    rw [hcheck] at h
    cases h

/-- An accepted configuration asks for a width of pointers that there is. -/
theorem EngineConfig.exists_width (h : config.validate = .ok ()) :
    ∃ width, config.width = .ok width ∧ config.pointerWidth = width.bytes := by
  have hbytes := ((check?_eq_none_iff config).mp (check?_of_validate h)).2.2.2.2.2
  obtain ⟨width, hwidth⟩ : ∃ width : PointerWidth, config.pointerWidth = width.bytes := by
    rcases hbytes with hfour | height
    · exact ⟨.four, hfour⟩
    · exact ⟨.eight, height⟩
  refine ⟨width, ?_, hwidth⟩
  rw [EngineConfig.width, PointerWidth.ofBytes?_eq_some_iff.mpr hwidth]

/-- A configuration that is not accepted is all that is reported. -/
theorem prepare_of_not_validate {flaw : ConfigFlaw} (h : config.validate = .error flaw) :
    prepare m config = .error (.config flaw) := by
  rw [prepare, h]
  rfl

/-- What becomes of an accepted configuration. -/
theorem prepare_of_validate (h : config.validate = .ok ()) (hwidth : config.width = .ok width) :
    prepare m config =
      match (requestFor m config width).plan with
      | .error error => .error (.layout error)
      | .ok plan =>
        match (fillingCode m config plan).run plan.arena with
        | (.error fault, _) => .error (.init fault)
        | (.ok (), arena) => .ok (plan, arena) := by
  rw [prepare, h, hwidth]
  change ((requestFor m config width).plan.mapError SetupError.layout >>= fun plan =>
    ((fillingCode m config plan).run plan.arena).1.mapError SetupError.init >>= fun _ =>
      pure (plan, ((fillingCode m config plan).run plan.arena).2)) = _
  cases (requestFor m config width).plan with
  | error error => rfl
  | ok plan =>
    change (((fillingCode m config plan).run plan.arena).1.mapError SetupError.init >>= fun _ =>
      pure (plan, ((fillingCode m config plan).run plan.arena).2)) =
        match (fillingCode m config plan).run plan.arena with
        | (.error fault, _) => .error (.init fault)
        | (.ok (), arena) => .ok (plan, arena)
    rcases (fillingCode m config plan).run plan.arena with ⟨fault | ⟨⟩, arena⟩ <;> rfl

/-- The configuration of a module is accepted, and its arena is planned. -/
structure LaidOut (m : CompiledModule) (config : EngineConfig) (plan : MemoryPlan) : Prop where
  accepted : config.validate = .ok ()
  planned : ∃ width, config.width = .ok width ∧ (requestFor m config width).plan = .ok plan

/-- Once its tables are wired, the code that sets up the instances of a module does not fault. -/
def InitEnds (m : CompiledModule) (config : EngineConfig) (plan : MemoryPlan) : Prop :=
  ∀ a, (pointTables plan).run plan.arena = (.ok (), a) →
    ∃ b, (initInstances plan m.kernel ((hostedEffect? m config.voices).map (·.kernel))
      config.sampleRate).run a = (.ok (), b)

/-- A module whose arena is planned is attached if its arena can be filled. -/
theorem LaidOut.value_attach (h : LaidOut m config plan) :
    (attach m config).value =
      match (fillingCode m config plan).run plan.arena with
      | (.error fault, _) => .error (.init fault)
      | (.ok (), arena) => .ok (connect m config plan arena) := by
  obtain ⟨width, hwidth, hplan⟩ := h.planned
  rw [DspHost.value_attach, prepare_of_validate h.accepted hwidth, hplan]
  dsimp only
  rcases (fillingCode m config plan).run plan.arena with ⟨fault | ⟨⟩, arena⟩ <;> rfl

/-- The arena can be filled if and only if its tables can be wired. -/
theorem InitEnds.exists_run_iff (h : InitEnds m config plan) :
    (∃ arena, (fillingCode m config plan).run plan.arena = (.ok (), arena)) ↔
      ∃ a, (pointTables plan).run plan.arena = (.ok (), a) := by
  simp only [fillingCode, setupCode, Access.run_bind_eq_ok_iff]
  constructor
  · rintro ⟨b, _, a, hpoint, -⟩
    exact ⟨a, hpoint⟩
  · rintro ⟨a, hpoint⟩
    obtain ⟨b, hinit⟩ := h a hpoint
    exact ⟨b, (), a, hpoint, hinit⟩

/-- A module whose arena is planned is attached if and only if no buffer is out of reach. -/
theorem LaidOut.exists_attach_iff (h : LaidOut m config plan) (hinit : InitEnds m config plan) :
    (∃ arena, (attach m config).value = .ok (connect m config plan arena)) ↔
      ¬plan.OutOfReach := by
  obtain ⟨width, -, hplan⟩ := h.planned
  rw [← LayoutRequest.addressable_iff_of_plan hplan,
    ← MemoryPlan.exists_pointTables_iff (LayoutRequest.wellFormed_of_plan hplan),
    ← hinit.exists_run_iff, h.value_attach]
  constructor
  · rintro ⟨arena, hattach⟩
    rcases hrun : (fillingCode m config plan).run plan.arena with ⟨fault | ⟨⟩, final⟩
    · rw [hrun] at hattach
      cases hattach
    · exact ⟨final, rfl⟩
  · rintro ⟨arena, hrun⟩
    exact ⟨arena, by rw [hrun]⟩

/-- Filling its arena is all that can go wrong with a module whose arena is planned. -/
theorem LaidOut.exists_fault_iff (h : LaidOut m config plan) :
    (∃ fault, (attach m config).value = .error (.init fault)) ↔
      ¬∃ arena, (attach m config).value = .ok (connect m config plan arena) := by
  rw [h.value_attach]
  rcases (fillingCode m config plan).run plan.arena with ⟨fault | ⟨⟩, arena⟩ <;> simp

/-! ### Wired processors -/

/-- In a wired arena, the code that sets up instances leaves the tables alone. -/
def Processor.SparesTables (p : Processor) (rate : ℕ) : Prop :=
  ∀ scope, ∀ region ∈ p.router.regions scope, ∀ k, p.code? scope = some k → ∀ a b,
    p.plan.Hosts a → (k.init region.offset rate).run a = (.ok (), b) →
      Arena.ChangedWithin (p.plan.area RegionKind.tables)ᶜ a b

/-- Instances are set up one after the other, and the tables stay wired. -/
theorem Processor.SparesTables.hosts {p : Processor} {rate : ℕ} {a b : Arena}
    (h : p.SparesTables rate) (hwell : p.plan.WellFormed) (ha : p.plan.Hosts a)
    (hrun : (initInstances p.plan p.kernel p.effect rate).run a = (.ok (), b)) :
    p.plan.Hosts b := by
  have hkeep {scope : Scope} {region : InstanceRegion} {k : Kernel} {a b : Arena}
      (hregion : region ∈ p.router.regions scope) (hk : p.code? scope = some k)
      (ha : p.plan.Hosts a) (hinit : (k.init region.offset rate).run a = (.ok (), b)) :
      p.plan.Hosts b :=
    ha.of_changedWithin hwell (h scope region hregion k hk a b ha hinit) disjoint_compl_right
  obtain ⟨_, c, hvoices, heffect⟩ := Access.run_bind_eq_ok_iff.mp hrun
  obtain ⟨hc, -, -⟩ := Access.forEach_establishes p.plan.Hosts (fun _ _ => True)
    (fun region hregion a b ha hinit =>
      ⟨@hkeep .voice region p.kernel a b hregion rfl ha hinit, trivial, fun _ => id⟩)
    ha hvoices
  split at heffect
  · next k region hk hregion =>
    exact @hkeep .effect region k c b (Router.mem_regions_effect.mpr hregion) hk hc heffect
  · obtain rfl := (Prod.mk.inj heffect).2
    exact hc

/-- In a new processor every word of the tables holds the address of the buffer of its channel. -/
theorem pointed_of_attach (h : (attach m config).value = .ok s)
    (hspares : s.processor.SparesTables config.sampleRate) :
    s.processor.plan.Pointed s.processor.arena := by
  obtain ⟨width, plan, arena, hplan, hrun, rfl⟩ := attach_eq_ok h
  have hwell := LayoutRequest.wellFormed_of_plan hplan
  obtain ⟨_, a, hpoint, hinit⟩ := Access.run_bind_eq_ok_iff.mp hrun
  have hhosts := MemoryPlan.hosts_of_pointTables hwell plan.size_arena rfl hpoint
  exact (hspares.hosts hwell hhosts hinit).pointed hwell

/-! ### Every module and every configuration -/

/-- What is wrong with a configuration is reported exactly if it is not accepted. -/
theorem value_attach_eq_config_iff {flaw : ConfigFlaw} :
    (attach m config).value = .error (.config flaw) ↔ config.validate = .error flaw := by
  rw [value_attach]
  cases hvalid : config.validate with
  | error flaw' =>
    rw [prepare_of_not_validate hvalid]
    simp [Except.map]
  | ok =>
    obtain ⟨width, hwidth, -⟩ := EngineConfig.exists_width hvalid
    rw [prepare_of_validate hvalid hwidth]
    cases (requestFor m config width).plan with
    | error error => simp [Except.map]
    | ok plan =>
      dsimp only
      rcases (fillingCode m config plan).run plan.arena with ⟨fault | ⟨⟩, arena⟩ <;>
        simp [Except.map]

/-- What is asked of the planner with an accepted configuration is refused for its size only. -/
theorem eq_tooLarge_of_plan (h : config.validate = .ok ()) {error : LayoutError}
    (hplan : (requestFor m config width).plan = .error error) : error = .tooLarge := by
  obtain ⟨-, ⟨hblock, -⟩, -, hpage, -⟩ :=
    (EngineConfig.check?_eq_none_iff config).mp (EngineConfig.check?_of_validate h)
  have hvalid : (requestFor m config width).validate = .ok () :=
    LayoutRequest.validate_eq_ok_iff.mpr ⟨hblock.ne', hpage.ne', rfl⟩
  rw [LayoutRequest.plan_of_validate hvalid] at hplan
  split_ifs at hplan
  exact (Except.error.inj hplan).symm

/-- The planner refuses a module with an accepted configuration exactly if there is no plan. -/
theorem value_attach_eq_layout_iff (h : config.validate = .ok ()) {error : LayoutError} :
    (attach m config).value = .error (.layout error) ↔
      error = .tooLarge ∧ ¬∃ plan, LaidOut m config plan := by
  obtain ⟨width, hwidth, -⟩ := EngineConfig.exists_width h
  cases hplan : (requestFor m config width).plan with
  | error reason =>
    have hnone : ¬∃ plan, LaidOut m config plan := by
      rintro ⟨plan, -, width', hwidth', hplan'⟩
      obtain rfl := Except.ok.inj (hwidth.symm.trans hwidth')
      rw [hplan] at hplan'
      cases hplan'
    have hvalue : (attach m config).value = .error (.layout reason) := by
      rw [value_attach, prepare_of_validate h hwidth, hplan]
      rfl
    rw [hvalue, ← eq_tooLarge_of_plan h hplan]
    simp [hnone, eq_comm]
  | ok plan =>
    have hlaid : LaidOut m config plan := ⟨h, width, hwidth, hplan⟩
    rw [hlaid.value_attach]
    constructor
    · intro hattach
      rcases hrun : (fillingCode m config plan).run plan.arena with ⟨fault | ⟨⟩, arena⟩
      · rw [hrun] at hattach
        cases hattach
      · rw [hrun] at hattach
        cases hattach
    · rintro ⟨-, hnone⟩
      exact absurd ⟨plan, hlaid⟩ hnone

/-- Words have the width that the configuration says. -/
theorem LaidOut.outOfReach_iff (h : LaidOut m config plan) :
    plan.OutOfReach ↔ config.pointerWidth = 4 ∧ ∃ b, plan.ChannelBuffer b ∧ 2 ^ 32 ≤ b.offset := by
  obtain ⟨width, hwidth, hplan⟩ := h.planned
  obtain ⟨width', hwidth', hbytes⟩ := EngineConfig.exists_width h.accepted
  obtain rfl := Except.ok.inj (hwidth.symm.trans hwidth')
  have hplanned : plan.pointerWidth = width := (LayoutRequest.answeredBy_of_plan hplan).pointerWidth
  rw [MemoryPlan.OutOfReach, hplanned, hbytes]
  refine and_congr_left fun _ => ?_
  cases width <;> simp [PointerWidth.bytes]

/-- Why a module cannot be attached, and how it is wired if it can. -/
structure Reasons (m : CompiledModule) (config : EngineConfig) : Prop where
  /-- What is wrong with a configuration is reported exactly if it is not accepted. -/
  refused : ∀ flaw, (attach m config).value = .error (.config flaw) ↔
    config.validate = .error flaw
  /-- With an accepted configuration, the planner refuses an arena that is too large and nothing
  else. -/
  unplanned : config.validate = .ok () → ∀ error,
    (attach m config).value = .error (.layout error) ↔
      error = .tooLarge ∧ ¬∃ plan, LaidOut m config plan
  /-- A planned arena cannot be filled exactly if words have 32 bits and some buffer begins where
  these do not reach, unless the module's own code faults. -/
  unfilled : ∀ plan, LaidOut m config plan → InitEnds m config plan →
    ((∃ fault, (attach m config).value = .error (.init fault)) ↔
      config.pointerWidth = 4 ∧ ∃ b, plan.ChannelBuffer b ∧ 2 ^ 32 ≤ b.offset)
  /-- Otherwise the module is attached. -/
  attached : ∀ plan, LaidOut m config plan → InitEnds m config plan →
    ((∃ arena, (attach m config).value = .ok (connect m config plan arena)) ↔
      ¬(config.pointerWidth = 4 ∧ ∃ b, plan.ChannelBuffer b ∧ 2 ^ 32 ≤ b.offset))
  /-- An attached module is wired if its own code leaves the tables alone. -/
  wired : ∀ s, (attach m config).value = .ok s → s.processor.SparesTables config.sampleRate →
    s.processor.plan.Pointed s.processor.arena

/-- Every module and every configuration. -/
theorem reasons_attach (m : CompiledModule) (config : EngineConfig) : Reasons m config where
  refused _ := value_attach_eq_config_iff
  unplanned h _ := value_attach_eq_layout_iff h
  unfilled plan h hinit := by
    rw [h.exists_fault_iff, h.exists_attach_iff hinit, not_not, h.outOfReach_iff]
  attached plan h hinit := by
    rw [h.exists_attach_iff hinit, h.outOfReach_iff]
  wired s h hspares := pointed_of_attach h hspares

/-! ### A wide module -/

/-- Code that does nothing. -/
def silentKernel : Kernel := ⟨fun _ _ => pure (), fun _ => pure (), fun _ _ _ _ => pure ()⟩

/-- A module with so many outputs that their largest blocks take four gigabytes. -/
def wideModule : CompiledModule :=
  ⟨⟨"wide", ⟨"wide"⟩, "", [], "", ⟨"wide", "", 0, 0, 524288, [], []⟩, silentKernel, 0⟩, none⟩

/-- A configuration with the largest blocks and a width of pointers. -/
def wideConfig (bytes : ℕ) : EngineConfig := { blockLength := largestBlock, pointerWidth := bytes }

theorem hostedEffect?_wideModule (voices : ℕ) : hostedEffect? wideModule voices = none := by
  have hcandidate : candidateEffect? wideModule voices = none := by
    unfold candidateEffect?
    split_ifs <;> rfl
  rw [hostedEffect?, hcandidate, Option.filter_none]

theorem initEnds_wideModule (config : EngineConfig) (plan : MemoryPlan) :
    InitEnds wideModule config plan := by
  intro a _
  have hends : (initInstances plan silentKernel none config.sampleRate).Ends a fun _ _ => True :=
    .bind ((Access.Ends.forEach (fun _ _ _ _ => .pure trivial) trivial).mono
      fun _ _ _ => .pure trivial)
  obtain ⟨_, b, hrun, -⟩ := hends
  rw [hostedEffect?_wideModule]
  exact ⟨b, hrun⟩

theorem sparesTables_wideModule (config : EngineConfig) (plan : MemoryPlan) (arena : Arena)
    (rate : ℕ) : (connect wideModule config plan arena).processor.SparesTables rate := by
  intro scope region _ k hk a b _ hrun
  cases scope with
  | voice =>
    obtain rfl := Option.some.inj hk
    obtain rfl := (Prod.mk.inj hrun).2
    exact .refl _ a
  | effect =>
    change (hostedEffect? wideModule config.voices).map (·.kernel) = some k at hk
    rw [hostedEffect?_wideModule] at hk
    cases hk

/-- The last output of the wide module begins where words of 32 bits do not reach, and those of 64
bits do. -/
theorem reasons_attach_wideModule :
    (∃ fault, (attach wideModule (wideConfig 4)).value = .error (.init fault)) ∧
      ∃ s, (attach wideModule (wideConfig 8)).value = .ok s ∧
        s.processor.plan.outputs = 524288 ∧ s.processor.plan.Pointed s.processor.arena := by
  constructor
  · obtain ⟨plan, hlaid, hfar⟩ : ∃ plan, LaidOut wideModule (wideConfig 4) plan ∧
        ∃ b, plan.ChannelBuffer b ∧ 2 ^ 32 ≤ b.offset :=
      ⟨_, ⟨rfl, .four, rfl, rfl⟩, _, ⟨524287, .inr (.inl rfl)⟩, by decide⟩
    exact ((reasons_attach _ _).unfilled plan hlaid (initEnds_wideModule _ plan)).mpr ⟨rfl, hfar⟩
  · obtain ⟨plan, hlaid, hcount⟩ : ∃ plan, LaidOut wideModule (wideConfig 8) plan ∧
        plan.outputs = 524288 := ⟨_, ⟨rfl, .eight, rfl, rfl⟩, rfl⟩
    have hnear : ¬((wideConfig 8).pointerWidth = 4 ∧
        ∃ b, plan.ChannelBuffer b ∧ 2 ^ 32 ≤ b.offset) := by
      rintro ⟨hfour, -⟩
      cases hfour
    have hreasons := reasons_attach wideModule (wideConfig 8)
    obtain ⟨arena, hattach⟩ :=
      (hreasons.attached plan hlaid (initEnds_wideModule _ plan)).mpr hnear
    refine ⟨_, hattach, hcount, hreasons.wired _ hattach ?_⟩
    exact sparesTables_wideModule _ plan arena _

end DspHost
