import DspHost.Proofs.Engine.Attachment
import DspHost.Proofs.Programs.Organ
import DspHost.Proofs.Programs.Volume

/-!
# The demo organ as it is hosted

The organ is hosted with any number of voices, and with its volume as the effect if there are
voices. Whatever the configuration, the code of both keeps the contract in the plan that is made for
them.

## Main definitions

* `CompiledModule.IsOrgan` — modules that run the code of the organ and of its volume
* `organModule` — the organ and its volume
* `organFields` — the controls that their code minds

## Main results

* `CompiledModule.IsOrgan.minds` — the organ and its volume keep the contract
* `inputFields_organ` — these are all controls that a host may write
-/

namespace DspHost

/-! ### Modules that run the organ -/

/-- The bytes of an instance, and the numbers of its channels. -/
def ModuleMetadata.shape (d : ModuleMetadata) : ℕ × ℕ × ℕ := (d.size, d.inputs, d.outputs)

/-- A module that runs the code of the organ, and the code of the volume as its effect if it has
one. -/
structure CompiledModule.IsOrgan (m : CompiledModule) : Prop where
  kernel : m.kernel = organKernel
  shape : m.metadata.shape = (Organ.size, 0, 1)
  effect : ∀ e, m.effect = some e → e.kernel = organEffectKernel ∧ e.metadata.shape = (4, 1, 1)

/-- The description of the volume. -/
def organVolumeMetadata : ModuleMetadata where
  name := "effect"
  filename := ""
  size := 4
  inputs := 1
  outputs := 1
  annotations := []
  ui := [.group .vertical "effect"
    [.slider .horizontal ⟨"volume", "/effect/volume", 0, .ofQuotient false 4 5, .zero, .one,
      .ofQuotient false 1 100, [[("midi", "ctrl 7")]]⟩]]

/-- The volume of the organ. -/
def organVolume : PlainModule :=
  ⟨effectClassName, ⟨"organ-volume"⟩, organSource, organEffectBinary, organEffectDescription,
    organVolumeMetadata, organEffectKernel, 1⟩

/-- The organ and its volume. -/
def organModule : CompiledModule :=
  ⟨⟨"organ", ⟨"organ"⟩, organSource, organBinary, organDescription, Organ.metadata, organKernel, 0⟩,
    some organVolume⟩

/-- The controls that the code of the organ and of its volume minds. -/
def organFields : Scope → List (ℕ × Single)
  | .voice => Organ.inputs
  | .effect => [(0, .ofQuotient false 4 5)]

variable {m : CompiledModule} {e : PlainModule} {config : EngineConfig} {width : PointerWidth}
  {plan : MemoryPlan} {arena : Arena}

theorem effect_of_hostedEffect? {voices : ℕ} (h : hostedEffect? m voices = some e) :
    m.effect = some e := by
  obtain ⟨h, -⟩ := Option.filter_eq_some_iff.mp h
  exact (Option.ite_none_right_eq_some.mp h).2

theorem hostedEffect?_organ {voices : ℕ} (h : hostedEffect? organModule voices = some e) :
    e = organVolume :=
  (Option.some.inj (effect_of_hostedEffect? h)).symm

theorem isOrgan_organModule : organModule.IsOrgan := by
  refine ⟨rfl, rfl, fun e he => ?_⟩
  obtain rfl := Option.some.inj he
  exact ⟨rfl, rfl⟩

/-- The organ and its volume keep the contract in every plan that is made for them. -/
theorem CompiledModule.IsOrgan.minds (h : m.IsOrgan) (hplan : (layoutFor m.metadata
      ((hostedEffect? m config.voices).map (·.metadata)) config width).plan = .ok plan)
    (rate : ℕ) : (connect m config plan arena).processor.Minds rate organFields := by
  have hwell := LayoutRequest.wellFormed_of_plan hplan
  have houtputs : plan.outputs = 1 :=
    (LayoutRequest.answeredBy_of_plan hplan).outputs.trans (congrArg (·.2.2) h.shape)
  intro scope region hregion k hk
  obtain ⟨d, hd, hsize⟩ := size_of_plan hplan hregion
  cases scope with
  | voice =>
    obtain rfl := Option.some.inj hd
    obtain rfl := Option.some.inj hk
    have hbytes : region.size = Organ.size := hsize.trans (congrArg (·.1) h.shape)
    have hminds := organKernel_minds hwell hregion hbytes.ge (houtputs ▸ Nat.one_pos) rate
    rwa [← h.kernel] at hminds
  | effect =>
    obtain ⟨e, he, rfl⟩ := Option.map_eq_some_iff.mp hk
    obtain ⟨_, he', rfl⟩ := Option.map_eq_some_iff.mp hd
    obtain rfl := Option.some.inj (he.symm.trans he')
    obtain ⟨hkernel, hshape⟩ := h.effect e (effect_of_hostedEffect? he)
    have hbytes : region.size = 4 := hsize.trans (congrArg (·.1) hshape)
    rw [hkernel]
    -- The volume reads what it writes, so every channel that it writes has a source.
    refine volumeKernel_minds hwell hregion hbytes.ge (fun channel hlt => ⟨_, if_pos ?_⟩)
      houtputs.ge _ rate
    exact houtputs ▸ hlt

/-- The controls that a host may write are minded. -/
theorem inputFields_organ (voices : ℕ) (scope : Scope) :
    (hostedTable organModule voices).inputFields scope ⊆ organFields scope := by
  -- The controls of a tree do not depend on the number of voices, so each tree is looked through.
  have hvoice : ∀ b ∈ (visitsOf Organ.metadata.ui).filterMap (Binding.ofVisit? .voice),
      b.isOutput = false → (b.index, b.default) ∈ organFields .voice := by decide
  have heffect : ∀ b ∈ (visitsOf organVolumeMetadata.ui).filterMap (Binding.ofVisit? .effect),
      b.isOutput = false → (b.index, b.default) ∈ organFields .effect := by decide
  intro field hfield
  obtain ⟨b, hb, rfl⟩ := List.mem_map.mp hfield
  obtain ⟨hb, hinput⟩ := List.mem_filter.mp hb
  obtain ⟨d, hd, hvisited⟩ := ParameterTable.visited_of_build hb
  simp only [Bool.and_eq_true, beq_iff_eq, Bool.not_eq_true'] at hinput
  rw [hinput.1] at hd hvisited
  cases scope with
  | voice =>
    obtain rfl := Option.some.inj hd
    exact hvoice b hvisited hinput.2
  | effect =>
    obtain ⟨e, he, rfl⟩ := Option.map_eq_some_iff.mp hd
    obtain rfl := hostedEffect?_organ he
    exact heffect b hvisited hinput.2

/-! ### Descriptions -/

/-- No two controls of the organ or of its volume overlap. -/
theorem fieldsApart_organ {voices : ℕ} {scope : Scope} {d : ModuleMetadata}
    (hd : organModule.describedBy voices scope = some d) : d.FieldsApart := by
  have hvoice : Organ.metadata.FieldsApart := by
    unfold ModuleMetadata.FieldsApart
    decide
  have heffect : organVolumeMetadata.FieldsApart := by
    unfold ModuleMetadata.FieldsApart
    decide
  cases scope with
  | voice =>
    obtain rfl := Option.some.inj hd
    exact hvoice
  | effect =>
    obtain ⟨e, he, rfl⟩ := Option.map_eq_some_iff.mp hd
    obtain rfl := hostedEffect?_organ he
    exact heffect

/-- A configuration with eight voices that is otherwise the default one. -/
def organConfig : EngineConfig := { voices := 8 }

/-- What the planner is asked for depends on the shapes of the descriptions only. -/
theorem layoutFor_congr {d d' : ModuleMetadata} {e e' : Option ModuleMetadata}
    (hd : d.shape = d'.shape) (he : e.map ModuleMetadata.shape = e'.map ModuleMetadata.shape)
    (config : EngineConfig) (width : PointerWidth) :
    layoutFor d e config width = layoutFor d' e' config width := by
  obtain ⟨hsize, hinputs, houtputs⟩ : d.size = d'.size ∧ d.inputs = d'.inputs ∧
      d.outputs = d'.outputs := by simpa [ModuleMetadata.shape] using hd
  have heffect : e.map (·.size) = e'.map (·.size) := by
    have hsizes := congrArg (Option.map Prod.fst) he
    rwa [Option.map_map, Option.map_map] at hsizes
  simp only [layoutFor, hsize, hinputs, houtputs, heffect]

/-- The effect of the organ is hosted when there are voices. -/
theorem CompiledModule.IsOrgan.hostedEffect? (h : m.IsOrgan) (he : m.effect = some e)
    (hvoices : (Polyphony.ofRequested config.voices).isPoly = true) :
    hostedEffect? m config.voices = some e := by
  obtain ⟨-, hshape⟩ := h.effect e he
  have hinputs : e.metadata.inputs = 1 := congrArg (·.2.1) hshape
  have houtputs : e.metadata.outputs = 1 := congrArg (·.2.2) hshape
  have hsame : m.metadata.outputs = 1 := congrArg (·.2.2) h.shape
  simp [DspHost.hostedEffect?, candidateEffect?, hvoices, he, PlainModule.suits, hinputs, houtputs,
    hsame]

/-- The organ can be attached with eight voices. -/
theorem CompiledModule.IsOrgan.attach (h : m.IsOrgan) (he : m.effect = some e) :
    ∃ plan arena, (attach m organConfig).value = .ok (connect m organConfig plan arena) ∧
      (connect m organConfig plan arena).processor.Minds organConfig.sampleRate organFields := by
  obtain ⟨plan, hplan, hroom⟩ : ∃ plan, (layoutFor Organ.metadata (some organVolumeMetadata)
      organConfig .four).plan = .ok plan ∧
        plan.arenaSize < power 256 plan.pointerWidth.bytes := by
    exact ⟨_, rfl, by decide⟩
  have hhosted : DspHost.hostedEffect? m organConfig.voices = some e :=
    h.hostedEffect? he (by decide)
  have hasked : layoutFor m.metadata ((DspHost.hostedEffect? m organConfig.voices).map
      (·.metadata)) organConfig .four =
        layoutFor Organ.metadata (some organVolumeMetadata) organConfig .four := by
    have heffect : (some e.metadata).map ModuleMetadata.shape =
        (some organVolumeMetadata).map ModuleMetadata.shape :=
      congrArg some (h.effect e he).2
    rw [hhosted]
    exact layoutFor_congr h.shape heffect organConfig .four
  rw [← hasked] at hplan
  obtain ⟨arena, hattach⟩ := exists_attach (by decide) rfl hplan hroom (h.minds hplan _)
  exact ⟨plan, arena, hattach, h.minds hplan _⟩

theorem attach_organ : ∃ plan arena,
    (attach organModule organConfig).value = .ok (connect organModule organConfig plan arena) ∧
      (connect organModule organConfig plan arena).processor.Minds organConfig.sampleRate
        organFields :=
  isOrgan_organModule.attach rfl

end DspHost
