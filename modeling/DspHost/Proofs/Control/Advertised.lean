import DspHost.Proofs.Control.Index
import DspHost.Proofs.Metadata.Verdict
import DspHost.Proofs.Programs.BuiltOrgan
import DspHost.Proofs.Programs.HostedOrgan

/-!
# Controls that are set as they are advertised

What a host may automate is listed by going through the bindings, and what it sets is found by path.
The two agree as long as a path leads back to the binding that it was listed for. Within one tree
paths are distinct, but a control of the effect takes the path of a control of the instrument away,
and the list does not ask who has it now. So everything that is listed can be set as it says if and
only if the effect takes no path of a listed control.

## Main definitions

* `Binding.descriptor` — what a listed control says
* `ParameterTable.Shadowed` — a control whose path the effect has taken
* `ParameterTable.Leads` — a path leads to a control that is as it was listed
* `ParameterTable.SetByPath` — what setting a control by its path does at both ends
* `ParameterTable.Advertises` — whatever is listed is set as it says

## Main results

* `ParameterTable.path_ne_of_build` — the paths of one tree are distinct
* `ParameterTable.lookup?_of_not_shadowed` — a path that was not taken leads back
* `ParameterTable.setByPath_of_lookup?` — a path that leads to a control sets it
* `ParameterTable.advertises_iff_of_build` — what is listed is set as it says unless paths are taken
-/

namespace DspHost

/-- What a control says about itself when it is listed. -/
def Binding.descriptor (b : Binding) : ParameterDescriptor := ⟨b.path, b.min, b.max, b.default⟩

namespace ParameterTable

variable {t : ParameterTable} {b c : Binding} {id : BindingId}

/-- A control of the instrument whose path the effect has taken. -/
def Shadowed (t : ParameterTable) (b : Binding) : Prop :=
  b.scope = .voice ∧ ∃ c ∈ t.bindings, c.scope = .effect ∧ c.path = b.path

/-- The path of a descriptor leads to a control that a host may write, and the control is as the
descriptor says. -/
def Leads (t : ParameterTable) (d : ParameterDescriptor) (id : BindingId) : Prop :=
  t.lookup? d.path = some id ∧ t.isAutomatable id = true ∧
    ∃ b, t.get? id = some b ∧ d = b.descriptor

/-- What setting a control by its path does. -/
structure SetByPath (t : ParameterTable) (path : String) (id : BindingId) : Prop where
  /-- A handle never refuses it. -/
  accepted : ∀ h : Handle, h.table = t → ∀ value,
    (h.send (.parameterSet path value)).value.1 = .ok ()
  /-- A handle that is not torn down and has room in its queue keeps the value and queues the
  command. -/
  queued : ∀ h : Handle, h.table = t → h.destroyed = false →
    h.commands.items.length < h.commands.capacity → ∀ value,
      (h.send (.parameterSet path value)).value.2 = { h with
        values := h.values.set id value
        log := h.log.append (.parameterSet path value)
        commands := ⟨h.commands.capacity, h.commands.items ++ [.setParameter id value]⟩ }
  /-- Automation by path writes the control. -/
  automated : ∀ plan a value, (Router.mk plan t).setPath path value a =
    (true, (Router.mk plan t).set id value a)

/-- Whatever is listed is set as it says: paths are listed once, and each leads to a control that is
as it was listed and that is set by the path. -/
structure Advertises (t : ParameterTable) : Prop where
  distinct : (t.descriptors.map (·.path)).Nodup
  settable : ∀ d ∈ t.descriptors, ∃ id, t.Leads d id ∧ t.SetByPath d.path id

theorem isAutomatable_iff_exists :
    t.isAutomatable id = true ↔ ∃ b, t.get? id = some b ∧ t.accepts b = true := by
  rw [isAutomatable, Option.any_eq_true]

/-- A control that a host may write is listed, and nothing else is. -/
theorem mem_descriptors {d : ParameterDescriptor} :
    d ∈ t.descriptors ↔ ∃ b ∈ t.bindings, t.accepts b = true ∧ d = b.descriptor := by
  simp only [descriptors, List.mem_map, List.mem_filter, and_assoc]
  exact exists_congr fun b => and_congr_right fun _ => and_congr_right fun _ => eq_comm

/-! ### Setting a control by its path -/

/-- The command for a path that leads to a control which a host may write. -/
theorem setCommand_of_lookup? {path : String} (hlookup : t.lookup? path = some id)
    (hauto : t.isAutomatable id = true) (value : Single) :
    Event.setCommand t path value = .ok (.setParameter id value) := by
  obtain ⟨b, hb, haccepts⟩ := isAutomatable_iff_exists.mp hauto
  obtain ⟨hinput, hfree⟩ : b.isOutput = false ∧ t.ownedByVoices b = false := by
    simpa [accepts] using haccepts
  simp [Event.setCommand, hlookup, isVoiceManaged, hb, hinput, hfree]

/-- A path that leads to a control which a host may write sets this control. -/
theorem setByPath_of_lookup? {path : String} (hlookup : t.lookup? path = some id)
    (hauto : t.isAutomatable id = true) : t.SetByPath path id where
  accepted := by
    rintro h rfl value
    have hcommand : (Event.parameterSet path value).command h.table = _ :=
      setCommand_of_lookup? hlookup hauto value
    rw [Handle.send]
    split_ifs
    · rfl
    · rfl
    · rw [hcommand]
      dsimp only
      -- A full queue drops the command and refuses nothing.
      cases h.deliver? (.parameterSet path value) (.setParameter id value) <;> rfl
  queued := by
    rintro h rfl hlive hroom value
    have hadmitted : h.admitted? (.parameterSet path value) = some (.setParameter id value) := by
      rw [Handle.admitted?_eq_some_iff]
      refine ⟨hlive, rfl, ?_, setCommand_of_lookup? hlookup hauto value⟩
      simpa [Queue.isFull] using hroom
    rw [Handle.send_of_admitted hadmitted]
    rfl
  automated plan a value := by
    have hpath : (Router.mk plan t).automatable? path = some id := by
      rw [Router.automatable?, hlookup, Option.filter_some, if_pos hauto]
    rw [Router.setPath, hpath]

/-! ### Paths of one tree and of the other -/

section Build

variable {voice : ModuleMetadata} {effect : Option ModuleMetadata} {polyphonic : Bool}

/-- The paths of the bindings of a tree are those that the check has met. -/
theorem nodup_paths_of_sound {d : ModuleMetadata} (hsound : d.Sound) (scope : Scope) :
    (((visitsOf d.ui).filterMap (Binding.ofVisit? scope)).map (·.path)).Nodup := by
  have hcheck := ModuleMetadata.check?_eq_none_iff.mpr hsound
  obtain ⟨-, -, hnodup⟩ := (firstOffence?_eq_none_iff _ _ _).mp hcheck
  rwa [← map_controls scope d.ui, List.map_map] at hnodup

/-- The paths of one tree are distinct. -/
theorem path_ne_of_build
    (hsound : ∀ scope d, describedBy voice effect scope = some d → d.Sound) (polyphonic : Bool) :
    (build voice effect polyphonic).bindings.Pairwise fun b c =>
      b.scope = c.scope → b.path ≠ c.path := by
  apply pairwise_build
  intro scope d hd
  exact List.pairwise_map.mp (nodup_paths_of_sound (hsound scope d hd) scope)

/-- Two bindings of one tree that have the same path are the same. -/
theorem eq_of_path_eq (hsound : ∀ scope d, describedBy voice effect scope = some d → d.Sound)
    {id' : BindingId} (hb : (build voice effect polyphonic).get? id = some b)
    (hc : (build voice effect polyphonic).get? id' = some c) (hscope : b.scope = c.scope)
    (hpath : b.path = c.path) : id = id' := by
  have hpaths := List.pairwise_iff_getElem.mp (path_ne_of_build hsound polyphonic)
  obtain ⟨hlt, rfl⟩ := List.getElem?_eq_some_iff.mp hb
  obtain ⟨hlt', rfl⟩ := List.getElem?_eq_some_iff.mp hc
  rcases lt_trichotomy id id' with hless | rfl | hgreater
  · exact absurd hpath (hpaths id id' hlt hlt' hless hscope)
  · rfl
  · exact absurd hpath.symm (hpaths id' id hlt' hlt hgreater hscope.symm)

/-- A path that the effect has not taken leads to the control that has it. -/
theorem lookup?_of_not_shadowed
    (hsound : ∀ scope d, describedBy voice effect scope = some d → d.Sound)
    (hb : (build voice effect polyphonic).get? id = some b)
    (hfree : ¬(build voice effect polyphonic).Shadowed b) :
    (build voice effect polyphonic).lookup? b.path = some id := by
  have hmem := List.mem_of_getElem? hb
  have hfinds := finds_build voice effect polyphonic b.path
  obtain ⟨id', c, hlookup, hc, hscope⟩ : ∃ id' c,
      (build voice effect polyphonic).lookup? b.path = some id' ∧
        (build voice effect polyphonic).get? id' = some c ∧ c.scope = b.scope := by
    cases hscope : b.scope with
    | effect => exact hfinds.shadows hmem hscope
    | voice =>
      cases hlookup : (build voice effect polyphonic).lookup? b.path with
      | none => exact absurd rfl (hfinds.missing hlookup b hmem)
      | some id' =>
        obtain ⟨⟨c, hc, hpath⟩, -⟩ := hfinds.found id' hlookup
        refine ⟨id', c, rfl, hc, ?_⟩
        cases hother : c.scope with
        | voice => rfl
        | effect => exact absurd ⟨hscope, c, List.mem_of_getElem? hc, hother, hpath⟩ hfree
  obtain ⟨⟨c', hc', hpath⟩, -⟩ := hfinds.found id' hlookup
  obtain rfl := Option.some.inj (hc.symm.trans hc')
  rw [hlookup, eq_of_path_eq hsound hb hc hscope.symm hpath.symm]

/-! ### Everything that is listed -/

/-- A listed control whose path was not taken is set as it says. -/
theorem leads_of_not_shadowed
    (hsound : ∀ scope d, describedBy voice effect scope = some d → d.Sound)
    (hb : (build voice effect polyphonic).get? id = some b)
    (haccepts : (build voice effect polyphonic).accepts b = true)
    (hfree : ¬(build voice effect polyphonic).Shadowed b) :
    (build voice effect polyphonic).Leads b.descriptor id ∧
      (build voice effect polyphonic).SetByPath b.path id := by
  have hlookup := lookup?_of_not_shadowed hsound hb hfree
  have hauto := isAutomatable_iff_exists.mpr ⟨b, hb, haccepts⟩
  exact ⟨⟨hlookup, hauto, b, hb, rfl⟩, setByPath_of_lookup? hlookup hauto⟩

/-- If everything that is listed is set as it says, then no path of it was taken. -/
theorem Advertises.not_shadowed (h : (build voice effect polyphonic).Advertises)
    (hb : b ∈ (build voice effect polyphonic).bindings)
    (haccepts : (build voice effect polyphonic).accepts b = true) :
    ¬(build voice effect polyphonic).Shadowed b := by
  rintro ⟨hvoice, c, hc, hscope, hpath⟩
  obtain ⟨id, ⟨hlookup, hauto, -⟩, -⟩ :=
    h.settable b.descriptor (mem_descriptors.mpr ⟨b, hb, haccepts, rfl⟩)
  -- The path leads to a control of the effect, which is then listed under it as well.
  obtain ⟨id', c', hlookup', hc', hscope'⟩ :=
    (finds_build voice effect polyphonic c.path).shadows hc hscope
  rw [hpath] at hlookup'
  obtain rfl := Option.some.inj (hlookup.symm.trans hlookup')
  obtain ⟨c'', hc'', haccepts'⟩ := isAutomatable_iff_exists.mp hauto
  obtain rfl := Option.some.inj (hc'.symm.trans hc'')
  obtain ⟨⟨c'', hc'', hpath'⟩, -⟩ := (finds_build voice effect polyphonic b.path).found id hlookup
  obtain rfl := Option.some.inj (hc'.symm.trans hc'')
  have hdistinct := h.distinct
  rw [descriptors, List.map_map] at hdistinct
  have hsame : b = c' := List.inj_on_of_nodup_map hdistinct (List.mem_filter.mpr ⟨hb, haccepts⟩)
    (List.mem_filter.mpr ⟨List.mem_of_getElem? hc', haccepts'⟩) hpath'.symm
  rw [hsame, hscope'] at hvoice
  cases hvoice

/-- If no path of a listed control was taken, then paths are listed once. -/
theorem nodup_descriptors
    (hsound : ∀ scope d, describedBy voice effect scope = some d → d.Sound)
    (hfree : ∀ b ∈ (build voice effect polyphonic).bindings,
      (build voice effect polyphonic).accepts b = true →
        ¬(build voice effect polyphonic).Shadowed b) :
    ((build voice effect polyphonic).descriptors.map (·.path)).Nodup := by
  rw [descriptors, List.map_map, List.Nodup, List.pairwise_map]
  refine ((path_ne_of_build hsound polyphonic).filter _).imp_of_mem fun {b c} hb hc hne hpath => ?_
  obtain ⟨hb, haccepts⟩ := List.mem_filter.mp hb
  obtain ⟨hc, haccepts'⟩ := List.mem_filter.mp hc
  cases hscope : b.scope <;> cases hscope' : c.scope
  · exact hne (hscope.trans hscope'.symm) hpath
  · exact hfree b hb haccepts ⟨hscope, c, hc, hscope', hpath.symm⟩
  · exact hfree c hc haccepts' ⟨hscope', b, hb, hscope, hpath⟩
  · exact hne (hscope.trans hscope'.symm) hpath

/-- In every table of sound descriptions, whatever is listed is set as it says if and only if the
effect has taken no path of a listed control; and a listed control whose path was not taken is set
as it says in any case. -/
theorem advertises_iff_of_build (voice : ModuleMetadata) (effect : Option ModuleMetadata)
    (polyphonic : Bool)
    (hsound : ∀ scope d, describedBy voice effect scope = some d → d.Sound) :
    ((build voice effect polyphonic).Advertises ↔
      ∀ b ∈ (build voice effect polyphonic).bindings,
        (build voice effect polyphonic).accepts b = true →
          ¬(build voice effect polyphonic).Shadowed b) ∧
      ∀ id b, (build voice effect polyphonic).get? id = some b →
        (build voice effect polyphonic).accepts b = true →
          ¬(build voice effect polyphonic).Shadowed b →
            (build voice effect polyphonic).Leads b.descriptor id ∧
              (build voice effect polyphonic).SetByPath b.path id := by
  refine ⟨⟨fun h b hb haccepts => h.not_shadowed hb haccepts, fun hfree => ?_⟩, ?_⟩
  · refine ⟨nodup_descriptors hsound hfree, fun d hd => ?_⟩
    obtain ⟨b, hb, haccepts, rfl⟩ := mem_descriptors.mp hd
    obtain ⟨id, hget⟩ := List.mem_iff_getElem?.mp hb
    exact ⟨id, leads_of_not_shadowed hsound hget haccepts (hfree b hb haccepts)⟩
  · intro id b hb haccepts hfree
    exact leads_of_not_shadowed hsound hb haccepts hfree

end Build

theorem sound_organ (scope : Scope) (d : ModuleMetadata)
    (hd : describedBy Organ.metadata (some organVolumeMetadata) scope = some d) : d.Sound := by
  rw [← ModuleMetadata.check?_eq_none_iff]
  cases scope with
  | voice =>
    obtain rfl := Option.some.inj hd
    decide +kernel
  | effect =>
    obtain rfl := Option.some.inj hd
    decide +kernel

/-- The volume takes no path of the organ. -/
theorem advertises_organ :
    (∀ scope d, describedBy Organ.metadata (some organVolumeMetadata) scope = some d → d.Sound) ∧
      (build Organ.metadata (some organVolumeMetadata) true).Advertises ∧
        (build Organ.metadata (some organVolumeMetadata) true).descriptors.map (·.path) =
          ["/organ/bright", "/organ/bend", "/effect/volume"] := by
  obtain ⟨hiff, -⟩ := advertises_iff_of_build Organ.metadata (some organVolumeMetadata) true
    sound_organ
  refine ⟨sound_organ, hiff.mpr ?_, ?_⟩
  · unfold Shadowed
    decide +kernel
  · decide +kernel

/-- An instrument with a slider. -/
def sliderDescription : String :=
  "\x7b\"name\": \"v\", \"size\": 8, \"inputs\": 0, \"outputs\": 1, \"ui\": [" ++
    "\x7b\"type\": \"hslider\", \"label\": \"mix\", \"address\": \"/x/mix\", \"index\": 0, " ++
    "\"init\": 0.25, \"min\": 0, \"max\": 1, \"step\": 0.5\x7d]\x7d"

/-- An effect with a meter of the same path. -/
def meterDescription : String :=
  "\x7b\"name\": \"fx\", \"size\": 8, \"inputs\": 1, \"outputs\": 1, \"ui\": [" ++
    "\x7b\"type\": \"hbargraph\", \"label\": \"mix\", \"address\": \"/x/mix\", \"index\": 4, " ++
    "\"min\": 0, \"max\": 1\x7d]\x7d"

/-- The slider as a control. -/
def sliderBinding : Binding :=
  ⟨"/x/mix", 0, .zero, .one, .ofQuotient false 1 4, .ofQuotient false 1 2,
    .input (.slider .horizontal), .unbound, .voice⟩

/-- The meter as a control. -/
def meterBinding : Binding := ⟨"/x/mix", 4, .zero, .one, .zero, .zero, .output, .unbound, .effect⟩

/-- The slider is listed, and its path leads to the meter. -/
theorem exists_parse_not_advertises :
    ∃ voice effect, ModuleMetadata.parse sliderDescription = .ok voice ∧
      ModuleMetadata.parse meterDescription = .ok effect ∧
        ¬(build voice (some effect) true).Advertises := by
  obtain ⟨voice, hvoice, hslider⟩ : ∃ d, ModuleMetadata.parse sliderDescription = .ok d ∧
      (visitsOf d.ui).filterMap (Binding.ofVisit? .voice) = [sliderBinding] := by
    apply ModuleMetadata.exists_parse_of_map
    · unfold sliderDescription
      repeat' with_reducible apply toList_append_eq
      all_goals exact toList_eq_of_eq rfl
    · decide +kernel
  obtain ⟨effect, heffect, hmeter⟩ : ∃ d, ModuleMetadata.parse meterDescription = .ok d ∧
      (visitsOf d.ui).filterMap (Binding.ofVisit? .effect) = [meterBinding] := by
    apply ModuleMetadata.exists_parse_of_map
    · unfold meterDescription
      repeat' with_reducible apply toList_append_eq
      all_goals exact toList_eq_of_eq rfl
    · decide +kernel
  have hbindings : (build voice (some effect) true).bindings = [sliderBinding, meterBinding] := by
    rw [bindings_build, Option.elim_some, hslider, hmeter]
    rfl
  refine ⟨voice, effect, hvoice, heffect, fun h => ?_⟩
  have haccepts : (build voice (some effect) true).accepts sliderBinding = true := by
    rw [accepts, ownedByVoices, polyphonic_build]
    decide +kernel
  refine h.not_shadowed (b := sliderBinding) ?_ haccepts ⟨rfl, meterBinding, ?_, rfl, rfl⟩
  · simp [hbindings]
  · simp [hbindings]

end ParameterTable

end DspHost
