import DspHost.Proofs.Cache.Transparency
import DspHost.Proofs.Engine.Safety

/-!
# The demo organ from its source to its blocks

The toolchain of the demo organ compiles every program that contains the organ's to the organ, and
the effect of such a program to the volume. Both descriptions are accepted, so what a request for
the organ gets is a module that runs the organ's code; and however such a module is configured and
driven, nothing faults.

## Main definitions

* `Json.ofCharacters?`, `ModuleMetadata.accepted?` — what characters spell

## Main results

* `shape_organDescription`, `shape_organEffectDescription` — what the descriptions say
* `isOrgan_of_getOrCompile` — what a request gets runs the code of the organ
* `exists_organ` — a request for the program of the organ gets a module with an effect
* `organ_never_faults` — the organ does not fault in any run
-/

namespace DspHost

/-! ### Descriptions -/

/-- The characters of a text that is written in parts are those of its parts. -/
theorem toList_append_eq {s t : String} {cs ds : List Char} (hs : s.toList = cs)
    (ht : t.toList = ds) : (s ++ t).toList = cs ++ ds := by
  rw [String.toList_append, hs, ht]

theorem toList_eq_of_eq {s : String} {cs : List Char} (h : s = String.ofList cs) :
    s.toList = cs := by
  rw [h, String.toList_ofList]

/-- The document that characters spell, with nothing but white space around it. -/
def Json.ofCharacters? (characters : List Char) : Option Json :=
  match readValue? (characters.length + 1) characters with
  | some (value, rest) => if (skipSpace rest).isEmpty then some value else none
  | none => none

theorem Json.parse?_eq (text : String) : parse? text = ofCharacters? text.toList := rfl

namespace ModuleMetadata

/-- The description that characters spell, if it is accepted. -/
def accepted? (characters : List Char) : Option ModuleMetadata :=
  ((Json.ofCharacters? characters).bind ofJson?).filter fun d => d.check?.isNone

theorem parse_of_accepted? {text : String} {d : ModuleMetadata}
    (h : accepted? text.toList = some d) : parse text = .ok d := by
  obtain ⟨hread, hcheck⟩ := Option.filter_eq_some_iff.mp h
  have hnone : d.check? = none := Option.isNone_iff_eq_none.mp hcheck
  rw [parse, Json.parse?_eq, hread]
  simp only [hnone]

/-- Whatever there is to say about a description can be read from the characters of its text. -/
theorem exists_parse_of_map {α : Type} {text : String} {characters : List Char}
    {summary : ModuleMetadata → α} {said : α} (hspelled : text.toList = characters)
    (hsaid : (accepted? characters).map summary = some said) :
    ∃ d, parse text = .ok d ∧ summary d = said := by
  obtain ⟨d, hd, hsame⟩ := Option.map_eq_some_iff.mp hsaid
  rw [← hspelled] at hd
  exact ⟨d, parse_of_accepted? hd, hsame⟩

/-- A description can be read from the characters of its text. -/
theorem exists_parse {text : String} {characters : List Char} {shape : ℕ × ℕ × ℕ}
    (hspelled : text.toList = characters)
    (hshape : (accepted? characters).map ModuleMetadata.shape = some shape) :
    ∃ d, parse text = .ok d ∧ d.shape = shape := exists_parse_of_map hspelled hshape

end ModuleMetadata

set_option maxRecDepth 4000 in
/-- The description of the organ is accepted. -/
theorem shape_organDescription :
    ∃ d, ModuleMetadata.parse organDescription = .ok d ∧ d.shape = (Organ.size, 0, 1) := by
  apply ModuleMetadata.exists_parse
  · unfold organDescription
    repeat' with_reducible apply toList_append_eq
    all_goals exact toList_eq_of_eq rfl
  · decide +kernel

set_option maxRecDepth 4000 in
/-- The description of the volume is accepted. -/
theorem shape_organEffectDescription :
    ∃ d, ModuleMetadata.parse organEffectDescription = .ok d ∧ d.shape = (4, 1, 1) := by
  apply ModuleMetadata.exists_parse
  · unfold organEffectDescription
    repeat' with_reducible apply toList_append_eq
    all_goals exact toList_eq_of_eq rfl
  · decide +kernel

/-! ### The toolchain -/

/-- The code that is compiled under a name, and the shape of its description. -/
def organPart (name : String) : Kernel × ℕ × ℕ × ℕ :=
  if name = effectClassName then (organEffectKernel, 4, 1, 1)
  else (organKernel, Organ.size, 0, 1)

/-- What is compiled can be loaded, and its description is accepted. -/
theorem part_of_compileOrgan {name source : String} {output : CompilerOutput}
    (h : compileOrgan name source = .ok output) :
    ∃ d, loadOrgan output.binary = .ok (organPart name).1 ∧
      ModuleMetadata.parse output.description = .ok d ∧ d.shape = (organPart name).2 := by
  unfold compileOrgan at h
  split_ifs at h with hsource hname
  · obtain rfl := Except.ok.inj h
    obtain ⟨d, hparse, hshape⟩ := shape_organEffectDescription
    have hne : organEffectBinary ≠ organBinary := by decide +kernel
    rw [organPart, if_pos hname]
    refine ⟨d, ?_, hparse, hshape⟩
    rw [loadOrgan, if_neg hne, if_pos rfl]
  · obtain rfl := Except.ok.inj h
    obtain ⟨d, hparse, hshape⟩ := shape_organDescription
    rw [organPart, if_neg hname]
    exact ⟨d, if_pos rfl, hparse, hshape⟩

variable {r : CompileRequest} {m : CompiledModule} {config : EngineConfig} {s : Session}

theorem part_of_plain {p : PlainModule} (h : organToolchain.plain r = .ok p) :
    (p.kernel, p.metadata.shape) = organPart r.name := by
  obtain ⟨output, kernel, metadata, hcompile, hload, hparse, rfl⟩ :=
    Toolchain.plain_eq_ok_iff.mp h
  obtain ⟨d, hpart, hd, hshape⟩ := part_of_compileOrgan hcompile
  obtain rfl := Except.ok.inj (hload.symm.trans hpart)
  obtain rfl := Except.ok.inj (hparse.symm.trans hd)
  exact Prod.ext rfl hshape

theorem exists_plain (hsource : containsText organSource.toList r.source.toList = true) :
    ∃ p, organToolchain.plain r = .ok p := by
  have hcompile : ∃ output, compileOrgan r.name r.source = .ok output :=
    ⟨_, if_pos hsource⟩
  obtain ⟨output, houtput⟩ := hcompile
  obtain ⟨d, hload, hparse, -⟩ := part_of_compileOrgan houtput
  exact ⟨_, Toolchain.plain_eq_ok_iff.mpr ⟨output, _, d, houtput, hload, hparse, rfl⟩⟩

/-- What a request gets runs the code of the organ, with the volume as its effect. -/
theorem isOrgan_of_getOrCompile (hname : r.name ≠ effectClassName)
    (hbuilt : (ModuleCache.empty.getOrCompile organToolchain r).value.1 = .ok m) : m.IsOrgan := by
  have hwhole := ModuleCache.getOrCompile_empty organToolchain r
  rw [hbuilt] at hwhole
  obtain ⟨hplain, heffect⟩ := Toolchain.whole_eq_ok_iff.mp hwhole.symm
  have hpart := part_of_plain hplain
  rw [organPart, if_neg hname] at hpart
  refine ⟨congrArg (·.1) hpart, congrArg (·.2) hpart, fun e he => ?_⟩
  have hmade : organToolchain.plain r.effectCompanion = .ok e.unnumbered := by
    rw [CompiledModule.unnumbered, he] at heffect
    exact Except.toOption_eq_some_iff.mp heffect.symm
  have hnamed : r.effectCompanion.name = effectClassName := rfl
  have hvolume := part_of_plain hmade
  rw [organPart, if_pos hnamed] at hvolume
  exact ⟨congrArg (·.1) hvolume, congrArg (·.2) hvolume⟩

/-- The program of an effect contains the program that defines it. -/
theorem containsText_effectSource {part : List Char} {source : String}
    (h : containsText part source.toList = true) :
    containsText part (effectSource source).toList = true := by
  obtain ⟨before, after, hsource⟩ := containsText_iff.mp h
  refine containsText_iff.mpr ⟨effectAdapter.toList ++ before, after ++ String.toList
    "\n\x7d;\nprocess = adaptor(dsp_code.process, dsp_code.effect) : dsp_code.effect;\n", ?_⟩
  rw [effectSource, String.toList_append, String.toList_append, hsource]
  simp only [List.append_assoc]

/-- A request for a program that contains the organ's gets a module with an effect. -/
theorem exists_organ (hsource : containsText organSource.toList r.source.toList = true) :
    ∃ m e, (ModuleCache.empty.getOrCompile organToolchain r).value.1 = .ok m ∧
      m.effect = some e := by
  obtain ⟨p, hp⟩ := exists_plain hsource
  have hcompanion : containsText organSource.toList r.effectCompanion.source.toList = true :=
    containsText_effectSource hsource
  obtain ⟨p', hp'⟩ := exists_plain hcompanion
  have hwhole : organToolchain.whole r = .ok ⟨p, some p'⟩ := by
    refine Toolchain.whole_eq_ok_iff.mpr ⟨hp, ?_⟩
    rw [hp']
    rfl
  rw [← ModuleCache.getOrCompile_empty] at hwhole
  obtain ⟨m, hm, hsame⟩ := Except.map_eq_ok_iff.mp hwhole
  obtain ⟨e, he, -⟩ := Option.map_eq_some_iff.mp (congrArg CompiledModule.effect hsame)
  exact ⟨m, e, hm, he⟩

/-! ### Runs -/

/-- The organ never faults. However a processor for it is configured and driven, no block faults,
the processor stops only when a teardown was taken from the queue, and every word of the pointer
tables holds the address of the buffer of its channel. -/
theorem organ_never_faults (hname : r.name ≠ effectClassName)
    (hbuilt : (ModuleCache.empty.getOrCompile organToolchain r).value.1 = .ok m)
    (hattach : (attach m config).value = .ok s) (calls : List HostCall) :
    (∀ inputs outputs automation fault,
        ((s.run calls).process inputs outputs automation).1 ≠ .faulted fault) ∧
      ((s.run calls).processor.isStopped = true → .destroy ∈ s.takenBy calls) ∧
        (s.run calls).processor.plan = s.processor.plan ∧
          s.processor.plan.Pointed (s.run calls).processor.arena := by
  have horgan := isOrgan_of_getOrCompile hname hbuilt
  have hminds : s.processor.Minds config.sampleRate organFields := by
    obtain ⟨width, plan, arena, hplan, -, rfl⟩ := attach_eq_ok hattach
    exact horgan.minds hplan config.sampleRate
  have hsafe := Session.safe_of_attach hattach hminds calls
  have hplan : (s.run calls).processor.plan = s.processor.plan :=
    congrArg Router.plan hsafe.router
  refine ⟨fun inputs outputs automation => ?_, fun hstopped => ?_, hplan, ?_⟩
  · exact (hsafe.process (s.run calls).handle.commands inputs outputs automation).1
  · rcases hsafe.halt with hrunning | ⟨-, htaken⟩
    · rw [Processor.isStopped, hrunning] at hstopped
      cases hstopped
    · exact htaken
  · rw [← hplan]
    exact hsafe.ready.hosts.pointed hsafe.ready.wellFormed

/-- The program of the organ with eight voices: a note is played on an automated voice, and then the
processor is torn down. -/
theorem organ_never_faults_played : ∃ m s,
    (ModuleCache.empty.getOrCompile organToolchain
      { name := "organ", source := organSource }).value.1 = .ok m ∧
    (attach m organConfig).value = .ok s ∧
    (∀ inputs outputs automation fault,
      ((s.run [.send (.noteOn 0 60 100), .process [] [List.replicate 128 .zero]
        [⟨"/organ/bright", .one⟩], .send .destroy]).process inputs outputs automation).1 ≠
          .faulted fault) := by
  have hsource : containsText organSource.toList organSource.toList = true :=
    containsText_iff.mpr ⟨[], [], by rw [List.nil_append, List.append_nil]⟩
  have hname : "organ" ≠ effectClassName := by decide
  obtain ⟨m, e, hbuilt, he⟩ :=
    @exists_organ { name := "organ", source := organSource } hsource
  obtain ⟨plan, arena, hattach, -⟩ := (isOrgan_of_getOrCompile hname hbuilt).attach he
  exact ⟨m, _, hbuilt, hattach, (organ_never_faults hname hbuilt hattach _).1⟩

end DspHost
