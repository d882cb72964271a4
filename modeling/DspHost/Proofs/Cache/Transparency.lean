import DspHost.Cache.Store
import DspHost.Programs.Sample
import DspHost.Proofs.Cache.Identity
import DspHost.Proofs.Outcome
import Mathlib.Data.Set.Function

/-!
# The cache changes nothing but the work

What a request gets from a cache is what it gets from an empty one, whatever was requested, evicted
and imported before. Modules are told apart up to the number that their cache has given them, which
says when they were built and not what they are.

The invariant is that every module and every effect that is kept is what the compiler and the loader
make of the compilation that its fingerprint stands for. This asks that fingerprints identify the
compilations of a run; then it does not matter that effects are shared, and that they are dropped
together with any of the modules that share them.

## Main definitions

* `Toolchain.plain`, `Toolchain.whole` — what a compiler and a loader make of a request
* `Toolchain.compilations` — the compilations whose digests are taken in a run
* `Toolchain.Identified` — no two of these digests collide
* `ModuleCache.Reached` — the caches of a run, with bundles passed between them
* `ModuleCache.Faithful` — what is kept is what the tools make

## Main results

* `ModuleCache.Faithful.compileEffect`, `ModuleCache.Faithful.importEffectOf` — an effect is the
  same whether it is shared, compiled or imported
* `ModuleCache.Faithful.getOrCompile` — a request gets what the tools make of it
* `ModuleCache.getOrCompile_eq_of_reached` — a request gets what it gets from an empty cache
-/

namespace DspHost

/-! ### Modules up to their numbers -/

/-- A module without the number that its cache has given it. -/
def PlainModule.unnumbered (m : PlainModule) : PlainModule := { m with serial := 0 }

/-- A module and its effect without the numbers that their cache has given them. -/
def CompiledModule.unnumbered (m : CompiledModule) : CompiledModule :=
  ⟨m.toPlainModule.unnumbered, m.effect.map PlainModule.unnumbered⟩

namespace Artifact

variable {a : Artifact} {tools : Toolchain} {serial : ℕ} {m : PlainModule}

theorem build_eq_ok_iff :
    a.build tools serial = .ok m ↔
      ∃ kernel metadata, tools.load a.binary = .ok kernel ∧
        ModuleMetadata.parse a.description = .ok metadata ∧
          m = ⟨a.name, a.fingerprint, a.source, a.binary, a.description, metadata, kernel,
            serial⟩ := by
  simp only [build, PlainModule.ofParts, bind_eq_ok_iff, Except.mapError_eq_ok_iff]
  constructor
  · rintro ⟨kernel, hload, metadata, hparse, hm⟩
    exact ⟨kernel, metadata, hload, hparse, (Except.ok.inj hm).symm⟩
  · rintro ⟨kernel, metadata, hload, hparse, rfl⟩
    exact ⟨kernel, hload, metadata, hparse, rfl⟩

/-- Only the number of a module depends on when it is built. -/
theorem map_unnumbered_build (a : Artifact) (tools : Toolchain) (serial : ℕ) :
    (a.build tools serial).map PlainModule.unnumbered = a.build tools 0 := by
  simp only [build, PlainModule.ofParts]
  cases tools.load a.binary with
  | error reason => rfl
  | ok kernel => cases ModuleMetadata.parse a.description <;> rfl

/-- A module can be built again from what it was built from. -/
theorem build_artifact (h : a.build tools 0 = .ok m.unnumbered) :
    m.artifact.build tools 0 = .ok m.unnumbered := by
  obtain ⟨kernel, metadata, hload, hparse, hm⟩ := build_eq_ok_iff.mp h
  have hartifact : m.artifact = a := by
    change m.unnumbered.artifact = a
    rw [hm]
    rfl
  rwa [hartifact]

end Artifact

/-! ### What the tools make -/

namespace Toolchain

variable {tools : Toolchain} {requests : Set CompileRequest} {r : CompileRequest}

/-- What the tools make of a request, without its effect. -/
def plain (tools : Toolchain) (r : CompileRequest) : Except CompileError PlainModule := do
  let a ← r.compile tools
  a.build tools 0

/-- What the tools make of a request and of its effect. -/
def whole (tools : Toolchain) (r : CompileRequest) : Except CompileError CompiledModule := do
  let m ← tools.plain r
  return ⟨m, (tools.plain r.effectCompanion).toOption⟩

theorem whole_eq_ok_iff {m : CompiledModule} :
    tools.whole r = .ok m ↔
      tools.plain r = .ok m.toPlainModule ∧
        m.effect = (tools.plain r.effectCompanion).toOption := by
  simp only [whole, bind_eq_ok_iff]
  constructor
  · rintro ⟨plain, hplain, hm⟩
    cases hm
    exact ⟨hplain, rfl⟩
  · rintro ⟨hplain, heffect⟩
    refine ⟨_, hplain, ?_⟩
    rw [← heffect]
    rfl

theorem plain_eq_ok_iff {m : PlainModule} :
    tools.plain r = .ok m ↔
      ∃ output kernel metadata, tools.compile r.name r.source r.argv r.mode = .ok output ∧
        tools.load output.binary = .ok kernel ∧
          ModuleMetadata.parse output.description = .ok metadata ∧
            m = ⟨r.name, r.fingerprint, r.source, output.binary, output.description, metadata,
              kernel, 0⟩ := by
  simp only [plain, CompileRequest.compile, bind_eq_ok_iff, Except.mapError_eq_ok_iff]
  constructor
  · rintro ⟨a, ⟨output, hcompile, ha⟩, hbuild⟩
    obtain rfl := Except.ok.inj ha
    obtain ⟨kernel, metadata, hload, hparse, hm⟩ := Artifact.build_eq_ok_iff.mp hbuild
    exact ⟨output, kernel, metadata, hcompile, hload, hparse, hm⟩
  · rintro ⟨output, kernel, metadata, hcompile, hload, hparse, hm⟩
    exact ⟨_, ⟨output, hcompile, rfl⟩,
      Artifact.build_eq_ok_iff.mpr ⟨kernel, metadata, hload, hparse, hm⟩⟩

theorem fingerprint_of_plain {m : PlainModule} (h : tools.plain r = .ok m.unnumbered) :
    m.fingerprint = r.fingerprint := by
  obtain ⟨output, kernel, metadata, -, -, -, hm⟩ := plain_eq_ok_iff.mp h
  exact congrArg PlainModule.fingerprint hm

/-- What the tools make can be made again from its artifact. -/
theorem build_artifact_of_plain {m : PlainModule} (h : tools.plain r = .ok m.unnumbered) :
    m.artifact.build tools 0 = .ok m.unnumbered := by
  obtain ⟨a, -, hbuild⟩ := bind_eq_ok_iff.mp h
  exact Artifact.build_artifact hbuild

/-- The compilations whose digests are taken in a run: those of its requests, and those of the
effects of what can be built. -/
def compilations (tools : Toolchain) (requests : Set CompileRequest) : Set CompileRequest :=
  requests ∪ {q | ∃ r ∈ requests, (∃ m, tools.plain r = .ok m) ∧ q = r.effectCompanion}

/-- The digests that are taken in a run do not collide, and what they are taken of fits its
lengths. -/
structure Identified (tools : Toolchain) (requests : Set CompileRequest) : Prop where
  fits : ∀ q ∈ tools.compilations requests, q.Fits
  injOn : Set.InjOn sha256 (CompileRequest.digested '' tools.compilations requests)

/-- Fingerprints identify compilations. -/
theorem Identified.eq_of_fingerprint_eq (h : tools.Identified requests) {q q' : CompileRequest}
    (hq : q ∈ tools.compilations requests) (hq' : q' ∈ tools.compilations requests)
    (heq : q.fingerprint = q'.fingerprint) : q = q' :=
  CompileRequest.eq_of_fingerprint_eq h.fits h.injOn hq hq' heq

end Toolchain

/-! ### What is kept -/

namespace ModuleCache

variable {tools : Toolchain} {requests : Set CompileRequest} {c : ModuleCache}
  {r : CompileRequest}

/-- What is kept is what the tools make of the compilations of a run. -/
structure Faithful (tools : Toolchain) (requests : Set CompileRequest) (c : ModuleCache) :
    Prop where
  entries : ∀ entry ∈ c.entries, ∃ r ∈ requests, entry.1 = r.fingerprint ∧
    tools.whole r = .ok entry.2.unnumbered
  effects : ∀ entry ∈ c.effects, ∃ r ∈ requests, (∃ m, tools.plain r = .ok m) ∧
    entry.1 = r.effectCompanion.fingerprint ∧
      tools.plain r.effectCompanion = .ok entry.2.unnumbered

theorem mem_of_lookup {α : Type} {pairs : List (Fingerprint × α)} {f : Fingerprint} {x : α}
    (h : pairs.lookup f = some x) : (f, x) ∈ pairs := by
  obtain ⟨before, after, rfl, -⟩ := List.lookup_eq_some_iff.mp h
  simp

theorem faithful_empty : Faithful tools requests .empty :=
  ⟨fun _ hentry => (List.not_mem_nil hentry).elim, fun _ hentry => (List.not_mem_nil hentry).elim⟩

/-- What is true of the modules and effects that are kept stays true when some of them go. -/
theorem Faithful.mono (h : Faithful tools requests c) {c' : ModuleCache}
    (hentries : c'.entries ⊆ c.entries) (heffects : c'.effects ⊆ c.effects) :
    Faithful tools requests c' :=
  ⟨fun entry hentry => h.entries entry (hentries hentry),
    fun entry hentry => h.effects entry (heffects hentry)⟩

theorem Faithful.congr (h : Faithful tools requests c) {c' : ModuleCache}
    (hentries : c'.entries = c.entries) (heffects : c'.effects = c.effects) :
    Faithful tools requests c' :=
  ⟨hentries ▸ h.entries, heffects ▸ h.effects⟩

theorem Faithful.keep (h : Faithful tools requests c) (hr : r ∈ requests) {m : CompiledModule}
    (hwhole : tools.whole r = .ok m.unnumbered) : Faithful tools requests (c.keep m) := by
  refine ⟨fun entry hentry => ?_, h.effects⟩
  rcases List.mem_cons.mp hentry with rfl | hold
  · obtain ⟨hplain, -⟩ := Toolchain.whole_eq_ok_iff.mp hwhole
    exact ⟨r, hr, Toolchain.fingerprint_of_plain hplain, hwhole⟩
  · exact h.entries entry hold

theorem Faithful.keepEffect (h : Faithful tools requests c) (hr : r ∈ requests)
    (hbuilt : ∃ m, tools.plain r = .ok m) {effect : PlainModule}
    (heffect : tools.plain r.effectCompanion = .ok effect.unnumbered) :
    Faithful tools requests (c.keepEffect effect) := by
  refine ⟨h.entries, fun entry hentry => ?_⟩
  rcases List.mem_cons.mp hentry with rfl | hold
  · exact ⟨r, hr, hbuilt, Toolchain.fingerprint_of_plain heffect, heffect⟩
  · exact h.effects entry hold

/-- A module that is found is what the tools make of the request. -/
theorem Faithful.whole_of_get? (h : Faithful tools requests c)
    (hidentified : tools.Identified requests) (hr : r ∈ requests) {m : CompiledModule}
    (hget : c.get? r.fingerprint = some m) : tools.whole r = .ok m.unnumbered := by
  obtain ⟨r', hr', heq, hwhole⟩ := h.entries _ (mem_of_lookup hget)
  obtain rfl := hidentified.eq_of_fingerprint_eq (.inl hr) (.inl hr') heq
  exact hwhole

/-- An effect that is found is what the tools make of the request for it. -/
theorem Faithful.plain_of_effect? (h : Faithful tools requests c)
    (hidentified : tools.Identified requests) (hr : r ∈ requests)
    (hbuilt : ∃ m, tools.plain r = .ok m) {effect : PlainModule}
    (hget : c.effect? r.effectCompanion.fingerprint = some effect) :
    tools.plain r.effectCompanion = .ok effect.unnumbered := by
  obtain ⟨r', hr', hbuilt', heq, heffect⟩ := h.effects _ (mem_of_lookup hget)
  rw [hidentified.eq_of_fingerprint_eq (.inr ⟨r, hr, hbuilt, rfl⟩) (.inr ⟨r', hr', hbuilt', rfl⟩)
    heq]
  exact heffect

/-! ### Building -/

/-- Building answers what the artifact builds to, and keeps what is kept. -/
theorem build_spec (c : ModuleCache) (tools : Toolchain) (a : Artifact) :
    (c.build tools a).1.map PlainModule.unnumbered = a.build tools 0 ∧
      (c.build tools a).2.entries = c.entries ∧ (c.build tools a).2.effects = c.effects := by
  rw [← a.map_unnumbered_build tools c.built]
  unfold build
  cases a.build tools c.built <;> exact ⟨rfl, rfl, rfl⟩

/-- Compiling answers what the tools make, and keeps what is kept. -/
theorem compile_spec (c : ModuleCache) (tools : Toolchain) (r : CompileRequest) :
    (c.compile tools r).1.map PlainModule.unnumbered = tools.plain r ∧
      (c.compile tools r).2.entries = c.entries ∧ (c.compile tools r).2.effects = c.effects := by
  unfold compile Toolchain.plain
  cases r.compile tools with
  | error error => exact ⟨rfl, rfl, rfl⟩
  | ok a => exact (c.note _).build_spec tools a

/-- Whatever is kept for the effect of a request is what the tools make of it. -/
def KeepsEffectOf (c : ModuleCache) (tools : Toolchain) (r : CompileRequest) : Prop :=
  ∀ effect, c.effect? r.effectCompanion.fingerprint = some effect →
    tools.plain r.effectCompanion = .ok effect.unnumbered

/-- A request for an effect gets what the tools make of it, if they make anything. -/
theorem Faithful.compileEffect (h : Faithful tools requests c) (hr : r ∈ requests)
    (hbuilt : ∃ m, tools.plain r = .ok m) (hkept : c.KeepsEffectOf tools r) :
    (c.compileEffect tools r).value.1.map PlainModule.unnumbered =
        (tools.plain r.effectCompanion).toOption ∧
      Faithful tools requests (c.compileEffect tools r).value.2 := by
  unfold ModuleCache.compileEffect
  split
  · next effect hget =>
    rw [hkept effect hget]
    exact ⟨rfl, h⟩
  · obtain ⟨hmade, hentries, heffects⟩ := c.compile_spec tools r.effectCompanion
    rcases hcompile : c.compile tools r.effectCompanion with ⟨error | effect, c'⟩
    · rw [hcompile] at hmade hentries heffects
      rw [← hmade]
      exact ⟨rfl, h.congr hentries heffects⟩
    · rw [hcompile] at hmade hentries heffects
      rw [← hmade]
      exact ⟨rfl, (h.congr hentries heffects).keepEffect hr hbuilt hmade.symm⟩

/-- The effect in the bundle of a module is the effect of the module. -/
theorem Faithful.importEffectOf (h : Faithful tools requests c)
    (hidentified : tools.Identified requests) (hr : r ∈ requests) {m : CompiledModule}
    (hwhole : tools.whole r = .ok m.unnumbered) :
    (c.importEffectOf tools (.ofModule m)).value.1.map PlainModule.unnumbered =
        m.effect.map PlainModule.unnumbered ∧
      Faithful tools requests (c.importEffectOf tools (.ofModule m)).value.2 := by
  obtain ⟨hplain, hmade⟩ := Toolchain.whole_eq_ok_iff.mp hwhole
  have hbuilt : ∃ m, tools.plain r = .ok m := ⟨_, hplain⟩
  unfold ModuleCache.importEffectOf Bundle.ofModule
  rw [Bundle.effect?_ofParts]
  cases heffect : m.effect with
  | none => exact ⟨rfl, h⟩
  | some effect =>
    -- The artifact is that of an effect which the tools have made of the companion.
    have hcompanion : tools.plain r.effectCompanion = .ok effect.unnumbered := by
      rw [CompiledModule.unnumbered, heffect] at hmade
      exact Except.toOption_eq_some_iff.mp hmade.symm
    have hfingerprint := Toolchain.fingerprint_of_plain hcompanion
    change Option.map _ (c.importEffect tools effect.artifact).value.1 = _ ∧
      Faithful tools requests (c.importEffect tools effect.artifact).value.2
    unfold importEffect
    split
    · next kept hget =>
      -- What is kept under this fingerprint was made of the same compilation.
      have hkept : c.effect? r.effectCompanion.fingerprint = some kept := by
        rw [← hfingerprint]
        exact hget
      have hsame := h.plain_of_effect? hidentified hr hbuilt hkept
      rw [hcompanion] at hsame
      exact ⟨congrArg some (Except.ok.inj hsame).symm, h⟩
    · obtain ⟨hbuild, hentries, heffects⟩ := c.build_spec tools effect.artifact
      rw [Toolchain.build_artifact_of_plain hcompanion] at hbuild
      rcases hbuilds : c.build tools effect.artifact with ⟨error | built, c'⟩
      · rw [hbuilds] at hbuild
        cases hbuild
      · rw [hbuilds] at hbuild hentries heffects
        have hsame : built.unnumbered = effect.unnumbered := Except.ok.inj hbuild
        refine ⟨congrArg some hsame, (h.congr hentries heffects).keepEffect hr hbuilt ?_⟩
        rw [hsame]
        exact hcompanion

/-! ### Requests and bundles -/

theorem Faithful.compileWhole (h : Faithful tools requests c) (hr : r ∈ requests)
    (hkept : (∃ m, tools.plain r = .ok m) → c.KeepsEffectOf tools r) :
    (c.compileWhole tools r).value.1.map CompiledModule.unnumbered = tools.whole r ∧
      Faithful tools requests (c.compileWhole tools r).value.2 := by
  obtain ⟨hmade, hentries, heffects⟩ := c.compile_spec tools r
  unfold ModuleCache.compileWhole
  rcases hcompile : c.compile tools r with ⟨error | plain, c'⟩
  · rw [hcompile] at hmade hentries heffects
    refine ⟨?_, h.congr hentries heffects⟩
    rw [Toolchain.whole, ← hmade]
    rfl
  · rw [hcompile] at hmade hentries heffects
    have hplain : tools.plain r = .ok plain.unnumbered := hmade.symm
    have hbuilt : ∃ m, tools.plain r = .ok m := ⟨_, hplain⟩
    -- Compiling the module itself leaves the effects as they were.
    have hkept' : c'.KeepsEffectOf tools r := by
      unfold KeepsEffectOf effect?
      rw [heffects]
      exact hkept hbuilt
    obtain ⟨heffect, hfaithful⟩ :=
      (h.congr hentries heffects).compileEffect hr hbuilt hkept'
    have hwhole : tools.whole r = .ok
        (CompiledModule.unnumbered ⟨plain, (c'.compileEffect tools r).value.1⟩) :=
      Toolchain.whole_eq_ok_iff.mpr ⟨hplain, heffect⟩
    exact ⟨hwhole.symm, hfaithful.keep hr hwhole⟩

/-- A request gets what the tools make of it. -/
theorem Faithful.getOrCompile (h : Faithful tools requests c)
    (hidentified : tools.Identified requests) (hr : r ∈ requests) :
    (c.getOrCompile tools r).value.1.map CompiledModule.unnumbered = tools.whole r ∧
      Faithful tools requests (c.getOrCompile tools r).value.2 := by
  unfold ModuleCache.getOrCompile
  split
  · next m hget =>
    exact ⟨(h.whole_of_get? hidentified hr hget).symm, h.congr rfl rfl⟩
  · have hmissed : Faithful tools requests { c with misses := c.misses + 1 } := h.congr rfl rfl
    exact hmissed.compileWhole hr fun hbuilt _ hget =>
      hmissed.plain_of_effect? hidentified hr hbuilt hget

/-- From an empty cache a request gets what the tools make of it, whatever its fingerprints are. -/
theorem getOrCompile_empty (tools : Toolchain) (r : CompileRequest) :
    (empty.getOrCompile tools r).value.1.map CompiledModule.unnumbered = tools.whole r := by
  have hempty : Faithful tools {r} { empty with misses := empty.misses + 1 } :=
    faithful_empty.congr rfl rfl
  refine (hempty.compileWhole (Set.mem_singleton r) fun _ effect hget => ?_).1
  cases hget

theorem Faithful.evict (h : Faithful tools requests c) (fingerprint : Fingerprint) :
    Faithful tools requests (c.evict fingerprint).value.2 := by
  unfold ModuleCache.evict
  split
  · exact h
  · next m _ =>
    simp only [Noted.value_bind, Noted.value_pure]
    cases m.effect with
    | none => exact h.mono List.filter_sublist.subset (List.Subset.refl _)
    | some effect => exact h.mono List.filter_sublist.subset List.filter_sublist.subset

/-- The bundle of what is kept makes what is kept. -/
theorem Faithful.importBundle (h : Faithful tools requests c)
    (hidentified : tools.Identified requests) (hr : r ∈ requests) {m : CompiledModule}
    (hwhole : tools.whole r = .ok m.unnumbered) :
    Faithful tools requests (c.importBundle tools (.ofModule m)).value.2 := by
  obtain ⟨hplain, hmade⟩ := Toolchain.whole_eq_ok_iff.mp hwhole
  unfold ModuleCache.importBundle
  split
  · exact h
  · have hartifact : (Bundle.ofModule m).artifact = m.artifact := Bundle.artifact_ofParts _ _
    obtain ⟨hbuild, hentries, heffects⟩ := c.build_spec tools m.artifact
    rw [Toolchain.build_artifact_of_plain hplain] at hbuild
    rw [hartifact]
    rcases hbuilds : c.build tools m.artifact with ⟨error | plain, c'⟩
    · rw [hbuilds] at hbuild
      cases hbuild
    · rw [hbuilds] at hbuild hentries heffects
      have hsame : plain.unnumbered = m.toPlainModule.unnumbered := Except.ok.inj hbuild
      obtain ⟨heffect, hkept⟩ :=
        (h.congr hentries heffects).importEffectOf hidentified hr hwhole
      refine hkept.keep hr ?_
      rw [hwhole]
      unfold CompiledModule.unnumbered
      rw [hsame, heffect]

/-! ### Runs -/

/-- The caches of a run over one compiler and one loader, in which bundles that one cache exports
are imported by another. -/
inductive Reached (tools : Toolchain) (requests : Set CompileRequest) : ModuleCache → Prop
  | empty : Reached tools requests .empty
  | getOrCompile {c : ModuleCache} {r : CompileRequest} (reached : Reached tools requests c)
      (asked : r ∈ requests) : Reached tools requests (c.getOrCompile tools r).value.2
  | evict {c : ModuleCache} (reached : Reached tools requests c) (fingerprint : Fingerprint) :
      Reached tools requests (c.evict fingerprint).value.2
  | clear {c : ModuleCache} (reached : Reached tools requests c) : Reached tools requests c.clear
  | importBundle {c other : ModuleCache} {fingerprint : Fingerprint} {bundle : Bundle}
      (reached : Reached tools requests c) (elsewhere : Reached tools requests other)
      (exported : other.exportBundle? fingerprint = some bundle) :
      Reached tools requests (c.importBundle tools bundle).value.2

/-- Every cache of a run keeps what the tools make. -/
theorem Reached.faithful (h : Reached tools requests c)
    (hidentified : tools.Identified requests) : Faithful tools requests c := by
  induction h with
  | empty => exact faithful_empty
  | getOrCompile _ asked ih => exact (ih.getOrCompile hidentified asked).2
  | evict _ fingerprint ih => exact ih.evict fingerprint
  | clear _ ih => exact ih.mono (List.nil_subset _) (List.nil_subset _)
  | importBundle _ _ exported ih ihother =>
    -- The bundle is of a module that the other cache keeps, so the tools have made it.
    obtain ⟨m, hget, rfl⟩ := Option.map_eq_some_iff.mp exported
    obtain ⟨r, hr, -, hwhole⟩ := ihother.entries _ (mem_of_lookup hget)
    exact ih.importBundle hidentified hr hwhole

/-- A request gets what it gets from an empty cache: the same error, or the same module with the
same effect. -/
theorem getOrCompile_eq_of_reached (h : Reached tools requests c)
    (hidentified : tools.Identified requests) (hr : r ∈ requests) :
    (c.getOrCompile tools r).value.1.map CompiledModule.unnumbered =
      (empty.getOrCompile tools r).value.1.map CompiledModule.unnumbered := by
  obtain ⟨hreached, -⟩ := (h.faithful hidentified).getOrCompile hidentified hr
  exact hreached.trans (getOrCompile_empty tools r).symm

/-- A sample program that defines an effect. -/
def voiceRequest : CompileRequest := { name := "synth", source := "synth; effect = volume" }

/-- The digests of the sample program and of its effect differ. -/
theorem identified_voiceRequest : sampleToolchain.Identified {voiceRequest} := by
  have hcases : ∀ q ∈ sampleToolchain.compilations {voiceRequest},
      q = voiceRequest ∨ q = voiceRequest.effectCompanion := by
    rintro q (rfl | ⟨r, rfl, -, rfl⟩)
    · exact .inl rfl
    · exact .inr rfl
  have hapart : sha256 voiceRequest.digested ≠ sha256 voiceRequest.effectCompanion.digested := by
    decide +kernel
  refine ⟨fun q hq => ?_, ?_⟩
  · rcases hcases q hq with rfl | rfl
    · exact ⟨by decide, by decide, by decide⟩
    · exact ⟨by decide +kernel, by decide, by decide⟩
  · rintro _ ⟨q, hq, rfl⟩ _ ⟨q', hq', rfl⟩ hdigest
    rcases hcases q hq with rfl | rfl <;> rcases hcases q' hq' with rfl | rfl
    · rfl
    · exact (hapart hdigest).elim
    · exact (hapart hdigest.symm).elim
    · rfl

/-- A sample program that was evicted and is requested again. -/
theorem getOrCompile_eq_of_reached_evicted :
    (((empty.getOrCompile sampleToolchain voiceRequest).value.2.evict
        voiceRequest.fingerprint).value.2.getOrCompile sampleToolchain
          voiceRequest).value.1.map CompiledModule.unnumbered =
      (empty.getOrCompile sampleToolchain voiceRequest).value.1.map
        CompiledModule.unnumbered := by
  have hcompiled : Reached sampleToolchain {voiceRequest} _ :=
    .getOrCompile .empty (Set.mem_singleton voiceRequest)
  exact getOrCompile_eq_of_reached (hcompiled.evict _) identified_voiceRequest
    (Set.mem_singleton voiceRequest)

end ModuleCache

end DspHost
