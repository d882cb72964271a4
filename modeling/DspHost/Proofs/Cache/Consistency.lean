import DspHost.Proofs.Programs.BuiltOrgan
import Mathlib.Data.List.Nodup

/-!
# What a cache keeps

Modules and effects are kept in two lists that are filled by requests and by imports and emptied by
evictions. What one of these can do is said once: it changes nothing, it works in vain, or it gains
a module together with the effect that belongs to it. An effect is kept in order to be shared, so
it must not outlast the modules that have it. Each eviction takes the effect with the module,
although others may share it; this is what leaves no effect without an owner.

Compiler and loader are not asked to behave. They may answer one call differently from the next.

## Main definitions

* `CacheCall`, `ModuleCache.act`, `ModuleCache.run` — calls, and what a number of them does
* `PlainModule.BuiltBy` — a module that one of the loaders has made, with its description read
* `ModuleCache.Found` — what looking for the effect of a new module comes to
* `ModuleCache.Gained` — what asking for a module that is not kept comes to
* `ModuleCache.Consistent` — what is true of a cache in every state

## Main results

* `ModuleCache.compileWhole_gained`, `ModuleCache.importBundle_gained` — requests and imports
* `ModuleCache.Consistent.act` — every call keeps a cache consistent
* `ModuleCache.consistent_of_run` — what is true after any calls, and what the next one can do
-/

namespace DspHost

/-! ### Calls -/

/-- What a cache is asked to do. -/
inductive CacheCall where
  /-- A request asks for its module. -/
  | getOrCompile (request : CompileRequest)
  /-- A bundle is imported. -/
  | importBundle (bundle : Bundle)
  /-- A module is exported. -/
  | exportBundle (fingerprint : Fingerprint)
  /-- A module is dropped. -/
  | evict (fingerprint : Fingerprint)
  /-- Every module is dropped. -/
  | clear

/-- Whether a call is a request. -/
def CacheCall.isRequest : CacheCall → Bool
  | .getOrCompile _ => true
  | _ => false

namespace ModuleCache

/-- The cache after a call. -/
def act (c : ModuleCache) (tools : Toolchain) : CacheCall → ModuleCache
  | .getOrCompile r => (c.getOrCompile tools r).value.2
  | .importBundle bundle => (c.importBundle tools bundle).value.2
  | .exportBundle _ => c
  | .evict fingerprint => (c.evict fingerprint).value.2
  | .clear => c.clear

/-- The cache after a number of calls, each with the compiler and the loader as they are then. -/
def run (c : ModuleCache) (calls : List (Toolchain × CacheCall)) : ModuleCache :=
  calls.foldl (fun c call => c.act call.1 call.2) c

/-- What every call keeps, every run keeps. -/
theorem run_induction (invariant : ModuleCache → Prop) {calls : List (Toolchain × CacheCall)}
    (step : ∀ c, ∀ call ∈ calls, invariant c → invariant (c.act call.1 call.2)) {c : ModuleCache}
    (h : invariant c) : invariant (c.run calls) := by
  induction calls generalizing c with
  | nil => exact h
  | cons call rest ih =>
    refine ih (fun c other hother => step c other (List.mem_cons_of_mem call hother)) ?_
    exact step c call List.mem_cons_self h

end ModuleCache

/-! ### Modules that were built -/

/-- The module is what the loader of one of the toolchains has made of its binary, and its metadata
is what its description says. -/
structure PlainModule.BuiltBy (toolchains : Set Toolchain) (m : PlainModule) : Prop where
  loaded : ∃ tools ∈ toolchains, tools.load m.binary = .ok m.kernel
  parsed : ModuleMetadata.parse m.description = .ok m.metadata

/-- The module and its effect were built. -/
structure CompiledModule.BuiltBy (toolchains : Set Toolchain) (m : CompiledModule) : Prop where
  plain : m.toPlainModule.BuiltBy toolchains
  effect : ∀ effect, m.effect = some effect → effect.BuiltBy toolchains

theorem PlainModule.builtBy_of_artifact {toolchains : Set Toolchain} {tools : Toolchain}
    (htools : tools ∈ toolchains) {a : Artifact} {m : PlainModule}
    (h : a.build tools 0 = .ok m.unnumbered) :
    m.BuiltBy toolchains ∧ m.fingerprint = a.fingerprint := by
  obtain ⟨kernel, metadata, hload, hparse, hm⟩ := Artifact.build_eq_ok_iff.mp h
  obtain ⟨name, fingerprint, source, binary, description, metadata', kernel', serial⟩ := m
  cases hm
  exact ⟨⟨⟨tools, htools, hload⟩, hparse⟩, rfl⟩

/-- The effect in the bundle of a module has no effect of its own. -/
theorem Bundle.effect?_of_ofModule {m : CompiledModule} {effect : Bundle}
    (h : (Bundle.ofModule m).effect? = some effect) : effect.effect? = none := by
  rw [Bundle.ofModule, Bundle.effect?_ofParts] at h
  obtain ⟨plain, -, rfl⟩ := Option.map_eq_some_iff.mp h
  rfl

namespace ModuleCache

variable {toolchains : Set Toolchain} {tools : Toolchain} {c c' : ModuleCache}

/-! ### Work that keeps nothing -/

/-- The tools were called, and nothing was kept, dropped or counted. -/
structure Worked (c c' : ModuleCache) : Prop where
  entries : c'.entries = c.entries
  effects : c'.effects = c.effects
  hits : c'.hits = c.hits
  misses : c'.misses = c.misses

theorem Worked.refl (c : ModuleCache) : c.Worked c := ⟨rfl, rfl, rfl, rfl⟩

theorem build_worked (c : ModuleCache) (tools : Toolchain) (a : Artifact) :
    c.Worked (c.build tools a).2 := by
  unfold build
  cases a.build tools c.built <;> exact ⟨rfl, rfl, rfl, rfl⟩

theorem compile_worked (c : ModuleCache) (tools : Toolchain) (r : CompileRequest) :
    c.Worked (c.compile tools r).2 := by
  unfold compile
  cases r.compile tools with
  | error error => exact ⟨rfl, rfl, rfl, rfl⟩
  | ok a =>
    obtain ⟨hentries, heffects, hhits, hmisses⟩ := (c.note _).build_worked tools a
    exact ⟨hentries, heffects, hhits, hmisses⟩

/-- What is built from an artifact was built, and has the fingerprint of the artifact. -/
theorem builtBy_of_build (htools : tools ∈ toolchains) {a : Artifact} {m : PlainModule}
    (h : (c.build tools a).1 = .ok m) :
    m.BuiltBy toolchains ∧ m.fingerprint = a.fingerprint := by
  obtain ⟨hbuild, -, -⟩ := c.build_spec tools a
  rw [h] at hbuild
  exact PlainModule.builtBy_of_artifact htools hbuild.symm

/-- What a request is compiled to was built, and has the fingerprint of the request. -/
theorem builtBy_of_compile (htools : tools ∈ toolchains) {r : CompileRequest} {m : PlainModule}
    (h : (c.compile tools r).1 = .ok m) :
    m.BuiltBy toolchains ∧ m.fingerprint = r.fingerprint := by
  obtain ⟨hcompile, -, -⟩ := c.compile_spec tools r
  rw [h] at hcompile
  obtain ⟨a, -, hbuild⟩ := bind_eq_ok_iff.mp hcompile.symm
  exact ⟨(PlainModule.builtBy_of_artifact htools hbuild).1,
    Toolchain.fingerprint_of_plain hcompile.symm⟩

/-! ### Effects of new modules -/

/-- What looking for the effect of a new module comes to. -/
inductive Found (toolchains : Set Toolchain) (c : ModuleCache) :
    Option PlainModule → ModuleCache → Prop where
  /-- There is none, or it cannot be built. -/
  | missing {c' : ModuleCache} (work : c.Worked c') : Found toolchains c none c'
  /-- It is kept already. -/
  | shared {fingerprint : Fingerprint} {effect : PlainModule}
      (kept : c.effect? fingerprint = some effect) : Found toolchains c (some effect) c
  /-- It is built and kept from now on. -/
  | fresh {c' : ModuleCache} {effect : PlainModule} (work : c.Worked c')
      (absent : c.effect? effect.fingerprint = none) (built : effect.BuiltBy toolchains) :
      Found toolchains c (some effect) (c'.keepEffect effect)

theorem compileEffect_found (htools : tools ∈ toolchains) (c : ModuleCache) (r : CompileRequest) :
    c.Found toolchains (c.compileEffect tools r).value.1 (c.compileEffect tools r).value.2 := by
  have hwork := c.compile_worked tools r.effectCompanion
  unfold compileEffect
  split
  · next effect hget => exact .shared hget
  · next habsent =>
    rcases hcompile : c.compile tools r.effectCompanion with ⟨error | effect, c'⟩
    · rw [hcompile] at hwork
      exact .missing hwork
    · rw [hcompile] at hwork
      obtain ⟨hbuilt, hfingerprint⟩ := builtBy_of_compile htools (congrArg Prod.fst hcompile)
      rw [← hfingerprint] at habsent
      exact .fresh hwork habsent hbuilt

theorem importEffectOf_found (htools : tools ∈ toolchains) (c : ModuleCache) (bundle : Bundle) :
    c.Found toolchains (c.importEffectOf tools bundle).value.1
      (c.importEffectOf tools bundle).value.2 := by
  unfold importEffectOf
  split
  · next effect _ =>
    have hwork := c.build_worked tools effect.artifact
    unfold importEffect
    split
    · next effect hget => exact .shared hget
    · next habsent =>
      rcases hbuild : c.build tools effect.artifact with ⟨error | effect, c'⟩
      · rw [hbuild] at hwork
        exact .missing hwork
      · rw [hbuild] at hwork
        obtain ⟨hbuilt, hfingerprint⟩ := builtBy_of_build htools (congrArg Prod.fst hbuild)
        rw [← hfingerprint] at habsent
        exact .fresh hwork habsent hbuilt
  · exact .missing (.refl c)

/-! ### New modules -/

/-- What asking for a module that is not kept comes to. -/
inductive Gained (toolchains : Set Toolchain) (c : ModuleCache) (fingerprint : Fingerprint) :
    Except CompileError CompiledModule → ModuleCache → Prop where
  /-- It cannot be built. -/
  | failed {error : CompileError} {c' : ModuleCache} (work : c.Worked c') :
      Gained toolchains c fingerprint (.error error) c'
  /-- It is built and kept from now on, with its effect if there is one. -/
  | kept {plain : PlainModule} {effect : Option PlainModule} {c' c'' : ModuleCache}
      (absent : c.get? fingerprint = none) (identified : plain.fingerprint = fingerprint)
      (built : plain.BuiltBy toolchains) (work : c.Worked c')
      (found : c'.Found toolchains effect c'') :
      Gained toolchains c fingerprint (.ok ⟨plain, effect⟩) (c''.keep ⟨plain, effect⟩)

theorem compileWhole_gained (htools : tools ∈ toolchains) {r : CompileRequest}
    (habsent : c.get? r.fingerprint = none) :
    c.Gained toolchains r.fingerprint (c.compileWhole tools r).value.1
      (c.compileWhole tools r).value.2 := by
  have hwork := c.compile_worked tools r
  unfold compileWhole
  rcases hcompile : c.compile tools r with ⟨error | plain, c'⟩
  · rw [hcompile] at hwork
    exact .failed hwork
  · rw [hcompile] at hwork
    obtain ⟨hbuilt, hfingerprint⟩ := builtBy_of_compile htools (congrArg Prod.fst hcompile)
    exact .kept habsent hfingerprint hbuilt hwork (compileEffect_found htools c' r)

theorem importBundle_gained (htools : tools ∈ toolchains) {bundle : Bundle}
    (habsent : c.get? bundle.artifact.fingerprint = none) :
    c.Gained toolchains bundle.artifact.fingerprint (c.importBundle tools bundle).value.1
      (c.importBundle tools bundle).value.2 := by
  have hwork := c.build_worked tools bundle.artifact
  unfold importBundle
  rw [habsent]
  rcases hbuild : c.build tools bundle.artifact with ⟨error | plain, c'⟩
  · rw [hbuild] at hwork
    exact .failed hwork
  · rw [hbuild] at hwork
    obtain ⟨hbuilt, hfingerprint⟩ := builtBy_of_build htools (congrArg Prod.fst hbuild)
    exact .kept habsent hfingerprint hbuilt hwork (importEffectOf_found htools c' bundle)

/-- A module that is kept is imported as it is. -/
theorem importBundle_of_get? {bundle : Bundle} {m : CompiledModule}
    (hget : c.get? bundle.artifact.fingerprint = some m) :
    (c.importBundle tools bundle).value = (.ok m, c) := by
  rw [importBundle, hget]
  rfl

theorem importBundle_cases (htools : tools ∈ toolchains) (c : ModuleCache) (bundle : Bundle) :
    (∃ m, (c.importBundle tools bundle).value = (.ok m, c)) ∨
      c.Gained toolchains bundle.artifact.fingerprint (c.importBundle tools bundle).value.1
        (c.importBundle tools bundle).value.2 := by
  cases hget : c.get? bundle.artifact.fingerprint with
  | some m => exact .inl ⟨m, importBundle_of_get? hget⟩
  | none => exact .inr (importBundle_gained htools hget)

/-- Whether a request is counted as a hit or as a miss, a hit answers what is kept and does nothing
else. -/
theorem getOrCompile_cases (htools : tools ∈ toolchains) (c : ModuleCache) (r : CompileRequest) :
    (∃ m, c.get? r.fingerprint = some m ∧
      (c.getOrCompile tools r).value = (.ok m, { c with hits := c.hits + 1 })) ∨
    (c.get? r.fingerprint = none ∧
      Gained toolchains { c with misses := c.misses + 1 } r.fingerprint
        (c.getOrCompile tools r).value.1 (c.getOrCompile tools r).value.2) := by
  unfold getOrCompile
  split
  · next m hget => exact .inl ⟨m, hget, rfl⟩
  · next habsent => exact .inr ⟨habsent, compileWhole_gained htools habsent⟩

/-- A program that can be built is served, whatever is kept. -/
theorem exists_getOrCompile_of_plain {r : CompileRequest} {m : PlainModule}
    (h : tools.plain r = .ok m) : ∃ served, (c.getOrCompile tools r).value.1 = .ok served := by
  unfold getOrCompile
  split
  · next kept _ => exact ⟨kept, rfl⟩
  · obtain ⟨hmade, -, -⟩ := compile_spec { c with misses := c.misses + 1 } tools r
    rw [h] at hmade
    unfold compileWhole
    rcases hcompile : compile { c with misses := c.misses + 1 } tools r with ⟨error | built, c'⟩
    · rw [hcompile] at hmade
      cases hmade
    · exact ⟨_, rfl⟩

/-- A bundle that can be built is imported, whatever is kept. -/
theorem exists_importBundle_of_build {bundle : Bundle} {m : PlainModule}
    (h : bundle.artifact.build tools c.built = .ok m) :
    ∃ imported, (c.importBundle tools bundle).value.1 = .ok imported := by
  unfold importBundle
  split
  · next kept _ => exact ⟨kept, rfl⟩
  · simp only [build, h]
    exact ⟨_, rfl⟩

variable {fingerprint : Fingerprint} {outcome : Except CompileError CompiledModule}

/-- Finding an effect counts no request. -/
theorem Found.counts {effect : Option PlainModule} (h : c.Found toolchains effect c') :
    c'.entries = c.entries ∧ c'.hits = c.hits ∧ c'.misses = c.misses := by
  cases h with
  | missing work => exact ⟨work.entries, work.hits, work.misses⟩
  | shared _ => exact ⟨rfl, rfl, rfl⟩
  | fresh work _ _ => exact ⟨work.entries, work.hits, work.misses⟩

/-- Gaining a module counts no request. -/
theorem Gained.counts (h : c.Gained toolchains fingerprint outcome c') :
    c'.hits = c.hits ∧ c'.misses = c.misses := by
  cases h with
  | failed work => exact ⟨work.hits, work.misses⟩
  | kept _ _ _ work found =>
    obtain ⟨-, hhits, hmisses⟩ := found.counts
    exact ⟨hhits.trans work.hits, hmisses.trans work.misses⟩

/-- What is kept is the same. -/
def KeepsAll (c c' : ModuleCache) : Prop := c'.entries = c.entries ∧ c'.effects = c.effects

/-- A module that cannot be built changes nothing of what is kept. -/
theorem Gained.keepsAll {error : CompileError}
    (h : c.Gained toolchains fingerprint (.error error) c') : c.KeepsAll c' := by
  cases h with
  | failed work => exact ⟨work.entries, work.effects⟩

/-- A module that was gained is the first one that is kept. -/
theorem Gained.entries {m : CompiledModule} (h : c.Gained toolchains fingerprint (.ok m) c') :
    c'.entries = (fingerprint, m) :: c.entries := by
  cases h with
  | kept _ identified _ work found =>
    obtain ⟨hentries, -, -⟩ := found.counts
    subst identified
    exact congrArg (_ :: ·) (hentries.trans work.entries)

/-! ### Consistent caches -/

/-- What is true of a cache in every state. Modules and effects are kept under their own
fingerprints, once each, as they were built; and an effect is kept only together with a module that
has it. -/
structure Consistent (toolchains : Set Toolchain) (c : ModuleCache) : Prop where
  entries : ∀ entry ∈ c.entries, entry.1 = entry.2.fingerprint ∧ entry.2.BuiltBy toolchains
  effects : ∀ entry ∈ c.effects, entry.1 = entry.2.fingerprint ∧ entry.2.BuiltBy toolchains
  entryKeys : (c.entries.map Prod.fst).Nodup
  effectKeys : (c.effects.map Prod.fst).Nodup
  owned : ∀ entry ∈ c.effects,
    ∃ owner ∈ c.entries, owner.2.effect.map (·.fingerprint) = some entry.1

theorem notMem_of_lookup {α : Type} {pairs : List (Fingerprint × α)} {f : Fingerprint}
    (h : pairs.lookup f = none) : f ∉ pairs.map Prod.fst := by
  intro hmem
  obtain ⟨entry, hentry, rfl⟩ := List.mem_map.mp hmem
  have hne := List.lookup_eq_none_iff.mp h entry hentry
  simp at hne

theorem consistent_empty : Consistent toolchains .empty :=
  ⟨fun _ hentry => (List.not_mem_nil hentry).elim, fun _ hentry => (List.not_mem_nil hentry).elim,
    .nil, .nil, fun _ hentry => (List.not_mem_nil hentry).elim⟩

theorem Consistent.congr (h : c.Consistent toolchains) (hentries : c'.entries = c.entries)
    (heffects : c'.effects = c.effects) : c'.Consistent toolchains :=
  ⟨hentries ▸ h.entries, heffects ▸ h.effects, hentries ▸ h.entryKeys, heffects ▸ h.effectKeys,
    hentries ▸ heffects ▸ h.owned⟩

theorem Consistent.worked (h : c.Consistent toolchains) (work : c.Worked c') :
    c'.Consistent toolchains :=
  h.congr work.entries work.effects

/-- A new module is kept with the effect that was found for it. -/
theorem Consistent.keep (h : c.Consistent toolchains) {plain : PlainModule}
    {effect : Option PlainModule} (habsent : c.get? plain.fingerprint = none)
    (hbuilt : plain.BuiltBy toolchains) (found : c.Found toolchains effect c') :
    (c'.keep ⟨plain, effect⟩).Consistent toolchains := by
  obtain ⟨hentries, -, -⟩ := found.counts
  have hkeys : ((c'.keep ⟨plain, effect⟩).entries.map Prod.fst).Nodup := by
    change (plain.fingerprint :: c'.entries.map Prod.fst).Nodup
    rw [hentries]
    exact List.nodup_cons.mpr ⟨notMem_of_lookup habsent, h.entryKeys⟩
  -- What was kept with a module before is still kept with it.
  have howned : ∀ entry ∈ c.effects, ∃ owner ∈ (c'.keep ⟨plain, effect⟩).entries,
      owner.2.effect.map (·.fingerprint) = some entry.1 := by
    intro entry hentry
    obtain ⟨owner, howner, hhas⟩ := h.owned entry hentry
    exact ⟨owner, List.mem_cons_of_mem _ (hentries ▸ howner), hhas⟩
  have hall : (∀ e, effect = some e → e.BuiltBy toolchains) → ∀ entry ∈
      (c'.keep ⟨plain, effect⟩).entries,
        entry.1 = entry.2.fingerprint ∧ entry.2.BuiltBy toolchains := by
    intro heffect entry hentry
    rcases List.mem_cons.mp hentry with rfl | hold
    · exact ⟨rfl, hbuilt, heffect⟩
    · exact h.entries entry (hentries ▸ hold)
  cases found with
  | missing work =>
    have heffects : (c'.keep ⟨plain, none⟩).effects = c.effects := work.effects
    refine ⟨hall fun e he => (Option.some_ne_none e he.symm).elim, ?_, hkeys, ?_, ?_⟩
    · rw [heffects]
      exact h.effects
    · rw [heffects]
      exact h.effectKeys
    · rw [heffects]
      exact howned
  | shared kept =>
    refine ⟨hall fun e he => ?_, h.effects, hkeys, h.effectKeys, howned⟩
    obtain rfl := Option.some.inj he
    exact (h.effects _ (mem_of_lookup kept)).2
  | @fresh c₁ effect work absent built =>
    have heffects : ((c₁.keepEffect effect).keep ⟨plain, some effect⟩).effects =
        (effect.fingerprint, effect) :: c.effects :=
      congrArg ((effect.fingerprint, effect) :: ·) work.effects
    refine ⟨hall fun e he => Option.some.inj he ▸ built, ?_, hkeys, ?_, ?_⟩
    · rw [heffects, List.forall_mem_cons]
      exact ⟨⟨rfl, built⟩, h.effects⟩
    · rw [heffects, List.map_cons]
      exact List.nodup_cons.mpr ⟨notMem_of_lookup absent, h.effectKeys⟩
    · -- The new effect belongs to the new module.
      rw [heffects, List.forall_mem_cons]
      exact ⟨⟨_, List.mem_cons_self, rfl⟩, howned⟩

theorem Consistent.gained (h : c.Consistent toolchains)
    (gained : c.Gained toolchains fingerprint outcome c') : c'.Consistent toolchains := by
  cases gained with
  | failed work => exact h.worked work
  | kept absent identified built work found =>
    refine (h.worked work).keep ?_ built found
    rw [get?, work.entries, identified]
    exact absent

theorem entries_dropEffect (c : ModuleCache) (effect : Option PlainModule) :
    (c.dropEffect effect).entries = c.entries := by
  cases effect <;> rfl

theorem effects_dropEffect (c : ModuleCache) (effect : Option PlainModule) :
    (c.dropEffect effect).effects =
      c.effects.filter fun entry => effect.map (·.fingerprint) != some entry.1 := by
  cases effect with
  | none => exact (List.filter_eq_self.mpr fun _ _ => rfl).symm
  | some effect =>
    refine List.filter_congr fun entry _ => ?_
    rw [Bool.eq_iff_iff, bne_iff_ne, bne_iff_ne, Option.map_some, ne_eq, ne_eq, Option.some_inj,
      eq_comm]

/-- A module is evicted with its effect, so that no effect outlasts its modules. -/
theorem Consistent.evict (h : c.Consistent toolchains) (fingerprint : Fingerprint) :
    (c.evict fingerprint).value.2.Consistent toolchains := by
  unfold ModuleCache.evict
  split
  · exact h
  · next m hget =>
    simp only [Noted.value_bind, Noted.value_pure]
    generalize hgone : c.entries.filter (fun entry => entry.1 != fingerprint) = rest
    have hrest : rest.Sublist c.entries := hgone ▸ List.filter_sublist
    refine ⟨?_, ?_, ?_, ?_, ?_⟩
    · rw [entries_dropEffect]
      exact fun entry hentry => h.entries entry (hrest.subset hentry)
    · rw [effects_dropEffect]
      exact fun entry hentry => h.effects entry (List.mem_of_mem_filter hentry)
    · rw [entries_dropEffect]
      exact h.entryKeys.sublist (hrest.map Prod.fst)
    · rw [effects_dropEffect]
      exact h.effectKeys.sublist (List.filter_sublist.map Prod.fst)
    · rw [effects_dropEffect, entries_dropEffect]
      intro entry hentry
      obtain ⟨hold, hother⟩ := List.mem_filter.mp hentry
      obtain ⟨owner, howner, hhas⟩ := h.owned entry hold
      refine ⟨owner, ?_, hhas⟩
      -- An owner of an effect that stays is not the module that goes.
      rw [← hgone]
      refine List.mem_filter.mpr ⟨howner, bne_iff_ne.mpr fun hkey => ?_⟩
      obtain rfl : owner = (fingerprint, m) :=
        List.inj_on_of_nodup_map h.entryKeys howner (mem_of_lookup hget) hkey
      exact bne_iff_ne.mp hother hhas

/-- Nothing is left when everything is dropped. -/
theorem consistent_clear (c : ModuleCache) : c.clear.Consistent toolchains :=
  consistent_empty.congr rfl rfl

theorem Consistent.act (h : c.Consistent toolchains) (htools : tools ∈ toolchains)
    (call : CacheCall) : (c.act tools call).Consistent toolchains := by
  cases call with
  | getOrCompile r =>
    rcases getOrCompile_cases htools c r with ⟨m, -, hhit⟩ | ⟨-, hgained⟩
    · rw [ModuleCache.act, hhit]
      exact h.congr rfl rfl
    · have hmissed : Consistent toolchains { c with misses := c.misses + 1 } := h.congr rfl rfl
      exact hmissed.gained hgained
  | importBundle bundle =>
    rcases importBundle_cases htools c bundle with ⟨m, hsame⟩ | hgained
    · rw [ModuleCache.act, hsame]
      exact h
    · exact h.gained hgained
  | exportBundle fingerprint => exact h
  | evict fingerprint => exact h.evict fingerprint
  | clear => exact consistent_clear c

/-! ### Counting requests -/

/-- The number of requests that were counted. -/
def requests (c : ModuleCache) : ℕ := c.hits + c.misses

theorem requests_evict (c : ModuleCache) (fingerprint : Fingerprint) :
    (c.evict fingerprint).value.2.requests = c.requests := by
  unfold ModuleCache.evict
  split
  · rfl
  · next m _ =>
    simp only [Noted.value_bind, Noted.value_pure]
    cases m.effect <;> rfl

/-- Requests are counted, and nothing else is. -/
theorem requests_act (c : ModuleCache) (tools : Toolchain) (call : CacheCall) :
    (c.act tools call).requests = c.requests + if call.isRequest then 1 else 0 := by
  cases call with
  | getOrCompile r =>
    rcases getOrCompile_cases (Set.mem_singleton tools) c r with ⟨m, -, hhit⟩ | ⟨-, hgained⟩
    · rw [ModuleCache.act, hhit, requests, requests, CacheCall.isRequest, if_pos rfl]
      exact Nat.add_right_comm c.hits 1 c.misses
    · obtain ⟨hhits, hmisses⟩ := hgained.counts
      rw [ModuleCache.act, requests, hhits, hmisses]
      rfl
  | importBundle bundle =>
    rcases importBundle_cases (Set.mem_singleton tools) c bundle with ⟨m, hsame⟩ | hgained
    · rw [ModuleCache.act, hsame]
      rfl
    · obtain ⟨hhits, hmisses⟩ := hgained.counts
      rw [ModuleCache.act, requests, hhits, hmisses]
      rfl
  | exportBundle fingerprint => rfl
  | evict fingerprint => exact c.requests_evict fingerprint
  | clear => rfl

theorem requests_run (c : ModuleCache) (calls : List (Toolchain × CacheCall)) :
    (c.run calls).requests = c.requests + calls.countP (·.2.isRequest) := by
  induction calls generalizing c with
  | nil => rfl
  | cons call rest ih =>
    calc ((c.act call.1 call.2).run rest).requests
      _ = (c.act call.1 call.2).requests + rest.countP (·.2.isRequest) := ih _
      _ = c.requests + (call :: rest).countP (·.2.isRequest) := by
        rw [requests_act, List.countP_cons, Nat.add_assoc, Nat.add_comm (rest.countP _)]

/-! ### Runs -/

/-- The compilers and loaders that calls came with. -/
def toolchainsOf (calls : List (Toolchain × CacheCall)) : Set Toolchain :=
  {tools | ∃ call, (tools, call) ∈ calls}

theorem Consistent.run {calls : List (Toolchain × CacheCall)} (h : c.Consistent toolchains)
    (htools : toolchainsOf calls ⊆ toolchains) : (c.run calls).Consistent toolchains :=
  run_induction (Consistent toolchains)
    (fun _ call hcall hc => hc.act (htools ⟨call.2, hcall⟩) call.2) h

/-- After any calls a cache is consistent, and it has counted its requests. Whatever comes next, a
request for what is kept calls no tool, and a request or an import that fails leaves what is kept as
it was. -/
theorem consistent_of_run (calls : List (Toolchain × CacheCall)) :
    (empty.run calls).Consistent (toolchainsOf calls) ∧
      (∀ entry ∈ (empty.run calls).entries, ∀ effect,
        (Bundle.ofModule entry.2).effect? = some effect → effect.effect? = none) ∧
      (empty.run calls).hits + (empty.run calls).misses = calls.countP (·.2.isRequest) ∧
      (∀ tools r, ((empty.run calls).getOrCompile tools r).value.2.hits ≠ (empty.run calls).hits →
        ∃ m, (empty.run calls).get? r.fingerprint = some m ∧
          ((empty.run calls).getOrCompile tools r).value =
            (.ok m, { empty.run calls with hits := (empty.run calls).hits + 1 })) ∧
      (∀ tools r error, ((empty.run calls).getOrCompile tools r).value.1 = .error error →
        (empty.run calls).KeepsAll ((empty.run calls).getOrCompile tools r).value.2) ∧
      ∀ tools bundle error, ((empty.run calls).importBundle tools bundle).value.1 = .error error →
        (empty.run calls).KeepsAll ((empty.run calls).importBundle tools bundle).value.2 := by
  refine ⟨consistent_empty.run (Set.Subset.refl _), fun entry _ effect => ?_, ?_,
    fun tools r hcounted => ?_, fun tools r error herror => ?_, fun tools bundle error herror => ?_⟩
  · exact Bundle.effect?_of_ofModule
  · have hcount := empty.requests_run calls
    rw [Nat.add_comm] at hcount
    exact hcount
  · rcases getOrCompile_cases (Set.mem_singleton tools) (empty.run calls) r with
      hhit | ⟨-, hgained⟩
    · exact hhit
    · exact (hcounted hgained.counts.1).elim
  · rcases getOrCompile_cases (Set.mem_singleton tools) (empty.run calls) r with
      ⟨m, -, hhit⟩ | ⟨-, hgained⟩
    · rw [hhit] at herror
      cases herror
    · rw [herror] at hgained
      exact hgained.keepsAll
  · rcases importBundle_cases (Set.mem_singleton tools) (empty.run calls) bundle with
      ⟨m, hsame⟩ | hgained
    · rw [hsame] at herror
      cases herror
    · rw [herror] at hgained
      exact hgained.keepsAll

/-- A sample program without an effect. -/
def crashRequest : CompileRequest := { name := "crash", source := "crash" }

/-- The sample program is loaded and its description is accepted, whatever they are said to be
of. -/
theorem exists_build_crash (fingerprint : Fingerprint) (name source : String) (serial : ℕ) :
    ∃ m, Artifact.build ⟨fingerprint, name, "crash".toUTF8.toList, source, crashDescription⟩
      sampleToolchain serial = .ok m := by
  obtain ⟨d, hd, -⟩ : ∃ d, ModuleMetadata.parse crashDescription = .ok d ∧ d.shape = (4, 0, 1) := by
    apply ModuleMetadata.exists_parse
    · unfold crashDescription
      repeat' with_reducible apply toList_append_eq
      all_goals exact toList_eq_of_eq rfl
    · decide +kernel
  have hload : loadSample "crash".toUTF8.toList = .ok crashKernel := by
    have hsynth : "crash".toUTF8.toList ≠ "synth".toUTF8.toList := by decide +kernel
    have hamp : "crash".toUTF8.toList ≠ "amp".toUTF8.toList := by decide +kernel
    rw [loadSample, if_neg hsynth, if_neg hamp, if_pos rfl]
  exact ⟨_, Artifact.build_eq_ok_iff.mpr ⟨crashKernel, d, hload, hd, rfl⟩⟩

theorem exists_plain_crash : ∃ m, sampleToolchain.plain crashRequest = .ok m :=
  exists_build_crash crashRequest.fingerprint "crash" "crash" 0

/-- The sample program is built. -/
theorem exists_crash :
    ∃ m, (empty.getOrCompile sampleToolchain crashRequest).value.1 = .ok m := by
  obtain ⟨m, hm⟩ := exists_plain_crash
  exact exists_getOrCompile_of_plain hm

/-- What an empty cache is asked for is the only module it keeps. -/
theorem entries_run_getOrCompile {r : CompileRequest} {m : CompiledModule}
    (h : (empty.getOrCompile tools r).value.1 = .ok m) :
    (empty.run [(tools, .getOrCompile r)]).entries = [(r.fingerprint, m)] := by
  rcases getOrCompile_cases (Set.mem_singleton tools) empty r with ⟨_, hget, -⟩ | ⟨-, hgained⟩
  · cases hget
  · rw [h] at hgained
    exact hgained.entries

/-- A toolchain that refuses everything. -/
def refusingToolchain : Toolchain where
  compile _ _ _ _ := .error "refused"
  load _ := .error "refused"

/-- A sample program is kept. Asking for it again is a hit, even if the tools refuse everything now;
asking for another program fails, so does importing a bundle, and both leave it where it is. -/
theorem consistent_of_run_crash :
    let c := empty.run [(sampleToolchain, .getOrCompile crashRequest)]
    ((c.getOrCompile refusingToolchain crashRequest).value.2.hits ≠ c.hits ∧
      ∃ m, c.get? crashRequest.fingerprint = some m ∧
        (c.getOrCompile refusingToolchain crashRequest).value =
          (.ok m, { c with hits := c.hits + 1 })) ∧
    ((c.getOrCompile refusingToolchain default).value.1 = .error (.compiler "refused") ∧
      c.KeepsAll (c.getOrCompile refusingToolchain default).value.2) ∧
    (c.importBundle refusingToolchain (.alone default)).value.1 = .error (.load "refused") ∧
      c.KeepsAll (c.importBundle refusingToolchain (.alone default)).value.2 := by
  obtain ⟨-, -, -, hhit, hrefused, hunloaded⟩ :=
    consistent_of_run [(sampleToolchain, .getOrCompile crashRequest)]
  obtain ⟨m, hm⟩ := exists_crash
  have hentries := entries_run_getOrCompile hm
  have hapart : (default : CompileRequest).fingerprint ≠ crashRequest.fingerprint := by
    decide +kernel
  have hunnamed : (default : Artifact).fingerprint ≠ crashRequest.fingerprint := by
    decide +kernel
  generalize empty.run [(sampleToolchain, .getOrCompile crashRequest)] = c at *
  have hget : c.get? crashRequest.fingerprint = some m := by
    rw [get?, hentries, List.lookup_cons_self]
  have hmissed : ∀ f, f ≠ crashRequest.fingerprint → c.get? f = none := by
    intro f hne
    rw [get?, hentries, List.lookup_cons, beq_eq_false_iff_ne.mpr hne, List.lookup_nil]
  refine ⟨?_, ?_, ?_⟩
  · have hcounted : (c.getOrCompile refusingToolchain crashRequest).value.2.hits ≠ c.hits := by
      rw [getOrCompile, hget]
      exact Nat.succ_ne_self c.hits
    exact ⟨hcounted, hhit _ _ hcounted⟩
  · have herror : (c.getOrCompile refusingToolchain default).value.1 =
        .error (.compiler "refused") := by
      rw [getOrCompile, hmissed _ hapart]
      rfl
    exact ⟨herror, hrefused _ _ _ herror⟩
  · have herror : (c.importBundle refusingToolchain (.alone default)).value.1 =
        .error (.load "refused") := by
      rw [importBundle, Bundle.artifact, hmissed _ hunnamed]
      rfl
    exact ⟨herror, hunloaded _ _ _ herror⟩

end ModuleCache

end DspHost
