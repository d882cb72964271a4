import DspHost.Proofs.Cache.Transport

/-!
# Where modules come from

A module is kept if one of the calls before put it there and no later call has dropped it. Either a
request had it compiled, and then it has the name and the source of that request; or it came in a
bundle, and then it has whatever the bundle carries. A bundle names the fingerprint that its module
is kept under, and nothing is there to check it against: the arguments of the compiler and the
memory mode are digested as well, and a bundle does not carry them.

So a request gets what a bundle carries if one under its fingerprint is in force, that is, was
imported with success when nothing was kept there and has not been dropped since. It gets a module
with its own name and source otherwise.

## Main definitions

* `CacheCall.Drops` — a call drops what is kept under a fingerprint
* `ModuleCache.Puts` — a call puts a module under a fingerprint
* `ModuleCache.InForce` — a bundle is in force after a number of calls
* `ModuleCache.Distinguished` — the digests of some requests do not collide

## Main results

* `ModuleCache.mem_entries_act_iff` — what one call does to what is kept
* `ModuleCache.mem_entries_run_iff` — what is kept was put there, and was not dropped since
* `ModuleCache.InForce.exists_get?` — what a bundle in force carries is kept
* `ModuleCache.source_of_getOrCompile` — a request gets what a bundle in force carries, and its own
  source if there is none
-/

namespace DspHost

/-- A call drops what is kept under a fingerprint. -/
def CacheCall.Drops (fingerprint : Fingerprint) : CacheCall → Prop
  | .evict evicted => evicted = fingerprint
  | .clear => True
  | _ => False

namespace ModuleCache

variable {tools : Toolchain} {c : ModuleCache} {r : CompileRequest} {m : CompiledModule}
  {calls : List (Toolchain × CacheCall)} {entry : Fingerprint × CompiledModule}

/-! ### Calls that put a module there -/

/-- A call builds a module and puts it under a fingerprint where nothing was kept. -/
def Puts (c : ModuleCache) (tools : Toolchain) (entry : Fingerprint × CompiledModule) :
    CacheCall → Prop
  | .getOrCompile r => r.fingerprint = entry.1 ∧ c.get? r.fingerprint = none ∧
      (c.getOrCompile tools r).value.1 = .ok entry.2
  | .importBundle bundle => bundle.artifact.fingerprint = entry.1 ∧
      c.get? bundle.artifact.fingerprint = none ∧
      (c.importBundle tools bundle).value.1 = .ok entry.2
  | _ => False

/-- What a request is compiled to has its name and its source. -/
theorem source_of_compileWhole (h : (c.compileWhole tools r).value.1 = .ok m) :
    m.name = r.name ∧ m.source = r.source := by
  obtain ⟨hmade, -, -⟩ := c.compile_spec tools r
  unfold compileWhole at h
  rcases hcompile : c.compile tools r with ⟨error | plain, c'⟩
  · rw [hcompile] at h
    cases h
  · rw [hcompile] at h hmade
    obtain ⟨output, kernel, metadata, -, -, -, hplain⟩ := Toolchain.plain_eq_ok_iff.mp hmade.symm
    obtain rfl := Except.ok.inj h
    exact ⟨congrArg PlainModule.name hplain, congrArg PlainModule.source hplain⟩

/-- What is built from an artifact has what the artifact carries. -/
theorem artifact_of_build {a : Artifact} {m : PlainModule} (h : (c.build tools a).1 = .ok m) :
    m.artifact = a := by
  obtain ⟨hmade, -, -⟩ := c.build_spec tools a
  rw [h] at hmade
  obtain ⟨kernel, metadata, -, -, hm⟩ := Artifact.build_eq_ok_iff.mp hmade.symm
  exact congrArg PlainModule.artifact hm

/-- A bundle under a fingerprint that is not kept is imported to what it carries. -/
theorem artifact_of_importBundle {bundle : Bundle}
    (habsent : c.get? bundle.artifact.fingerprint = none)
    (h : (c.importBundle tools bundle).value.1 = .ok m) : m.artifact = bundle.artifact := by
  unfold importBundle at h
  rw [habsent] at h
  rcases hbuild : c.build tools bundle.artifact with ⟨error | plain, c'⟩
  · rw [hbuild] at h
    cases h
  · rw [hbuild] at h
    obtain rfl := Except.ok.inj h
    exact artifact_of_build (congrArg Prod.fst hbuild)

/-- After asking for a module that was not kept, what was kept is kept, and so is that module. -/
theorem Gained.mem_entries_iff {toolchains : Set Toolchain} {fingerprint : Fingerprint}
    {outcome : Except CompileError CompiledModule} {c' : ModuleCache}
    (h : c.Gained toolchains fingerprint outcome c') :
    entry ∈ c'.entries ↔ entry ∈ c.entries ∨ fingerprint = entry.1 ∧ outcome = .ok entry.2 := by
  cases outcome with
  | error error => simp [h.keepsAll.1]
  | ok m => simp [h.entries, Prod.ext_iff, or_comm, eq_comm]

/-- An eviction leaves what is kept under other fingerprints. -/
theorem mem_entries_evict_iff {fingerprint : Fingerprint} :
    entry ∈ (c.evict fingerprint).value.2.entries ↔ entry ∈ c.entries ∧ entry.1 ≠ fingerprint := by
  unfold evict
  split
  · next habsent =>
    -- There is nothing to drop, and nothing that could be kept under the fingerprint.
    have hother : entry ∈ c.entries → entry.1 ≠ fingerprint := fun hentry hkey =>
      notMem_of_lookup habsent (hkey ▸ List.mem_map_of_mem hentry)
    exact (and_iff_left_of_imp hother).symm
  · simp only [Noted.value_bind, Noted.value_pure, entries_dropEffect, List.mem_filter,
      bne_iff_ne]

/-- What is kept after a call was kept before and is not dropped, or the call puts it there. -/
theorem mem_entries_act_iff {call : CacheCall} :
    entry ∈ (c.act tools call).entries ↔
      entry ∈ c.entries ∧ ¬ call.Drops entry.1 ∨ c.Puts tools entry call := by
  cases call with
  | getOrCompile r =>
    rcases getOrCompile_cases (Set.mem_singleton tools) c r with
      ⟨m, hget, hhit⟩ | ⟨habsent, hgained⟩
    · -- A hit answers what is kept and puts nothing there.
      simp [act, hhit, CacheCall.Drops, Puts, hget]
    · simp [act, hgained.mem_entries_iff, CacheCall.Drops, Puts, habsent]
  | importBundle bundle =>
    cases hget : c.get? bundle.artifact.fingerprint with
    | some m => simp [act, importBundle_of_get? hget, CacheCall.Drops, Puts, hget]
    | none =>
      have hgained := importBundle_gained (Set.mem_singleton tools) hget
      simp [act, hgained.mem_entries_iff, CacheCall.Drops, Puts, hget]
  | exportBundle fingerprint => simp [act, CacheCall.Drops, Puts]
  | evict fingerprint => simp [act, mem_entries_evict_iff, CacheCall.Drops, Puts, eq_comm]
  | clear => simp [act, clear, CacheCall.Drops, Puts]

/-- Nothing is kept twice, so that what is kept is found. -/
theorem Consistent.get?_of_mem {toolchains : Set Toolchain} {fingerprint : Fingerprint}
    (h : c.Consistent toolchains) (hentry : (fingerprint, m) ∈ c.entries) :
    c.get? fingerprint = some m := by
  cases hget : c.get? fingerprint with
  | none => exact (notMem_of_lookup hget (List.mem_map_of_mem hentry)).elim
  | some kept =>
    have hkeys := List.inj_on_of_nodup_map h.entryKeys (mem_of_lookup hget) hentry rfl
    rw [(Prod.mk.inj hkeys).2]

/-! ### Runs -/

theorem run_cons (c : ModuleCache) (call : Toolchain × CacheCall)
    (calls : List (Toolchain × CacheCall)) :
    c.run (call :: calls) = (c.act call.1 call.2).run calls :=
  rfl

theorem run_append (c : ModuleCache) (calls calls' : List (Toolchain × CacheCall)) :
    c.run (calls ++ calls') = (c.run calls).run calls' :=
  List.foldl_append

/-- What is kept stays, if none of the calls drops it. -/
theorem mem_entries_run (hentry : entry ∈ c.entries)
    (hstays : ∀ call ∈ calls, ¬ call.2.Drops entry.1) : entry ∈ (c.run calls).entries :=
  run_induction (entry ∈ ·.entries)
    (fun _ call hcall hc => mem_entries_act_iff.mpr (.inl ⟨hc, hstays call hcall⟩)) hentry

/-- What is kept was put there by one of the calls, and no later call has dropped it. -/
theorem mem_entries_run_iff :
    entry ∈ (empty.run calls).entries ↔ ∃ before tools call after,
      calls = before ++ (tools, call) :: after ∧ (empty.run before).Puts tools entry call ∧
        ∀ later ∈ after, ¬ later.2.Drops entry.1 := by
  constructor
  · -- The induction is on the last call: either it put the module there, or an earlier one did and
    -- this one does not drop it.
    intro hentry
    induction calls using List.reverseRecOn with
    | nil => exact (List.not_mem_nil hentry).elim
    | append_singleton calls last ih =>
      rw [run_append] at hentry
      rcases mem_entries_act_iff.mp hentry with ⟨hold, hstays⟩ | hputs
      · obtain ⟨before, tools, call, after, rfl, hputs, hlater⟩ := ih hold
        refine ⟨before, tools, call, after ++ [last], ?_, hputs, ?_⟩
        · rw [List.append_assoc, List.cons_append]
        · exact List.forall_mem_append.mpr ⟨hlater, List.forall_mem_singleton.mpr hstays⟩
      · exact ⟨calls, last.1, last.2, [], rfl, hputs, List.forall_mem_nil _⟩
  · rintro ⟨before, tools, call, after, rfl, hputs, hlater⟩
    have hput : entry ∈ ((empty.run before).act tools call).entries :=
      mem_entries_act_iff.mpr (.inr hputs)
    rw [run_append, run_cons]
    exact mem_entries_run hput hlater

/-- The requests of a number of calls. -/
def requestsOf (calls : List (Toolchain × CacheCall)) : Set CompileRequest :=
  {r | ∃ tools, (tools, .getOrCompile r) ∈ calls}

/-- A bundle was imported with success when nothing was kept under its fingerprint, and nothing was
dropped from there since. -/
def InForce (calls : List (Toolchain × CacheCall)) (bundle : Bundle) : Prop :=
  ∃ before tools after, calls = before ++ (tools, .importBundle bundle) :: after ∧
    (empty.run before).get? bundle.artifact.fingerprint = none ∧
    (∃ m, ((empty.run before).importBundle tools bundle).value.1 = .ok m) ∧
    ∀ later ∈ after, ¬ later.2.Drops bundle.artifact.fingerprint

/-- The digests of some requests do not collide, and what they are taken of fits its lengths. -/
structure Distinguished (requests : Set CompileRequest) : Prop where
  fits : ∀ q ∈ requests, q.Fits
  injOn : Set.InjOn sha256 (CompileRequest.digested '' requests)

/-- What a bundle in force carries is kept under its fingerprint. -/
theorem InForce.exists_get? {bundle : Bundle} (h : InForce calls bundle) :
    ∃ m, (empty.run calls).get? bundle.artifact.fingerprint = some m ∧
      m.artifact = bundle.artifact := by
  obtain ⟨before, tools, after, hcalls, habsent, ⟨m, hm⟩, hlater⟩ := h
  have hkept : (bundle.artifact.fingerprint, m) ∈ (empty.run calls).entries :=
    mem_entries_run_iff.mpr ⟨before, tools, _, after, hcalls, ⟨rfl, habsent, hm⟩, hlater⟩
  have hconsistent : (empty.run calls).Consistent (toolchainsOf calls) :=
    consistent_empty.run (Set.Subset.refl _)
  exact ⟨m, hconsistent.get?_of_mem hkept, artifact_of_importBundle habsent hm⟩

/-- What is kept under the fingerprint of a request has its name and its source, if no bundle is in
force there. -/
theorem source_of_get? (hdigests : Distinguished (insert r (requestsOf calls)))
    (hget : (empty.run calls).get? r.fingerprint = some m)
    (hnone : ∀ bundle, InForce calls bundle → bundle.artifact.fingerprint ≠ r.fingerprint) :
    m.name = r.name ∧ m.source = r.source := by
  obtain ⟨before, tools, call, after, hcalls, hputs, hlater⟩ :=
    mem_entries_run_iff.mp (mem_of_lookup hget)
  cases call with
  | getOrCompile r' =>
    obtain ⟨hidentified, habsent, houtcome⟩ := hputs
    -- The module was built for a request with the same digest, which is then the same request.
    have hasked : r' ∈ requestsOf calls := ⟨tools, by rw [hcalls]; simp⟩
    obtain rfl : r' = r := CompileRequest.eq_of_fingerprint_eq hdigests.fits hdigests.injOn
      (Set.mem_insert_of_mem r hasked) (Set.mem_insert r _) hidentified
    rw [getOrCompile, habsent] at houtcome
    exact source_of_compileWhole houtcome
  | importBundle bundle =>
    obtain ⟨hidentified, habsent, houtcome⟩ := hputs
    rw [← hidentified] at hlater
    have hforce : InForce calls bundle :=
      ⟨before, tools, after, hcalls, habsent, ⟨m, houtcome⟩, hlater⟩
    exact (hnone bundle hforce hidentified).elim
  | exportBundle _ => exact hputs.elim
  | evict _ => exact hputs.elim
  | clear => exact hputs.elim

/-- What is kept is served. -/
theorem getOrCompile_of_get? (hget : c.get? r.fingerprint = some m) :
    (c.getOrCompile tools r).value.1 = .ok m := by
  rw [getOrCompile, hget]
  rfl

/-- If a bundle under its fingerprint is in force, a request gets what the bundle carries. If there
is none, it gets a module with its own name and source. -/
theorem source_of_getOrCompile (hdigests : Distinguished (insert r (requestsOf calls)))
    (h : ((empty.run calls).getOrCompile tools r).value.1 = .ok m) :
    (∀ bundle, InForce calls bundle → bundle.artifact.fingerprint = r.fingerprint →
        m.artifact = bundle.artifact) ∧
      ((∀ bundle, InForce calls bundle → bundle.artifact.fingerprint ≠ r.fingerprint) →
        m.name = r.name ∧ m.source = r.source) := by
  constructor
  · intro bundle hforce hidentified
    obtain ⟨kept, hget, hcarried⟩ := hforce.exists_get?
    rw [hidentified] at hget
    obtain rfl : kept = m := Except.ok.inj ((getOrCompile_of_get? hget).symm.trans h)
    exact hcarried
  · intro hnone
    rcases hget : (empty.run calls).get? r.fingerprint with _ | kept
    · rw [getOrCompile, hget] at h
      exact source_of_compileWhole h
    · obtain rfl : kept = m := Except.ok.inj ((getOrCompile_of_get? hget).symm.trans h)
      exact source_of_get? hdigests hget hnone

/-! ### A bundle with a false fingerprint -/

/-- A bundle that carries a sample program under another name and another source. -/
def misnamedBundle : Bundle :=
  .alone ⟨crashRequest.fingerprint, "boom", "crash".toUTF8.toList, "boom", crashDescription⟩

theorem fingerprint_misnamedBundle :
    misnamedBundle.artifact.fingerprint = crashRequest.fingerprint := rfl

theorem exists_importBundle_misnamed :
    ∃ m, (empty.importBundle sampleToolchain misnamedBundle).value.1 = .ok m := by
  obtain ⟨m, hm⟩ := exists_build_crash crashRequest.fingerprint "boom" "boom" empty.built
  exact exists_importBundle_of_build hm

/-- A single import puts its bundle in force if it succeeds. -/
theorem inForce_singleton_iff {bundle bundle' : Bundle} :
    InForce [(tools, .importBundle bundle)] bundle' ↔
      bundle' = bundle ∧ ∃ m, (empty.importBundle tools bundle).value.1 = .ok m := by
  constructor
  · rintro ⟨before, tools', after, hcalls, -, himports, -⟩
    rcases List.singleton_eq_append_iff.mp hcalls with ⟨rfl, hrest⟩ | ⟨-, hrest⟩
    · cases hrest
      exact ⟨rfl, himports⟩
    · cases hrest
  · rintro ⟨rfl, himports⟩
    exact ⟨[], tools, [], rfl, rfl, himports, List.forall_mem_nil _⟩

/-- An import asks for no compilation. -/
theorem distinguished_crash (bundle : Bundle) :
    Distinguished (insert crashRequest (requestsOf [(tools, .importBundle bundle)])) := by
  have hsole : insert crashRequest (requestsOf [(tools, .importBundle bundle)]) =
      {crashRequest} := by
    simp [requestsOf]
  rw [hsole]
  refine ⟨?_, ?_⟩
  · rintro q rfl
    exact ⟨by decide, by decide, by decide⟩
  · rw [Set.image_singleton]
    exact Set.injOn_singleton _ _

/-- A bundle that is refused is not in force, and the program that its fingerprint stands for is
built. One that is imported is served in place of the program. -/
theorem source_of_getOrCompile_crash :
    let refused := [(refusingToolchain, CacheCall.importBundle misnamedBundle)]
    let imported := [(sampleToolchain, CacheCall.importBundle misnamedBundle)]
    (Distinguished (insert crashRequest (requestsOf refused)) ∧
      (∀ bundle, ¬ InForce refused bundle) ∧
      ∃ m, ((empty.run refused).getOrCompile sampleToolchain crashRequest).value.1 = .ok m ∧
        m.name = "crash" ∧ m.source = "crash") ∧
    Distinguished (insert crashRequest (requestsOf imported)) ∧
      InForce imported misnamedBundle ∧
      ∃ m, ((empty.run imported).getOrCompile refusingToolchain crashRequest).value.1 = .ok m ∧
        m.artifact = misnamedBundle.artifact := by
  intro refused imported
  have hrefused : ∀ bundle, ¬ InForce refused bundle := by
    intro bundle hforce
    obtain ⟨-, m, hm⟩ := inForce_singleton_iff.mp hforce
    cases hm
  have himported : InForce imported misnamedBundle :=
    inForce_singleton_iff.mpr ⟨rfl, exists_importBundle_misnamed⟩
  refine ⟨⟨distinguished_crash _, hrefused, ?_⟩, distinguished_crash _, himported, ?_⟩
  · obtain ⟨plain, hplain⟩ := exists_plain_crash
    obtain ⟨m, hserved⟩ := exists_getOrCompile_of_plain hplain
    obtain ⟨-, hown⟩ := source_of_getOrCompile (distinguished_crash _) hserved
    exact ⟨m, hserved, hown fun bundle hforce => (hrefused bundle hforce).elim⟩
  · obtain ⟨m, hget, -⟩ := himported.exists_get?
    have hserved :
        ((empty.run imported).getOrCompile refusingToolchain crashRequest).value.1 = .ok m :=
      getOrCompile_of_get? hget
    obtain ⟨hcarried, -⟩ := source_of_getOrCompile (distinguished_crash _) hserved
    exact ⟨m, hserved, hcarried misnamedBundle himported fingerprint_misnamedBundle⟩

/-- The bundle is read from its own text. Where nothing is kept under its fingerprint it is
imported, and the program that the fingerprint stands for gets it. -/
theorem exists_getOrCompile_misnamed :
    let calls := [(sampleToolchain, CacheCall.importBundle misnamedBundle)]
    Bundle.parse misnamedBundle.toJson.toText = .ok misnamedBundle ∧
      Distinguished (insert crashRequest (requestsOf calls)) ∧
      ∃ m, ((empty.run calls).getOrCompile sampleToolchain crashRequest).value.1 = .ok m ∧
        m.name ≠ crashRequest.name ∧ m.source ≠ crashRequest.source := by
  intro calls
  have himported : InForce calls misnamedBundle :=
    inForce_singleton_iff.mpr ⟨rfl, exists_importBundle_misnamed⟩
  obtain ⟨m, hget, hcarried⟩ := himported.exists_get?
  have hname : m.name = "boom" := congrArg Artifact.name hcarried
  have hsource : m.source = "boom" := congrArg Artifact.source hcarried
  refine ⟨Bundle.parse_toText (by decide), distinguished_crash _, m, getOrCompile_of_get? hget, ?_,
    ?_⟩
  · exact hname.trans_ne (by decide)
  · exact hsource.trans_ne (by decide)

end ModuleCache

end DspHost
