import DspHost.Proofs.Cache.Provenance

/-!
# What the cache tells an operator

The text of a notice is only put together when the notice is shown, so that the level an operator
has chosen decides whether it is needed at all. Where it is needed and there is none, the operation
does not come back. Notices about modules name them by the first twelve bytes of their fingerprint,
and these are no text exactly when the twelfth byte lies inside a character. A digest has none that
takes more than a byte. A bundle may carry any text for a fingerprint, and every text is carried by
some document; with most of them nothing happens, but a cut one stops the import at the level of
milestones, and stops dropping the module at the level of decisions.

## Main definitions

* `LogLevel`, `LogLevel.Shows` — how much is shown
* `Noted.Returns` — an operation comes back at a level
* `Fingerprint.Cut` — the twelfth byte lies inside a character
* `ModuleCache.Answers` — a call comes back at a level

## Main results

* `takeBytes?_eq_none_iff` — when the first bytes of a text are no text
* `ModuleCache.returns_importBundle_iff`, `ModuleCache.returns_evict_iff` — when an import and an
  eviction come back
* `ModuleCache.answers_of_uncut` — without cut fingerprints every call comes back
* `ModuleCache.bundle_returns_iff` — which bundles stop a cache
-/

namespace DspHost

/-! ### Levels -/

/-- How much an operator wants to read. -/
inductive LogLevel where
  /-- Nothing. -/
  | off
  /-- Failures. -/
  | error
  /-- Losses as well. -/
  | warn
  /-- Milestones as well. -/
  | info
  /-- Decisions as well. -/
  | debug
  /-- Everything. -/
  | trace
  deriving DecidableEq, Repr

/-- The more is shown, the higher the level. -/
def LogLevel.rank : LogLevel → ℕ
  | off => 0
  | error => 1
  | warn => 2
  | info => 3
  | debug => 4
  | trace => 5

/-- The level that shows a severity and nothing less urgent. -/
def Severity.level : Severity → LogLevel
  | warn => .warn
  | info => .info
  | debug => .debug
  | trace => .trace

/-- What is shown at a level. -/
def LogLevel.Shows (level : LogLevel) (s : Severity) : Prop := s.level.rank ≤ level.rank

instance (level : LogLevel) (s : Severity) : Decidable (level.Shows s) :=
  inferInstanceAs (Decidable (_ ≤ _))

/-- An operation comes back at a level: what is shown of its notices has a line. -/
def Noted.Returns {α : Type} (level : LogLevel) (x : Noted α) : Prop :=
  ∀ n ∈ x.notices, level.Shows n.severity → n.line?.isSome

namespace Noted

variable {α β : Type} {level : LogLevel}

@[simp] theorem returns_pure (x : α) : (pure x : Noted α).Returns level := by
  intro n hn
  cases hn

/-- Two operations come back if each of them does. -/
@[simp] theorem returns_bind {x : Noted α} {f : α → Noted β} :
    (x >>= f).Returns level ↔ x.Returns level ∧ (f x.value).Returns level :=
  List.forall_mem_append

@[simp] theorem returns_note {n : Notice} :
    (note n).Returns level ↔ (level.Shows n.severity → n.line?.isSome) :=
  List.forall_mem_singleton

end Noted

/-! ### The first bytes of a text -/

/-- The number of bytes that characters take. -/
def byteLength (text : List Char) : ℕ := (text.map Char.utf8Size).sum

@[simp] theorem byteLength_nil : byteLength [] = 0 := rfl

@[simp] theorem byteLength_cons (c : Char) (text : List Char) :
    byteLength (c :: text) = c.utf8Size + byteLength text := rfl

/-- The first bytes of a text are no text exactly if they end within a character. -/
theorem takeBytes?_eq_none_iff {count : ℕ} {text : List Char} :
    takeBytes? count text = none ↔ ∃ front c back, text = front ++ c :: back ∧
      byteLength front < count ∧ count < byteLength front + c.utf8Size := by
  induction text generalizing count with
  | nil => simp [takeBytes?]
  | cons first rest ih =>
    rw [takeBytes?]
    split
    · next hzero => simp [hzero]
    split
    · next hzero hfits =>
      -- The first character is taken whole, so the cut is in the rest.
      rw [Option.map_eq_none_iff, ih]
      constructor
      · rintro ⟨front, c, back, rfl, hbefore, hwithin⟩
        refine ⟨first :: front, c, back, rfl, ?_, ?_⟩ <;> rw [byteLength_cons] <;> omega
      · rintro ⟨_ | ⟨_, front⟩, c, back, htext, hbefore, hwithin⟩
        · obtain ⟨rfl, rfl⟩ := List.cons.inj htext
          rw [byteLength_nil] at hwithin
          omega
        · obtain ⟨rfl, rfl⟩ := List.cons.inj htext
          rw [byteLength_cons] at hbefore hwithin
          exact ⟨front, c, back, rfl, by omega, by omega⟩
    · next hzero hfits =>
      refine iff_of_true rfl ⟨[], first, rest, rfl, ?_, ?_⟩ <;> rw [byteLength_nil] <;> omega

/-- Characters of one byte are never cut. -/
theorem takeBytes?_of_bytes {text : List Char} (h : ∀ c ∈ text, c.utf8Size = 1) (count : ℕ) :
    takeBytes? count text = some (text.take count) := by
  induction text generalizing count with
  | nil => simp [takeBytes?]
  | cons first rest ih =>
    obtain ⟨hfirst, hrest⟩ := List.forall_mem_cons.mp h
    cases count with
    | zero => simp [takeBytes?]
    | succ count => simp [takeBytes?, hfirst, ih hrest]

/-! ### Fingerprints -/

/-- The digits of a number take a byte each. -/
theorem utf8Size_of_mem_hexText {width n : ℕ} {c : Char} (h : c ∈ hexText width n) :
    c.utf8Size = 1 := by
  have hdigit : ∀ d < 16, (hexDigit d).utf8Size = 1 := by decide
  induction width generalizing n with
  | zero => cases h
  | succ width ih =>
    rcases List.mem_append.mp h with hfront | hlast
    · exact ih hfront
    · rw [List.mem_singleton.mp hlast]
      exact hdigit _ (Nat.mod_lt n (by decide))

namespace Fingerprint

/-- The twelfth byte lies inside a character. -/
def Cut (f : Fingerprint) : Prop :=
  ∃ front c back, f.text.toList = front ++ c :: back ∧
    byteLength front < 12 ∧ 12 < byteLength front + c.utf8Size

theorem short?_eq_none_iff {f : Fingerprint} : f.short? = none ↔ f.Cut := by
  rw [short?, Option.map_eq_none_iff, takeBytes?_eq_none_iff]
  rfl

theorem isSome_short?_iff {f : Fingerprint} : f.short?.isSome ↔ ¬ f.Cut := by
  rw [← short?_eq_none_iff, Option.isSome_iff_ne_none]

/-- A digest is named by its first twelve digits. -/
theorem short?_compute (source : String) (mode : MemoryMode) (args : List String) :
    (compute source mode args).short? =
      some (String.ofList ((compute source mode args).text.toList.take 12)) := by
  have hdigits : ∀ c ∈ (compute source mode args).text.toList, c.utf8Size = 1 := by
    intro c hc
    rw [compute, sha256, String.toList_ofList] at hc
    obtain ⟨word, -, hword⟩ := List.mem_flatMap.mp hc
    exact utf8Size_of_mem_hexText hword
  rw [short?, takeBytes?_of_bytes hdigits, Option.map_some]

theorem not_cut_compute (source : String) (mode : MemoryMode) (args : List String) :
    ¬ (compute source mode args).Cut := by
  rw [← isSome_short?_iff, short?_compute]
  rfl

end Fingerprint

namespace ModuleCache

variable {c : ModuleCache} {tools : Toolchain} {level : LogLevel} {b : Bundle} {f : Fingerprint}
  {calls : List (Toolchain × CacheCall)}

/-! ### Calls that come back -/

/-- An effect that is dropped is reported with a text of its own. -/
theorem returns_importEffectOf : (c.importEffectOf tools b).Returns level := by
  unfold importEffectOf
  split
  · unfold importEffect
    split
    · exact Noted.returns_pure _
    · split
      · exact Noted.returns_pure _
      · exact Noted.returns_bind.mpr
          ⟨Noted.returns_note.mpr fun _ => rfl, Noted.returns_pure _⟩
  · exact Noted.returns_pure _

/-- A line that names a fingerprint is missing if the fingerprint is cut. -/
theorem isSome_line?_imported {name : String} :
    (Notice.imported name f).line?.isSome ↔ ¬ f.Cut := by
  rw [Notice.line?, Notice.message?, Option.isSome_map, Option.isSome_map,
    Fingerprint.isSome_short?_iff]

theorem isSome_line?_evicted {name : String} :
    (Notice.evicted name f).line?.isSome ↔ ¬ f.Cut := by
  rw [Notice.line?, Notice.message?, Option.isSome_map, Option.isSome_map,
    Fingerprint.isSome_short?_iff]

/-- An import comes back unless it builds a module under a cut fingerprint and milestones are
shown. -/
theorem returns_importBundle_iff : (c.importBundle tools b).Returns level ↔
    ¬ (b.artifact.fingerprint.Cut ∧ level.Shows .info ∧ c.get? b.artifact.fingerprint = none ∧
      ∃ m, (c.importBundle tools b).value.1 = .ok m) := by
  unfold importBundle
  split
  · next m hkept => simp [hkept]
  · next habsent =>
    rcases hbuild : c.build tools b.artifact with ⟨error | plain, c'⟩
    · simp
    · have hkey : plain.fingerprint = b.artifact.fingerprint := by
        have hcarried := artifact_of_build (congrArg Prod.fst hbuild)
        exact congrArg Artifact.fingerprint hcarried
      simp only [Noted.returns_bind, returns_importEffectOf, Noted.returns_note,
        Noted.returns_pure, isSome_line?_imported, Noted.value_bind, Noted.value_pure, habsent,
        hkey, true_and, and_true, Except.ok.injEq, exists_eq', not_and]
      exact forall_comm

/-- An eviction comes back unless it drops a module under a cut fingerprint and decisions are
shown. -/
theorem returns_evict_iff : (c.evict f).Returns level ↔
    ¬ (f.Cut ∧ level.Shows .debug ∧ c.contains f = true) := by
  unfold evict contains
  split
  · next habsent => simp [habsent]
  · next m hkept =>
    simp only [Noted.returns_bind, Noted.returns_note, Noted.returns_pure, isSome_line?_evicted,
      hkept, Option.isSome_some, and_true, not_and]
    exact forall_comm

/-- A request comes back at every level, as it is reported by its digest. -/
theorem returns_getOrCompile (r : CompileRequest) : (c.getOrCompile tools r).Returns level := by
  have hshort : r.fingerprint.short?.isSome :=
    Fingerprint.isSome_short?_iff.mpr (Fingerprint.not_cut_compute _ _ _)
  have heffect : ∀ c : ModuleCache, (c.compileEffect tools r).Returns level := by
    intro c
    unfold compileEffect
    repeat' split
    · exact Noted.returns_pure _
    · exact Noted.returns_pure _
    · exact Noted.returns_bind.mpr ⟨Noted.returns_note.mpr fun _ => rfl, Noted.returns_pure _⟩
  unfold getOrCompile
  split
  · simp [Notice.line?, Notice.message?, hshort]
  · unfold compileWhole
    split
    · exact Noted.returns_pure _
    · simp [Notice.line?, Notice.message?, hshort, heffect]

/-- A call comes back at a level. -/
def Answers (c : ModuleCache) (level : LogLevel) (tools : Toolchain) : CacheCall → Prop
  | .getOrCompile r => (c.getOrCompile tools r).Returns level
  | .importBundle bundle => (c.importBundle tools bundle).Returns level
  | .exportBundle _ => True
  | .evict fingerprint => (c.evict fingerprint).Returns level
  | .clear => True

/-- Fingerprints that no bundle brings are digests, and are not cut. -/
theorem not_cut_of_mem_entries
    (huncut : ∀ tools b, (tools, .importBundle b) ∈ calls → ¬ b.artifact.fingerprint.Cut) :
    ∀ entry ∈ (empty.run calls).entries, ¬ entry.1.Cut := by
  intro entry hentry
  obtain ⟨before, tools, call, after, hcalls, hputs, -⟩ := mem_entries_run_iff.mp hentry
  have hcall : (tools, call) ∈ calls := by simp [hcalls]
  cases call with
  | getOrCompile r =>
    obtain ⟨hidentified, -, -⟩ := hputs
    rw [← hidentified]
    exact Fingerprint.not_cut_compute _ _ _
  | importBundle bundle =>
    obtain ⟨hidentified, -, -⟩ := hputs
    rw [← hidentified]
    exact huncut tools bundle hcall
  | exportBundle _ => exact hputs.elim
  | evict _ => exact hputs.elim
  | clear => exact hputs.elim

/-- In a session whose bundles have no cut fingerprints, every call comes back. -/
theorem answers_of_uncut {call : Toolchain × CacheCall}
    (huncut : ∀ tools b, (tools, .importBundle b) ∈ calls ++ [call] →
      ¬ b.artifact.fingerprint.Cut) :
    (empty.run calls).Answers level call.1 call.2 := by
  obtain ⟨tools, call⟩ := call
  cases call with
  | getOrCompile r => exact returns_getOrCompile r
  | importBundle bundle =>
    have hbundle := huncut tools bundle (by simp)
    exact returns_importBundle_iff.mpr fun h => hbundle h.1
  | exportBundle fingerprint => trivial
  | evict fingerprint =>
    rw [Answers, returns_evict_iff]
    rintro ⟨hcut, -, hkept⟩
    obtain ⟨m, hget⟩ := Option.isSome_iff_exists.mp hkept
    have hearlier : ∀ tools b, (tools, .importBundle b) ∈ calls →
        ¬ b.artifact.fingerprint.Cut := by
      intro tools b hb
      exact huncut tools b (List.mem_append_left _ hb)
    exact not_cut_of_mem_entries hearlier _ (mem_of_lookup hget) hcut
  | clear => trivial

/-- Every text is the fingerprint of a bundle that some document spells. In every cache and at every
level, importing a bundle comes back unless its fingerprint is cut, milestones are shown, and the
module is built; dropping it comes back unless its fingerprint is cut, decisions are shown, and the
module is there. The fingerprint has a short form exactly if it is not cut. -/
theorem bundle_returns_iff (level : LogLevel) :
    (∀ f : Fingerprint, ∃ text b, Bundle.parse text = .ok b ∧ b.artifact.fingerprint = f) ∧
      ∀ b : Bundle,
        (b.artifact.fingerprint.short? = none ↔ b.artifact.fingerprint.Cut) ∧
        ∀ c : ModuleCache,
          (∀ tools, (c.importBundle tools b).Returns level ↔
            ¬ (b.artifact.fingerprint.Cut ∧ level.Shows .info ∧
              c.get? b.artifact.fingerprint = none ∧
              ∃ m, (c.importBundle tools b).value.1 = .ok m)) ∧
          ((c.evict b.artifact.fingerprint).Returns level ↔
            ¬ (b.artifact.fingerprint.Cut ∧ level.Shows .debug ∧
              c.contains b.artifact.fingerprint = true)) := by
  constructor
  · intro f
    let b : Bundle := .alone { (default : Artifact) with fingerprint := f }
    exact ⟨b.toJson.toText, b, Bundle.parse_toText (by simp [b, Bundle.nesting, Json.deepest]), rfl⟩
  · intro b
    refine ⟨Fingerprint.short?_eq_none_iff, fun c => ⟨fun tools => ?_, ?_⟩⟩
    · exact returns_importBundle_iff
    · exact returns_evict_iff

/-! ### A cut fingerprint -/

/-- A text whose twelfth byte is the first of two. -/
def cutFingerprint : Fingerprint := ⟨"aaaaaaaaaaaé"⟩

theorem cut_cutFingerprint : cutFingerprint.Cut :=
  ⟨List.replicate 11 'a', 'é', [], by decide, by decide, by decide⟩

/-- A bundle that carries a sample program under a cut fingerprint. -/
def cutBundle : Bundle :=
  .alone ⟨cutFingerprint, "crash", "crash".toUTF8.toList, "crash", crashDescription⟩

/-- The bundle is read from its own text. It has no short fingerprint; importing it to an empty
cache at the level of milestones does not come back, and where it was imported quietly, dropping it
at the level of decisions does not. -/
theorem exists_not_returns_cutBundle :
    ∃ text, Bundle.parse text = .ok cutBundle ∧
      cutBundle.artifact.fingerprint.short? = none ∧
      ¬ (empty.importBundle sampleToolchain cutBundle).Returns .info ∧
      (empty.importBundle sampleToolchain cutBundle).Returns .off ∧
      ¬ ((empty.run [(sampleToolchain, .importBundle cutBundle)]).evict
        cutBundle.artifact.fingerprint).Returns .debug := by
  obtain ⟨plain, hbuild⟩ := exists_build_crash cutFingerprint "crash" "crash" empty.built
  obtain ⟨m, himported⟩ : ∃ m, (empty.importBundle sampleToolchain cutBundle).value.1 = .ok m :=
    exists_importBundle_of_build hbuild
  have hkept : (empty.run [(sampleToolchain, .importBundle cutBundle)]).contains
      cutBundle.artifact.fingerprint = true := by
    have habsent : empty.get? cutBundle.artifact.fingerprint = none := rfl
    have hgained := importBundle_gained (Set.mem_singleton sampleToolchain) habsent
    rw [himported] at hgained
    rw [contains, get?, run_cons, act, run, List.foldl_nil, hgained.entries]
    exact congrArg Option.isSome List.lookup_cons_self
  refine ⟨_, Bundle.parse_toText (by decide),
    Fingerprint.short?_eq_none_iff.mpr cut_cutFingerprint, ?_, ?_, ?_⟩
  · rw [returns_importBundle_iff, not_not]
    exact ⟨cut_cutFingerprint, by decide, rfl, m, himported⟩
  · rw [returns_importBundle_iff]
    rintro ⟨-, hshown, -⟩
    exact absurd hshown (by decide)
  · rw [returns_evict_iff, not_not]
    exact ⟨cut_cutFingerprint, by decide, hkept⟩

end ModuleCache

end DspHost
