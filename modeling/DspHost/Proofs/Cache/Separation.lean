import DspHost.Proofs.Cache.Identity
import Mathlib.Data.Nat.ModEq

/-!
# Fingerprints separate compilations

Texts stand in the bytes of a digest behind their lengths, so a text may look like anything: like
the mark in front of a class name, like the tag of a memory mode or like a length. Only a text that
is too long for the word in front of it could be taken for another one. The source of an effect is
longer than the source that it was made from, but by the same number of bytes for every source, so
that effects are told apart as far as their instruments are.

## Main definitions

* `Collides` — two messages with the same digest
* `CompileRequest.TextsFit` — every text of a request is shorter than the word in front of it tells

## Main results

* `effectSource_inj` — different programs have different effects
* `CompileRequest.effectCompanion_digested_eq_iff` — when two programs are compiled to one effect
* `CompileRequest.separates` — equal bytes come from equal requests, and so do equal fingerprints
  unless two messages collide
-/

namespace DspHost

/-- Two different messages have the same digest. -/
def Collides (message message' : List UInt8) : Prop :=
  message ≠ message' ∧ sha256 message = sha256 message'

/-! ### The source of an effect -/

/-- The source of an effect is longer than the source of its program by a fixed number of bytes. -/
theorem utf8ByteSize_effectSource (source : String) :
    (effectSource source).utf8ByteSize =
      source.utf8ByteSize + (effectSource "").utf8ByteSize := by
  simp only [effectSource, String.utf8ByteSize_append, String.utf8ByteSize_empty]
  omega

/-- Different programs have different effects. -/
theorem effectSource_inj {source source' : String} (h : effectSource source = effectSource source') :
    source = source' :=
  (String.append_right_inj effectAdapter).mp ((String.append_left_inj _).mp h)

namespace CompileRequest

variable {r r' : CompileRequest}

/-- The source and all arguments, the class name among them, are shorter than the greatest length
that the words in front of them can tell. -/
structure TextsFit (r : CompileRequest) : Prop where
  source : r.source.utf8ByteSize < power 256 8
  argv : ∀ argument ∈ r.argv, argument.utf8ByteSize < power 256 8

/-- The bytes of a request determine the request. -/
theorem digested_eq_iff (h : r.TextsFit) (h' : r'.TextsFit) :
    r.digested = r'.digested ↔ r = r' := by
  refine ⟨fun heq => ?_, congrArg digested⟩
  obtain ⟨hsource, hmode, hargv⟩ := digestInput_inj
    (fun hmod => by rwa [Nat.mod_eq_of_lt h.source, Nat.mod_eq_of_lt h'.source] at hmod)
    h.argv h'.argv heq
  exact eq_of_argv_eq hargv hsource hmode

theorem TextsFit.effectCompanion_argv (h : r.TextsFit) :
    ∀ argument ∈ r.effectCompanion.argv, argument.utf8ByteSize < power 256 8 := by
  intro argument hargument
  rcases List.mem_append.mp hargument with hown | hname
  · exact h.argv argument (List.mem_append_left _ hown)
  · have hmarks : ∀ a ∈ ["-cn", effectClassName], a.utf8ByteSize < power 256 8 := by decide
    exact hmarks argument hname

/-- The effects of two programs are compiled from the same bytes exactly if the programs agree in
all but their names. -/
theorem effectCompanion_digested_eq_iff (h : r.TextsFit) (h' : r'.TextsFit) :
    r.effectCompanion.digested = r'.effectCompanion.digested ↔
      r.source = r'.source ∧ r.mode = r'.mode ∧ r.args = r'.args := by
  constructor
  · intro heq
    -- The lengths of both sources may pass the end of their words, but then by the same amount.
    have hsize : (effectSource r.source).utf8ByteSize % power 256 8 =
        (effectSource r'.source).utf8ByteSize % power 256 8 →
          (effectSource r.source).utf8ByteSize = (effectSource r'.source).utf8ByteSize := by
      rw [utf8ByteSize_effectSource r.source, utf8ByteSize_effectSource r'.source]
      intro hmod
      have hsource : r.source.utf8ByteSize ≡ r'.source.utf8ByteSize [MOD power 256 8] :=
        Nat.ModEq.add_right_cancel' _ hmod
      rw [hsource.eq_of_lt_of_lt h.source h'.source]
    obtain ⟨hsource, hmode, hargv⟩ := digestInput_inj hsize h.effectCompanion_argv
      h'.effectCompanion_argv heq
    exact ⟨effectSource_inj hsource, hmode, List.append_cancel_right hargv⟩
  · rintro ⟨hsource, hmode, hargs⟩
    simp only [digested, argv, effectCompanion, hsource, hmode, hargs]

/-- The bytes that are digested for two requests are the same exactly if the requests are. So equal
fingerprints come from equal requests, unless two messages collide. The bytes for the effects of two
requests are the same exactly if the requests agree in source, memory mode and arguments. -/
theorem separates (h : r.TextsFit) (h' : r'.TextsFit) :
    (r.digested = r'.digested ↔
      r.source = r'.source ∧ r.mode = r'.mode ∧ r.args = r'.args ∧ r.name = r'.name) ∧
    (r.fingerprint = r'.fingerprint → r = r' ∨ Collides r.digested r'.digested) ∧
    (r.effectCompanion.digested = r'.effectCompanion.digested ↔
      r.source = r'.source ∧ r.mode = r'.mode ∧ r.args = r'.args) := by
  refine ⟨?_, fun heq => ?_, effectCompanion_digested_eq_iff h h'⟩
  · rw [digested_eq_iff h h', CompileRequest.mk.injEq]
    tauto
  · by_cases hsame : r = r'
    · exact .inl hsame
    · rw [fingerprint_eq, fingerprint_eq, Fingerprint.mk.injEq] at heq
      exact .inr ⟨fun hbytes => hsame ((digested_eq_iff h h').mp hbytes), heq⟩

/-- A source that looks like the tag of a memory mode, and arguments and class names that look like
the mark in front of a class name. -/
theorem separates_marks :
    let r : CompileRequest := ⟨"-cn", "external_memory", ["-cn", "-I"], .external⟩
    let r' : CompileRequest := ⟨"-I", "external_memory", ["-cn", "-cn"], .external⟩
    r.TextsFit ∧ r'.TextsFit ∧ r.digested ≠ r'.digested ∧
      r.effectCompanion.digested ≠ r'.effectCompanion.digested := by
  intro r r'
  have hr : r.TextsFit := ⟨by decide, by decide⟩
  have hr' : r'.TextsFit := ⟨by decide, by decide⟩
  obtain ⟨hdigested, -, heffect⟩ := separates hr hr'
  exact ⟨hr, hr', fun heq => absurd (hdigested.mp heq).2.2.1 (by decide),
    fun heq => absurd (heffect.mp heq).2.2 (by decide)⟩

end CompileRequest

end DspHost
