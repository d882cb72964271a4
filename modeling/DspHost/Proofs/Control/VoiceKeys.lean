import DspHost.Proofs.Control.Sources
import DspHost.Proofs.Programs.BuiltOrgan

/-!
# Who writes the inputs of an instrument with voices

With voices, the controls of the instrument that are for a gate, a frequency or a gain are withheld
from the host, because notes write them. What is withheld and what is written are decided apart. A
control is withheld by the end of its path alone; a note writes one control for each key, which is
the first one for it that the walk through the instrument meets, be it an input or a meter. Every
input can be written by somebody if and only if no input for a key comes after another control for
it, and notes write inputs only if and only if no meter comes first.

## Main definitions

* `Binding.isFor` — a control of the instrument that is for a key
* `ParameterTable.Writable` — every input of the instrument is written by the host or by notes
* `ParameterTable.PlaysInputs` — notes write inputs of the instrument
* `ParameterTable.Divides` — who writes which controls of the instrument

## Main results

* `ParameterTable.get?_keys_build` — a key leads to the first control that is for it
* `ParameterTable.divides_build` — who writes which controls in every table with voices
-/

namespace DspHost

/-- Whether a control belongs to the instrument and is for a key. -/
def Binding.isFor (b : Binding) (key : VoiceKey) : Bool :=
  b.scope == .voice && VoiceKey.ofPath? b.path == some key

theorem Binding.isFor_iff {b : Binding} {key : VoiceKey} :
    b.isFor key = true ↔ b.scope = .voice ∧ VoiceKey.ofPath? b.path = some key := by
  simp [isFor]

namespace VoiceKeys

variable {keys : VoiceKeys} {key : VoiceKey} {id : BindingId}

/-- A key that has a binding keeps it. -/
theorem get?_offer_self : (keys.offer key id).get? key = (keys.get? key).or (some id) := by
  cases key <;> simp [offer, get?]

/-- What is offered for one key is not taken for another. -/
theorem get?_offer_of_ne {other : VoiceKey} (h : other ≠ key) :
    (keys.offer key id).get? other = keys.get? other := by
  cases key <;> cases other <;> first | rfl | exact absurd rfl h

end VoiceKeys

namespace ParameterTable

variable {t : ParameterTable} {b : Binding} {id : BindingId} {key : VoiceKey}

/-! ### The controls that notes write -/

/-- A binding that is for a key is taken for it unless the key has one already. -/
theorem get?_keys_push_eq (hpoly : t.polyphonic = true) (b : Binding) (key : VoiceKey) :
    (t.push b).keys.get? key =
      (t.keys.get? key).or (if b.isFor key then some t.bindings.length else none) := by
  rw [push]
  dsimp only
  split
  · next own hscope _ hpath =>
    by_cases hkey : key = own
    · subst hkey
      rw [if_pos (Binding.isFor_iff.mpr ⟨hscope, hpath⟩), VoiceKeys.get?_offer_self]
    · have hother : ¬b.isFor key = true := by
        intro h
        exact hkey (Option.some.inj ((Binding.isFor_iff.mp h).2.symm.trans hpath))
      rw [if_neg hother, Option.or_none, VoiceKeys.get?_offer_of_ne hkey]
  · next hskip =>
    have hother : ¬b.isFor key = true := by
      intro h
      obtain ⟨hscope, hpath⟩ := Binding.isFor_iff.mp h
      exact hskip key hscope hpoly hpath
    rw [if_neg hother, Option.or_none]

/-- A key leads to the first binding that is for it, however many bindings are added. -/
theorem get?_keys_foldl_push (hpoly : t.polyphonic = true)
    (hfirst : t.keys.get? key = t.bindings.findIdx? (·.isFor key)) (bs : List Binding) :
    (bs.foldl push t).keys.get? key = (bs.foldl push t).bindings.findIdx? (·.isFor key) := by
  induction bs generalizing t with
  | nil => exact hfirst
  | cons b rest ih =>
    apply ih
    · exact hpoly
    · change _ = (t.bindings ++ [b]).findIdx? (·.isFor key)
      rw [get?_keys_push_eq hpoly, hfirst, List.findIdx?_append, List.findIdx?_singleton]
      by_cases hb : b.isFor key = true <;> simp [hb]

/-- In every table with voices a key leads to the first control of the instrument for it. -/
theorem get?_keys_build (voice : ModuleMetadata) (effect : Option ModuleMetadata)
    (key : VoiceKey) :
    (build voice effect true).keys.get? key =
      (build voice effect true).bindings.findIdx? (·.isFor key) := by
  have hvoice : (empty true |>.pushTree .voice voice.ui).keys.get? key =
      (empty true |>.pushTree .voice voice.ui).bindings.findIdx? (·.isFor key) := by
    apply get?_keys_foldl_push
    · rfl
    · cases key <;> rfl
  cases effect with
  | none => exact hvoice
  | some effect =>
    apply get?_keys_foldl_push
    · exact polyphonic_foldl_push _ _
    · exact hvoice

/-! ### The controls that a host writes -/

/-- With voices, the controls that belong to them are those for a key. -/
theorem ownedByVoices_iff (hpoly : t.polyphonic = true) :
    t.ownedByVoices b = true ↔ ∃ key, b.isFor key = true := by
  simp [ownedByVoices, hpoly, Binding.isFor, isVoiceKey, Option.isSome_iff_exists]

/-- With voices, a host may write the inputs that are for no key. -/
theorem isAutomatable_iff (hpoly : t.polyphonic = true) (hb : t.get? id = some b) :
    t.isAutomatable id = true ↔ b.isOutput = false ∧ ∀ key, b.isFor key = false := by
  have howned := ownedByVoices_iff (b := b) hpoly
  rw [isAutomatable, hb, Option.any_some, accepts, Bool.and_eq_true, Bool.not_eq_true',
    Bool.not_eq_true', ← Bool.not_eq_true (t.ownedByVoices b), howned]
  simp

/-! ### Every input and somebody who writes it -/

/-- Every input of the instrument is written by the host or by notes. -/
def Writable (t : ParameterTable) : Prop :=
  ∀ id b, t.get? id = some b → b.scope = .voice → b.isOutput = false →
    t.isAutomatable id = true ∨ ∃ key, t.keys.get? key = some id

/-- What notes write are inputs of the instrument. -/
def PlaysInputs (t : ParameterTable) : Prop :=
  ∀ key id, t.keys.get? key = some id →
    ∃ b, t.get? id = some b ∧ b.scope = .voice ∧ b.isOutput = false

/-- Who writes which controls of the instrument. -/
structure Divides (t : ParameterTable) : Prop where
  /-- For each key notes write the first control of the instrument that is for it. -/
  key : ∀ key, t.keys.get? key = t.bindings.findIdx? (·.isFor key)
  /-- The host writes the inputs that are for no key. -/
  automatable : ∀ id b, t.get? id = some b →
    (t.isAutomatable id = true ↔ b.isOutput = false ∧ ∀ key, b.isFor key = false)
  /-- Nothing is written by both. -/
  apart : ∀ key id, t.keys.get? key = some id → t.isAutomatable id = false
  /-- Every input has somebody who writes it if and only if an input for a key is the first control
  for it. -/
  writable_iff : t.Writable ↔ ∀ key id b, t.get? id = some b → b.isFor key = true →
    b.isOutput = false → t.bindings.findIdx? (·.isFor key) = some id
  /-- Notes write inputs only if and only if the first control for a key is no meter. -/
  playsInputs_iff : t.PlaysInputs ↔ ∀ key id b, t.bindings.findIdx? (·.isFor key) = some id →
    t.get? id = some b → b.isOutput = false

/-- The first control for a key is in the table and is for the key. -/
theorem exists_get?_of_findIdx? (h : t.bindings.findIdx? (·.isFor key) = some id) :
    ∃ b, t.get? id = some b ∧ b.isFor key = true := by
  obtain ⟨hlt, hfor, -⟩ := List.findIdx?_eq_some_iff_getElem.mp h
  exact ⟨_, List.getElem?_eq_getElem hlt, hfor⟩

/-- A path is for one key. -/
theorem key_unique {own : VoiceKey} (hown : b.isFor own = true) (hkey : b.isFor key = true) :
    key = own := by
  have hpath := (Binding.isFor_iff.mp hown).2
  exact Option.some.inj ((Binding.isFor_iff.mp hkey).2.symm.trans hpath)

/-- A table with voices whose keys lead to the first controls for them divides the controls of the
instrument. -/
theorem divides_of_keys (hpoly : t.polyphonic = true)
    (hkeys : ∀ key, t.keys.get? key = t.bindings.findIdx? (·.isFor key)) : t.Divides where
  key := hkeys
  automatable _ _ hb := isAutomatable_iff hpoly hb
  apart key id hid := by
    obtain ⟨b, hb, hfor⟩ := exists_get?_of_findIdx? ((hkeys key).symm.trans hid)
    rw [← Bool.not_eq_true, isAutomatable_iff hpoly hb]
    rintro ⟨-, hnone⟩
    rw [hnone key] at hfor
    cases hfor
  writable_iff := by
    constructor
    · intro h key id b hb hfor hinput
      rcases h id b hb (Binding.isFor_iff.mp hfor).1 hinput with hauto | ⟨other, hother⟩
      · have hnone := ((isAutomatable_iff hpoly hb).mp hauto).2 key
        rw [hnone] at hfor
        cases hfor
      · -- The key that leads to the input can only be the one that the input is for.
        rw [hkeys other] at hother
        obtain ⟨c, hc, hforOther⟩ := exists_get?_of_findIdx? hother
        obtain rfl := Option.some.inj (hb.symm.trans hc)
        exact key_unique hfor hforOther ▸ hother
    · intro h id b hb hscope hinput
      by_cases hfor : ∃ key, b.isFor key = true
      · obtain ⟨key, hkey⟩ := hfor
        exact .inr ⟨key, (hkeys key).trans (h key id b hb hkey hinput)⟩
      · refine .inl ((isAutomatable_iff hpoly hb).mpr ⟨hinput, fun key => ?_⟩)
        exact Bool.eq_false_of_not_eq_true fun hkey => hfor ⟨key, hkey⟩
  playsInputs_iff := by
    constructor
    · intro h key id b hid hb
      obtain ⟨c, hc, -, hinput⟩ := h key id ((hkeys key).trans hid)
      exact Option.some.inj (hc.symm.trans hb) ▸ hinput
    · intro h key id hid
      rw [hkeys key] at hid
      obtain ⟨b, hb, hfor⟩ := exists_get?_of_findIdx? hid
      exact ⟨b, hb, (Binding.isFor_iff.mp hfor).1, h key id b hid hb⟩

/-- In every table with voices the host and the notes divide the controls of the instrument. -/
theorem divides_build (voice : ModuleMetadata) (effect : Option ModuleMetadata) :
    (build voice effect true).Divides := by
  apply divides_of_keys
  · exact polyphonic_build voice effect true
  · exact get?_keys_build voice effect

/-- A meter for the gate, and the gate after it. -/
def meteredDescription : String :=
  "\x7b\"name\": \"v\", \"size\": 8, \"inputs\": 0, \"outputs\": 1, \"ui\": [" ++
    "\x7b\"type\": \"hbargraph\", \"label\": \"level\", \"address\": \"/v/level/gate\", " ++
    "\"index\": 0, \"min\": 0, \"max\": 1\x7d, " ++
    "\x7b\"type\": \"button\", \"label\": \"gate\", \"address\": \"/v/gate\", \"index\": 4\x7d]\x7d"

/-- What is made of the description: scope and direction of its controls, whether the host may write
the second one, and what notes write. -/
def meteredSummary (d : ModuleMetadata) : List (Scope × Bool) × Bool × VoiceKeys :=
  let t := build d none true
  (t.bindings.map fun b => (b.scope, b.isOutput), t.isAutomatable 1, t.keys)

/-- Notes write the meter, and nobody writes the gate. -/
theorem exists_parse_not_writable :
    ∃ d, ModuleMetadata.parse meteredDescription = .ok d ∧
      ¬(build d none true).Writable ∧ ¬(build d none true).PlaysInputs := by
  obtain ⟨d, hparse, hsummary⟩ :
      ∃ d, ModuleMetadata.parse meteredDescription = .ok d ∧
        meteredSummary d = ([(.voice, true), (.voice, false)], false, ⟨some 0, none, none⟩) := by
    apply ModuleMetadata.exists_parse_of_map
    · unfold meteredDescription
      repeat' with_reducible apply toList_append_eq
      all_goals exact toList_eq_of_eq rfl
    · decide +kernel
  obtain ⟨hbindings, hrest⟩ := Prod.mk.inj hsummary
  obtain ⟨hauto, hkeys⟩ := Prod.mk.inj hrest
  have hplace (id : BindingId) := congrArg (·[id]?) hbindings
  simp only [List.getElem?_map] at hplace
  refine ⟨d, hparse, fun h => ?_, fun h => ?_⟩
  · -- The gate is an input at the second place.
    obtain ⟨b, hb, hkind⟩ := Option.map_eq_some_iff.mp (hplace 1)
    obtain ⟨hscope, hinput⟩ := Prod.mk.inj hkind
    rcases h 1 b hb hscope hinput with hwritten | ⟨key, hwritten⟩
    · rw [hauto] at hwritten
      cases hwritten
    · rw [hkeys] at hwritten
      cases key <;> cases hwritten
  · -- The meter is at the first place.
    obtain ⟨b, hb, -, hinput⟩ := h .gate 0 (congrArg (·.get? .gate) hkeys)
    obtain ⟨c, hc, hkind⟩ := Option.map_eq_some_iff.mp (hplace 0)
    obtain rfl := Option.some.inj (hb.symm.trans hc)
    exact Bool.noConfusion (hinput.symm.trans (Prod.mk.inj hkind).2)

end ParameterTable

end DspHost
