import DspHost.Inspection
import DspHost.Proofs.Programs.HostedOrgan

/-!
# The inspection and the processor

An inspection makes the plan and the table of a module anew, with a decision of its own about the
effect: it counts the effect whenever there are voices. A processor hosts the effect only if it
reads and writes as many channels as the instrument writes. So the inspection shows the plan and the
table that a processor has exactly if an effect that would be hosted suits; otherwise it shows an
instance and controls that the processor does not have.

## Main definitions

* `CompiledModule.SuitedBy` — every effect that would be hosted suits
* `Inspection.ofCompiled` — the inspection of a module with its effect

## Main results

* `planned_of_attach` — what the processor was planned with
* `Inspection.ofCompiled_eq_ok_iff` — an inspection counts every effect that would be hosted
* `Inspection.shows_iff_of_attach` — when an inspection shows what a processor uses
-/

namespace DspHost

variable {m : CompiledModule} {config : EngineConfig} {s : Session}

/-- Every effect that would be hosted with a number of voices suits. -/
def CompiledModule.SuitedBy (m : CompiledModule) (voices : ℕ) : Prop :=
  ∀ effect, candidateEffect? m voices = some effect → effect.suits m.metadata.outputs = true

theorem CompiledModule.SuitedBy.hostedEffect?_eq {voices : ℕ} (h : m.SuitedBy voices) :
    hostedEffect? m voices = candidateEffect? m voices := by
  cases hcandidate : candidateEffect? m voices with
  | none => rw [hostedEffect?, hcandidate, Option.filter_none]
  | some effect =>
    rw [hostedEffect?, hcandidate, Option.filter_some, if_pos (h effect hcandidate)]

/-- A module that is not suited is hosted without its effect. -/
theorem hostedEffect?_eq_none {voices : ℕ} {effect : PlainModule}
    (hcandidate : candidateEffect? m voices = some effect)
    (hunfit : ¬effect.suits m.metadata.outputs = true) : hostedEffect? m voices = none := by
  rw [hostedEffect?, hcandidate, Option.filter_some, if_neg hunfit]

/-- What the processor was planned with. -/
theorem planned_of_attach (h : (attach m config).value = .ok s) :
    ∃ width, config.width = .ok width ∧
      (layoutFor m.metadata ((hostedEffect? m config.voices).map (·.metadata)) config width).plan =
          .ok s.processor.plan ∧
        s.processor.table = hostedTable m config.voices := by
  rw [value_attach] at h
  obtain ⟨⟨plan, arena⟩, hprepare, rfl⟩ := Except.map_eq_ok_iff.mp h
  simp only [prepare, bind_eq_ok_iff, Except.mapError_eq_ok_iff] at hprepare
  obtain ⟨_, -, width, hwidth, _, hplan, _, -, hdone⟩ := hprepare
  obtain ⟨rfl, -⟩ := Prod.mk.inj (Except.ok.inj hdone)
  exact ⟨width, hwidth, hplan, rfl⟩

namespace Inspection

/-- The inspection of a module with its effect. -/
def ofCompiled (m : CompiledModule) (config : EngineConfig) : Except InspectionError Inspection :=
  ofModule m.metadata (m.effect.map (·.metadata)) config

/-- An inspection counts every effect that would be hosted. -/
theorem ofCompiled_eq_ok_iff {i : Inspection} :
    ofCompiled m config = .ok i ↔ ∃ width plan, config.width = .ok width ∧
      (layoutFor m.metadata ((candidateEffect? m config.voices).map (·.metadata)) config
        width).plan = .ok plan ∧
      i = ⟨m.metadata, (candidateEffect? m config.voices).map (·.metadata), plan,
        .build m.metadata ((candidateEffect? m config.voices).map (·.metadata))
          (Polyphony.ofRequested config.voices).isPoly⟩ := by
  have hcounted : (m.effect.map (·.metadata)).filter
      (fun _ => (Polyphony.ofRequested config.voices).isPoly) =
        (candidateEffect? m config.voices).map (·.metadata) := by
    unfold candidateEffect?
    cases m.effect <;> cases (Polyphony.ofRequested config.voices).isPoly <;> rfl
  simp only [ofCompiled, ofModule, bind_eq_ok_iff, Except.mapError_eq_ok_iff, hcounted]
  constructor
  · rintro ⟨width, hwidth, plan, hplan, hi⟩
    exact ⟨width, plan, hwidth, hplan, (Except.ok.inj hi).symm⟩
  · rintro ⟨width, plan, hwidth, hplan, rfl⟩
    exact ⟨width, hwidth, plan, hplan, rfl⟩

/-- An inspection shows the plan and the table that a processor has exactly if every effect that
would be hosted suits. Then its text is made of them. -/
theorem shows_iff_of_attach (h : (attach m config).value = .ok s) :
    (∃ i, ofCompiled m config = .ok i ∧ i.plan = s.processor.plan ∧ i.table = s.processor.table ∧
      i.lines = [moduleLine m.metadata] ++ planLines s.processor.plan ++ [""] ++
        tableLines s.processor.table) ↔ m.SuitedBy config.voices := by
  obtain ⟨width, hwidth, hplan, htable⟩ := planned_of_attach h
  constructor
  · rintro ⟨i, hi, hsame, -, -⟩ effect hcandidate
    by_contra hunfit
    obtain ⟨width', plan, -, hplan', rfl⟩ := ofCompiled_eq_ok_iff.mp hi
    obtain rfl : plan = s.processor.plan := hsame
    -- The same plan cannot have been made with an effect and without one.
    have hinspected := (LayoutRequest.answeredBy_of_plan hplan').effect
    have hhosted := (LayoutRequest.answeredBy_of_plan hplan).effect
    have hpoly := (LayoutRequest.answeredBy_of_plan hplan).polyphony
    obtain ⟨hvoices, -⟩ := Option.ite_none_right_eq_some.mp hcandidate
    rw [hhosted, hpoly] at hinspected
    simp [layoutFor, hcandidate, hostedEffect?_eq_none hcandidate hunfit, hvoices] at hinspected
  · intro hsuited
    rw [hsuited.hostedEffect?_eq] at hplan
    rw [hostedTable, hsuited.hostedEffect?_eq] at htable
    refine ⟨_, ofCompiled_eq_ok_iff.mpr ⟨width, _, hwidth, hplan, rfl⟩, rfl, htable.symm, ?_⟩
    rw [htable]
    rfl

/-- With eight voices the organ is suited by its volume, and its inspection shows its processor. -/
theorem shows_iff_of_attach_organ : ∃ s i, (attach organModule organConfig).value = .ok s ∧
    ofCompiled organModule organConfig = .ok i ∧ i.plan = s.processor.plan ∧
      i.table = s.processor.table := by
  obtain ⟨plan, arena, hattach, -⟩ := attach_organ
  obtain ⟨i, hi, hplan, htable, -⟩ := (shows_iff_of_attach hattach).mpr fun effect heffect => by
    obtain rfl : organVolume = effect := Option.some.inj heffect
    rfl
  exact ⟨_, i, hattach, hi, hplan, htable⟩

/-! ### An effect that does not suit -/

/-- The organ with a volume for two channels. -/
def unfitOrgan : CompiledModule :=
  { organModule with
    effect := some { organVolume with
      metadata := { organVolumeMetadata with inputs := 2, outputs := 2 } } }

/-- The organ with the unfit volume is hosted like the organ without a volume. -/
theorem attach_unfitOrgan : ∃ plan arena,
    (attach unfitOrgan organConfig).value = .ok (connect unfitOrgan organConfig plan arena) ∧
      plan.used = 1320 := by
  have halone : organModule.alone.IsOrgan :=
    ⟨rfl, rfl, fun _ he => (Option.some_ne_none _ he.symm).elim⟩
  obtain ⟨plan, hplan, hroom, hused⟩ : ∃ plan, (layoutFor Organ.metadata none organConfig
      .four).plan = .ok plan ∧ plan.arenaSize < power 256 plan.pointerWidth.bytes ∧
        plan.used = 1320 :=
    ⟨_, rfl, by decide, by decide⟩
  obtain ⟨arena, hattach⟩ := exists_attach (m := unfitOrgan) (by decide) rfl hplan hroom
    (halone.minds hplan organConfig.sampleRate)
  exact ⟨plan, arena, hattach, hused⟩

/-- A processor for the organ with the unfit volume has no effect, but the inspection has one. -/
theorem exists_ofCompiled_ne : ∃ s i, (attach unfitOrgan organConfig).value = .ok s ∧
    ofCompiled unfitOrgan organConfig = .ok i ∧ i.plan.used ≠ s.processor.plan.used ∧
      i.table.size ≠ s.processor.table.size := by
  obtain ⟨plan, arena, hattach, hused⟩ := attach_unfitOrgan
  refine ⟨_, _, hattach, rfl, ?_, ?_⟩
  · change _ ≠ plan.used
    rw [hused]
    decide
  · change _ ≠ (hostedTable unfitOrgan organConfig.voices).size
    decide

end Inspection

end DspHost
