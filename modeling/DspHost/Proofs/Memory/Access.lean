import DspHost.Memory.Arena
import Mathlib

/-!
# Reasoning about code over an arena

Code either ends with a value or stops at its first fault. A run of code that is put together is
taken apart here into runs of its parts, forwards for code that is known to have ended and
backwards for code that is to be shown to end.

## Main definitions

* `Access.Ends` — code ends, and something holds of its value and of the arena it leaves

## Main results

* `Access.run_bind_eq_ok_iff` — what ended consists of parts that ended
* `Access.Ends.bind`, `Access.Ends.forEach` — what consists of parts that end, ends
* `Access.forEach_establishes` — code for every item establishes something of every item
* `Access.run_forEach_eq_foldl` — code for every item does what a fold does
-/

namespace DspHost.Access

variable {α β ι : Type} {a b c : Arena} {code : Access α} {next : α → Access β}

/-! ### Runs that have ended -/

theorem run_bind (code : Access α) (next : α → Access β) (a : Arena) :
    (code >>= next).run a =
      match code.run a with
      | (.ok v, b) => (next v).run b
      | (.error fault, b) => (.error fault, b) := by
  change ExceptT.bindCont next (code a).1 (code a).2 = _
  unfold run
  rcases code a with ⟨_ | _, _⟩ <;> rfl

/-- What ended consists of parts that ended. -/
theorem run_bind_eq_ok_iff {w : β} :
    (code >>= next).run a = (.ok w, c) ↔
      ∃ v b, code.run a = (.ok v, b) ∧ (next v).run b = (.ok w, c) := by
  rw [run_bind]
  constructor
  · intro h
    rcases hcode : code.run a with ⟨fault | v, b⟩
    · rw [hcode] at h
      cases h
    · rw [hcode] at h
      exact ⟨v, b, rfl, h⟩
  · rintro ⟨v, b, hcode, hnext⟩
    rw [hcode]
    exact hnext

theorem run_forEach_cons_eq_ok_iff {code : ι → Access Unit} {item : ι} {rest : List ι} :
    (forEach code (item :: rest)).run a = (.ok (), c) ↔
      ∃ b, (code item).run a = (.ok (), b) ∧ (forEach code rest).run b = (.ok (), c) := by
  rw [forEach, run_bind_eq_ok_iff]
  exact ⟨fun ⟨_, b, h⟩ => ⟨b, h⟩, fun ⟨b, h⟩ => ⟨(), b, h⟩⟩

/-- Code for every item of a list establishes something of every item, if code for one item
establishes it there and keeps it elsewhere. -/
theorem forEach_establishes {code : ι → Access Unit} {items : List ι} (invariant : Arena → Prop)
    (property : ι → Arena → Prop)
    (step : ∀ item ∈ items, ∀ b c, invariant b → (code item).run b = (.ok (), c) →
      invariant c ∧ property item c ∧ ∀ other, property other b → property other c)
    (h : invariant a) (hrun : (forEach code items).run a = (.ok (), c)) :
    invariant c ∧ (∀ item ∈ items, property item c) ∧
      ∀ other, property other a → property other c := by
  induction items generalizing a with
  | nil =>
    obtain rfl : a = c := (Prod.mk.inj hrun).2
    exact ⟨h, by simp, fun _ => id⟩
  | cons item rest ih =>
    obtain ⟨b, hitem, hrest⟩ := run_forEach_cons_eq_ok_iff.mp hrun
    obtain ⟨hb, hestablished, hkept⟩ := step item List.mem_cons_self a b h hitem
    obtain ⟨hc, hall, hkept'⟩ :=
      ih (fun other hother => step other (List.mem_cons_of_mem item hother)) hb hrest
    refine ⟨hc, fun other hother => ?_, fun other => hkept' other ∘ hkept other⟩
    rcases List.mem_cons.mp hother with rfl | hother
    · exact hkept' other hestablished
    · exact hall other hother

/-- Code for every item does in one run what a fold does, if code for one item does what one step of
the fold does in every arena that the steps lead to. -/
theorem run_forEach_eq_foldl {code : ι → Access Unit} {step : Arena → ι → Arena} {items : List ι}
    (invariant : Arena → Prop)
    (h : ∀ item ∈ items, ∀ b, invariant b →
      (code item).run b = (.ok (), step b item) ∧ invariant (step b item))
    (ha : invariant a) :
    (forEach code items).run a = (.ok (), items.foldl step a) ∧ invariant (items.foldl step a) := by
  induction items generalizing a with
  | nil => exact ⟨rfl, ha⟩
  | cons item rest ih =>
    obtain ⟨hrun, hnext⟩ := h item List.mem_cons_self a ha
    have hlater : ∀ other ∈ rest, ∀ b, invariant b →
        (code other).run b = (.ok (), step b other) ∧ invariant (step b other) :=
      fun other hother => h other (List.mem_cons_of_mem item hother)
    obtain ⟨hrest, hlast⟩ := ih hlater hnext
    exact ⟨run_forEach_cons_eq_ok_iff.mpr ⟨_, hrun, hrest⟩, hlast⟩

/-! ### Runs that have to end -/

/-- The code ends without a fault, and something holds of its value and of the arena it leaves. -/
def Ends (code : Access α) (a : Arena) (post : α → Arena → Prop) : Prop :=
  ∃ v b, code.run a = (.ok v, b) ∧ post v b

namespace Ends

variable {post post' : α → Arena → Prop} {final : β → Arena → Prop}

theorem mono (h : code.Ends a post) (himp : ∀ v b, post v b → post' v b) : code.Ends a post' := by
  obtain ⟨v, b, hrun, hpost⟩ := h
  exact ⟨v, b, hrun, himp v b hpost⟩

theorem of_run {v : α} (hrun : code.run a = (.ok v, b)) (h : post v b) : code.Ends a post :=
  ⟨v, b, hrun, h⟩

/-- There is only one way to end. -/
theorem post_of_run (h : code.Ends a post) {v : α} (hrun : code.run a = (.ok v, b)) :
    post v b := by
  obtain ⟨v', b', hrun', hpost⟩ := h
  rw [hrun] at hrun'
  obtain ⟨hv, rfl⟩ := Prod.mk.inj hrun'
  obtain rfl := Except.ok.inj hv
  exact hpost

/-- What consists of parts that end, ends. -/
theorem bind (h : code.Ends a fun v b => (next v).Ends b final) :
    (code >>= next).Ends a final := by
  obtain ⟨v, b, hcode, w, c, hnext, hfinal⟩ := h
  exact ⟨w, c, run_bind_eq_ok_iff.mpr ⟨v, b, hcode, hnext⟩, hfinal⟩

theorem pure {v : α} (h : post v a) : (Pure.pure v : Access α).Ends a post := ⟨v, a, rfl, h⟩

theorem change {write : Arena → Arena} {post : Unit → Arena → Prop} (h : post () (write a)) :
    (Access.change write).Ends a post := ⟨(), write a, rfl, h⟩

/-- Zeroing ends if the range lies in the arena. -/
theorem zero {address length : ℕ} {post : Unit → Arena → Prop} (hinside : address + length ≤ a.size)
    (h : post () (a.writeBytes address (List.replicate length 0))) :
    (Access.zero address length).Ends a post := by
  have hfits : a.fits address length = true := decide_eq_true hinside
  exact of_run (if_pos hfits) h

/-- Code for every item ends if code for one does and keeps what it needs. -/
theorem forEach {code : ι → Access Unit} {items : List ι} {invariant : Arena → Prop}
    (step : ∀ item ∈ items, ∀ b, invariant b → (code item).Ends b fun _ c => invariant c)
    (h : invariant a) : (Access.forEach code items).Ends a fun _ c => invariant c := by
  induction items generalizing a with
  | nil => exact pure h
  | cons item rest ih =>
    refine bind ((step item List.mem_cons_self a h).mono fun _ b hb => ?_)
    exact ih (fun other hother => step other (List.mem_cons_of_mem item hother)) hb

/-! ### Single accesses -/

/-- Loading ends inside the arena. -/
theorem loadSingle {address : ℕ} {post : Single → Arena → Prop} (hinside : address + 4 ≤ a.size)
    (h : post (a.sample address) a) : (Access.loadSingle address).Ends a post := by
  have hfits : a.fits address 4 = true := decide_eq_true hinside
  have hload : a.loadSingle address = .ok (a.sample address) := by
    rw [Arena.loadSingle, Arena.load32, if_pos hfits]
    rfl
  exact of_run (congrArg (·, a) hload) h

/-- Storing ends inside the arena. -/
theorem storeSingle {address : ℕ} {value : Single} {post : Unit → Arena → Prop}
    (hinside : address + 4 ≤ a.size) (h : post () (a.setSample address value)) :
    (Access.storeSingle address value).Ends a post := by
  have hfits : a.fits address 4 = true := decide_eq_true hinside
  exact of_run (if_pos hfits) h

/-- Storing a pointer ends if the arena accepts it. -/
theorem storePointer {address value : ℕ} {post : Unit → Arena → Prop}
    (haccepts : a.acceptsPointer address value = true)
    (h : post () (a.setWord address a.pointerWidth.bytes value)) :
    (Access.storePointer address value).Ends a post :=
  of_run (if_pos haccepts) h

/-- Loading a pointer ends where there is one. -/
theorem loadPointer {address target : ℕ} {post : ℕ → Arena → Prop}
    (hpointer : a.loadPointer address = .ok target) (h : post target a) :
    (Access.loadPointer address).Ends a post :=
  of_run (congrArg (·, a) hpointer) h

/-- Looking a channel up ends where its word is a pointer. -/
theorem channel {table index target : ℕ} {post : ℕ → Arena → Prop}
    (hpointer : a.loadPointer (table + index * a.pointerWidth.bytes) = .ok target)
    (h : post target a) : (Access.channel table index).Ends a post :=
  of_run (congrArg (·, a) hpointer) h

end Ends

end DspHost.Access
