import Mathlib.Data.List.Forall2
import Mathlib.Tactic.Common

/-!
# Outcomes

What planning, building and attaching do is a chain of steps any of which can fail. A chain has
ended well exactly if each of its steps has.

## Main results

* `bind_eq_ok_iff`, `Except.mapError_eq_ok_iff`, `Except.map_eq_ok_iff`,
  `Except.toOption_eq_some_iff` — steps that ended well
* `mapM_eq_some_of_forall₂` — the same step for every item of a list
-/

namespace DspHost

variable {ε ε' α β : Type} {x : Except ε α} {a : α} {b : β}

theorem bind_eq_ok_iff {f : α → Except ε β} : (x >>= f) = .ok b ↔ ∃ a, x = .ok a ∧ f a = .ok b := by
  cases x <;> simp [bind, Except.bind]

theorem Except.mapError_eq_ok_iff {f : ε → ε'} : x.mapError f = .ok a ↔ x = .ok a := by
  cases x <;> simp [Except.mapError]

theorem Except.map_eq_ok_iff {f : α → β} : x.map f = .ok b ↔ ∃ a, x = .ok a ∧ f a = b := by
  cases x <;> simp [Except.map]

theorem Except.toOption_eq_some_iff : x.toOption = some a ↔ x = .ok a := by
  cases x <;> simp [Except.toOption]

theorem mapM_eq_some_of_forall₂ {f : α → Option β} {xs : List α} {ys : List β}
    (h : List.Forall₂ (fun x y => f x = some y) xs ys) : xs.mapM f = some ys := by
  induction h with
  | nil => rfl
  | cons hx _ ih =>
    rw [List.mapM_cons, hx, ih]
    rfl

end DspHost
