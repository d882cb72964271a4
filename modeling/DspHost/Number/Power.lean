/-!
# Powers of natural numbers

The caret stands for whatever power the imported modules prefer. Here it is always the same one.

## Main definitions

* `power` — a power of a natural number

## Main results

* `power_zero`, `power_succ` — its recursion
* `power_eq` — it is the power of the natural numbers
-/

namespace DspHost

/-- A power of a natural number. -/
@[reducible] def power (base exponent : Nat) : Nat :=
  @HPow.hPow Nat Nat Nat (@instHPow Nat Nat (@instPowNat Nat instNatPowNat)) base exponent

theorem power_eq (base exponent : Nat) : power base exponent = Nat.pow base exponent := rfl

theorem power_zero (base : Nat) : power base 0 = 1 := rfl

theorem power_succ (base exponent : Nat) :
    power base (exponent + 1) = power base exponent * base := rfl

theorem power_pos {base : Nat} (h : 0 < base) (exponent : Nat) : 0 < power base exponent :=
  Nat.pow_pos h

end DspHost
