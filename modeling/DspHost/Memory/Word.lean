import DspHost.Number.Power

/-!
# Little-endian words

A word is stored least significant byte first.

## Main definitions

* `wordBytes` — the bytes of a number
* `wordValue` — the number that bytes spell

## Main results

* `wordValue_wordBytes` — reading back what was spelled out gives the number, up to its width
-/

namespace DspHost

/-- The lowest `count` bytes of a number, least significant first. -/
def wordBytes : Nat → Nat → List UInt8
  | 0, _ => []
  | count + 1, n => n.toUInt8 :: wordBytes count (n / 256)

/-- The number that bytes spell, least significant first. -/
def wordValue : List UInt8 → Nat
  | [] => 0
  | b :: rest => b.toNat + 256 * wordValue rest

@[simp] theorem length_wordBytes (count n : Nat) : (wordBytes count n).length = count := by
  induction count generalizing n with
  | zero => rfl
  | succ count ih => simp [wordBytes, ih]

theorem wordValue_wordBytes (count n : Nat) :
    wordValue (wordBytes count n) = n % power 256 count := by
  induction count generalizing n with
  | zero => simp [wordBytes, wordValue, Nat.mod_one]
  | succ count ih =>
    have hbyte : n.toUInt8.toNat = n % 256 := by simp
    rw [wordBytes, wordValue, ih, hbyte, power_succ, Nat.mul_comm (power 256 count), Nat.mod_mul]

theorem wordValue_lt (bytes : List UInt8) : wordValue bytes < power 256 bytes.length := by
  induction bytes with
  | nil => simp [wordValue]
  | cons b rest ih =>
    have hb := b.toNat_lt
    rw [wordValue, List.length_cons, power_succ]
    omega

end DspHost
