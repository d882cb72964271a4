/-!
# Hexadecimal texts

Digests, sample patterns and message bytes are shown in lowercase hexadecimal, two digits a byte.

## Main definitions

* `hexDigit` — the digit for a number below sixteen
* `hexText` — a number in a fixed number of digits
* `bytesHex` — the bytes of a block, without separators
* `hexValue?` — the value of a digit, in either case
-/

namespace DspHost

/-- The lowercase digit for a number below sixteen. -/
def hexDigit (n : Nat) : Char := "0123456789abcdef".toList.getD n '0'

/-- The last `width` hexadecimal digits of a number. -/
def hexText : Nat → Nat → List Char
  | 0, _ => []
  | width + 1, n => hexText width (n / 16) ++ [hexDigit (n % 16)]

/-- Two digits for every byte. -/
def bytesHex (bytes : List UInt8) : String :=
  String.ofList (bytes.flatMap fun b => hexText 2 b.toNat)

/-- The value of a hexadecimal digit in either case. -/
def hexValue? (c : Char) : Option Nat :=
  if c.isDigit then some (c.toNat - '0'.toNat)
  else if 'a' ≤ c ∧ c ≤ 'f' then some (c.toNat - 'a'.toNat + 10)
  else if 'A' ≤ c ∧ c ≤ 'F' then some (c.toNat - 'A'.toNat + 10)
  else none

@[simp] theorem length_hexText (width n : Nat) : (hexText width n).length = width := by
  induction width generalizing n with
  | zero => rfl
  | succ width ih => simp [hexText, ih]

example : bytesHex [0, 0x1f, 0xff] = "001fff" := by decide

end DspHost
