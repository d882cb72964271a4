import DspHost.Number.Single

/-!
# Powers of two

`Single.exp2 x` is two to the power `x`. The exponent is split as `k / 32 + r` with `k` the nearest
integer, so that `r` is at most `1 / 64`. The power of `k / 32` is an entry of a table, shifted by
the whole part; the power of `r` is a cubic in double precision. One rounding to single precision
follows. The result is within 0.51 units of the last place.

## Main definitions

* `exp2Roots` — the doubles nearest to `2 ^ (i / 32)`
* `Single.exp2`
-/

namespace DspHost

/-- The patterns of the doubles nearest to `2 ^ (i / 32)`, for `i` below 32. -/
def exp2Roots : Array UInt64 := #[
  0x3ff0000000000000, 0x3ff059b0d3158574, 0x3ff0b5586cf9890f, 0x3ff11301d0125b51,
  0x3ff172b83c7d517b, 0x3ff1d4873168b9aa, 0x3ff2387a6e756238, 0x3ff29e9df51fdee1,
  0x3ff306fe0a31b715, 0x3ff371a7373aa9cb, 0x3ff3dea64c123422, 0x3ff44e086061892d,
  0x3ff4bfdad5362a27, 0x3ff5342b569d4f82, 0x3ff5ab07dd485429, 0x3ff6247eb03a5585,
  0x3ff6a09e667f3bcd, 0x3ff71f75e8ec5f74, 0x3ff7a11473eb0187, 0x3ff82589994cce13,
  0x3ff8ace5422aa0db, 0x3ff93737b0cdc5e5, 0x3ff9c49182a3f090, 0x3ffa5503b23e255d,
  0x3ffae89f995ad3ad, 0x3ffb7f76f2fb5e47, 0x3ffc199bdd85529c, 0x3ffcb720dcef9069,
  0x3ffd5818dcfba487, 0x3ffdfc97337b9b5f, 0x3ffea4afa2a490da, 0x3fff50765b6e4540]

/-- The cubic that approximates `2 ^ r` for `r` at most `1 / 64` away from zero. -/
def exp2Cubic (r : Float) : Float :=
  let high := Float.ofBits 0x3fac6af84b912394 * r + Float.ofBits 0x3fcebfce50fac4f3
  let low := Float.ofBits 0x3fe62e42ff0c52d6 * r + 1
  high * (r * r) + low

/-- An exact binary value as a double. -/
def Scaled.toFloat (negative : Bool) (s : Scaled) : Float :=
  let pattern := (Format.double.ofScaled s).toUInt64
  Float.ofBits (if negative then 0x8000000000000000 ||| pattern else pattern)

/-- Two to the power of a finite exponent between -150 and 128. -/
def Single.exp2Between (x : Single) : Single :=
  let s := x.scaled
  -- `k` is the integer nearest to `32 * x`, and `beyond` is what `32 * x` has more than that.
  let numerator := 32 * s.numerator
  let nearest := divideToEven numerator s.denominator
  let k : Int := if x.isNegative then -nearest else nearest
  let beyond : Int := (numerator : Int) - nearest * s.denominator
  let negative := x.isNegative != decide (beyond < 0)
  let rest := Scaled.toFloat negative ⟨beyond.natAbs, min s.exponent 0 - 5⟩
  let root := Float.ofBits (exp2Roots.getD (k % 32).toNat 0)
  let power := Format.double.decode (exp2Cubic rest * root).toBits.toNat
  Single.ofScaled false ⟨power.mantissa, power.exponent + k / 32⟩

/-- Two to the power `x`. -/
def Single.exp2 (x : Single) : Single :=
  if x.isNaN then x.quiet
  else if !x.less ⟨0x43000000⟩ then .infinity
  else if x.less ⟨0xc3160000⟩ then .zero
  else x.exp2Between

end DspHost
