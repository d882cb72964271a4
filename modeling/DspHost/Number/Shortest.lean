import DspHost.Number.Decimal

/-!
# Shortest decimal texts

A finite value is written with the fewest digits that read back as the same value. The reals that
round to a pattern form an interval between the midpoints to its two neighbours; among the decimal
grids `10 ^ k`, from coarse to fine, the first that has a point in the interval gives the digits. If
any point of a grid lies in the interval, then so does one of the two grid points next to the value,
so only those two are tested.

How the digits are laid out is a matter of the text they appear in: `Layout` lists the choices.

## Main definitions

* `Rounding` — the value of a pattern and the interval that rounds to it, in one power of two
* `Single.shortest` — the digits
* `Layout` — where the plain form ends, what marks an exponent, how special values are spelled
* `Single.literal?`, `Single.written` — the literal and the text of a value under a layout
* `Layout.plain`, `Layout.diagnostic`, `Layout.document` — the three layouts in use
-/

namespace DspHost

/-- The reals that round to one value: the ends and the value itself, as multiples of
`2 ^ exponent`. -/
structure Rounding where
  /-- The midpoint to the neighbour below. -/
  low : Nat
  /-- The value. -/
  value : Nat
  /-- The midpoint to the neighbour above. -/
  high : Nat
  /-- The power of two that the three are multiples of. -/
  exponent : Int
  /-- Whether the midpoints themselves round to the value. -/
  closed : Bool
  deriving DecidableEq, Repr

namespace Rounding

/-- The interval of a positive finite pattern. Below a power of two the neighbour is half as far as
above it, except at the bottom of the format. -/
def ofPattern (f : Format) (pattern : Nat) : Rounding :=
  -- In quarters of the last bit both midpoints are whole numbers.
  let s := f.decode pattern
  let narrow := pattern % power 2 f.fractionBits = 0 ∧ power 2 f.fractionBits < pattern
  { low := 4 * s.mantissa - if narrow then 1 else 2
    value := 4 * s.mantissa
    high := 4 * s.mantissa + 2
    exponent := s.exponent - 2
    closed := pattern % 2 = 0 }

/-- The factor from grid points `10 ^ k` to the common scale of a comparison. -/
def gridScale (r : Rounding) (k : Int) : Nat := power 2 (-r.exponent).toNat * power 10 k.toNat

/-- The factor from multiples of `2 ^ exponent` to the common scale of a comparison. -/
def ownScale (r : Rounding) (k : Int) : Nat := power 2 r.exponent.toNat * power 10 (-k).toNat

/-- Whether `n * 10 ^ k` rounds to the value. -/
def contains (r : Rounding) (k : Int) (n : Nat) : Bool :=
  let point := n * r.gridScale k
  let low := r.low * r.ownScale k
  let high := r.high * r.ownScale k
  if r.closed then low ≤ point && point ≤ high else low < point && point < high

/-- Where to go from a value halfway between two grid points. -/
inductive Tie where
  /-- To the greater one. -/
  | up
  /-- To the one with an even last digit. -/
  | toEven
  deriving DecidableEq, Repr

/-- The grid point on `10 ^ k` next to the value that rounds to it, the nearer one of two. -/
def onGrid? (r : Rounding) (tie : Tie) (k : Int) : Option Nat :=
  let scaled := r.value * r.ownScale k
  let unit := r.gridScale k
  let below := scaled / unit
  let above := below + 1
  match r.contains k below, r.contains k above with
  | false, false => none
  | true, false => some below
  | false, true => some above
  | true, true =>
    match compare (2 * (scaled % unit)) unit, tie with
    | .lt, _ => some below
    | .gt, _ => some above
    | .eq, .up => some above
    | .eq, .toEven => some (if below % 2 = 0 then below else above)

/-- The first grid with a hit, from `10 ^ top` down over at most `steps` finer ones. -/
def search (r : Rounding) (tie : Tie) : Nat → Int → Decimal
  | 0, k => ⟨r.value * r.ownScale k / r.gridScale k, k⟩
  | steps + 1, k =>
    match r.onGrid? tie k with
    | some n => ⟨n, k⟩
    | none => r.search tie steps (k - 1)

end Rounding

/-- The fewest digits that read back as the absolute value of a finite single. -/
def Single.shortest (x : Single) (tie : Rounding.Tie) : Decimal :=
  if x.magnitude = 0 then ⟨0, 0⟩
  else Decimal.normalize 10 ((Rounding.ofPattern Format.single x.magnitude.toNat).search tie 90 39)

/-! ### Layouts -/

/-- How numbers are laid out in a text. -/
structure Layout where
  /-- The powers of ten of the leading digit from which on, and up to which, no exponent is used;
  `none` for a text without exponents. -/
  plainRange : Option (Int × Int)
  /-- Whether a whole number ends in `.0`. -/
  pointZero : Bool
  /-- The mark in front of an exponent that is not negative. -/
  positiveMark : String
  /-- Which way a value halfway between two candidates goes. -/
  tie : Rounding.Tie
  /-- The spelling of a value that is no number. -/
  nan : String
  /-- The spelling of infinity, and whether it carries a sign. -/
  infinity : String × Bool
  deriving Repr

namespace Layout

/-- Console texts: the digits around a point, never an exponent. -/
def plain : Layout := ⟨none, false, "", .up, "NaN", ("inf", true)⟩

/-- Diagnostics: a point or an exponent always shows that the number is no integer. -/
def diagnostic : Layout := ⟨some (-4, 15), true, "", .up, "NaN", ("inf", true)⟩

/-- Documents: values that the format cannot hold become `null`. -/
def document : Layout := ⟨some (-6, 12), true, "+", .toEven, "null", ("null", false)⟩

/-- Digits scaled by a power of ten, around a point. -/
def positional (l : Layout) (negative : Bool) (d : Decimal) : Literal :=
  let digits := decimalDigits d.coefficient
  if 0 ≤ d.exponent then
    ⟨negative, digits ++ List.replicate d.exponent.toNat 0, if l.pointZero then [0] else [], none⟩
  else
    -- Zeros in front of the digits leave at least one of them before the point.
    let places := (-d.exponent).toNat
    let padded := List.replicate (places + 1 - digits.length) 0 ++ digits
    ⟨negative, padded.take (padded.length - places), padded.drop (padded.length - places), none⟩

/-- Digits with the point after the first one, and the power of ten behind them. -/
def scientific (negative : Bool) (d : Decimal) : Literal :=
  let digits := decimalDigits d.coefficient
  let power := d.exponent + (digits.length - 1 : Nat)
  ⟨negative, digits.take 1, digits.drop 1, some ⟨power < 0, power.natAbs⟩⟩

/-- The literal of a value given by its digits. -/
def literal (l : Layout) (negative : Bool) (d : Decimal) : Literal :=
  match l.plainRange with
  | none => l.positional negative d
  | some (least, most) =>
    let power := d.exponent + ((decimalDigits d.coefficient).length - 1 : Nat)
    if d.coefficient = 0 ∨ (least ≤ power ∧ power ≤ most) then l.positional negative d
    else scientific negative d

end Layout

/-- The literal of a finite single under a layout; the other values have none. -/
def Single.literal? (l : Layout) (x : Single) : Option Literal :=
  if x.isFinite then some (l.literal x.isNegative (x.shortest l.tie)) else none

/-- The text of a single under a layout. -/
def Single.written (l : Layout) (x : Single) : String :=
  match x.literal? l with
  | some literal => String.ofList (literal.text l.positiveMark.toList)
  | none =>
    if x.isNaN then l.nan
    else if l.infinity.2 && x.isNegative then "-" ++ l.infinity.1
    else l.infinity.1

/-! ### Written values -/

example : Single.written .document ⟨0x3dcccccd⟩ = "0.1" := by cbv

example : Single.written .diagnostic ⟨0x5a0e1bca⟩ = "1e16" := by cbv

example : Single.written .plain ⟨0x80000000⟩ = "-0" := by cbv

example : Single.written .diagnostic ⟨0x00000001⟩ = "1e-45" := by cbv

end DspHost
