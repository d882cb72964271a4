import DspHost.Control.Table
import DspHost.Proofs.Number.Arithmetic

/-!
# Messages and the range of a control

A message sets a control to a share of its range: the value of the message is divided by the
greatest one, multiplied by the width of the range, and the least value of the range is added. Each
step is rounded, and rounding keeps the order. So greater messages never set smaller values, the
lowest one sets the least value of the range, and the highest one sets what the width and the least
value add up to. That sum is where the values end. It is not always the greatest value of the range:
a width that had to be rounded may lead past it or stop short of it, and a width that is too great
for the format is infinite, which leaves no number for the lowest message and no finite one for the
others.

## Main definitions

* `Single.share`, `Single.spread` — the share of a message, and what it sets
* `Binding.LandsIn` — the values that messages set lie in a range and reach its ends

## Main results

* `Single.spread_mono` — greater shares do not set smaller values
* `Binding.landsIn_of_isFinite` — where the values of a control end
* `Binding.landsIn_iff` — which controls have their values land in their own range
-/

namespace DspHost

namespace Single

variable {s t low width : Single} {n last : ℕ}

/-! ### Shares -/

/-- The share of a range that a message asks for. -/
def share (n last : ℕ) : Single := (ofNat n - zero) / (ofNat last - zero)

/-- Subtracting zero changes nothing that counts. -/
theorem sub_zero_spec (hn : n < 2 ^ 24) :
    (ofNat n - zero).isFinite = true ∧ (ofNat n - zero).value = n := by
  obtain ⟨hfinite, hvalue⟩ := value_ofNat hn
  obtain ⟨hzero, hnull⟩ := value_ofNat (n := 0) (by decide)
  rw [show ofNat 0 = zero by decide] at hzero hnull
  have hdifference := rounds_sub hfinite hzero
  have hrank : (ofNat n - zero).rank = (ofNat n).rank :=
    hdifference.rank_eq_rank (rounds_self hfinite) (by rw [hnull, Nat.cast_zero, sub_zero])
  constructor
  · rw [isFinite_iff_abs_rank_lt, hrank]
    exact isFinite_iff_abs_rank_lt.mp hfinite
  · rw [value, hrank]
    exact hvalue

theorem rounds_share (hn : n ≤ last) (hpos : 0 < last) (hlast : last < 2 ^ 24) :
    (share n last).Rounds (n / last) := by
  obtain ⟨hnumerator, hvalue⟩ := sub_zero_spec (hn.trans_lt hlast)
  obtain ⟨hdenominator, hvalue'⟩ := sub_zero_spec hlast
  have hdivisor : (ofNat last - zero).value ≠ 0 := by
    rw [hvalue']
    exact_mod_cast hpos.ne'
  have h := rounds_div hnumerator hdenominator hdivisor
  rw [hvalue, hvalue'] at h
  exact h

/-- A share lies between nothing and everything. -/
theorem between_share (hn : n ≤ last) (hpos : 0 < last) (hlast : last < 2 ^ 24) :
    (share n last).Between zero one := by
  have hposq : (0 : ℚ) < last := by exact_mod_cast hpos
  refine (rounds_share hn hpos hlast).between rounds_zero rounds_one (by positivity) ?_
  rw [div_le_one hposq]
  exact_mod_cast hn

/-- Greater messages have no smaller shares. -/
theorem rank_share_le {n' : ℕ} (hn : n ≤ n') (hn' : n' ≤ last) (hpos : 0 < last)
    (hlast : last < 2 ^ 24) : (share n last).rank ≤ (share n' last).rank := by
  have hposq : (0 : ℚ) < last := by exact_mod_cast hpos
  refine (rounds_share (hn.trans hn') hpos hlast).rank_le_rank (rounds_share hn' hpos hlast) ?_
  exact div_le_div_of_nonneg_right (by exact_mod_cast hn) hposq.le

theorem rank_share_zero (hpos : 0 < last) (hlast : last < 2 ^ 24) : (share 0 last).rank = 0 := by
  have h := (rounds_share (Nat.zero_le last) hpos hlast).rank_eq_rank rounds_zero
    (by rw [Nat.cast_zero, zero_div])
  exact h.trans (by decide)

theorem rank_share_last (hpos : 0 < last) (hlast : last < 2 ^ 24) :
    (share last last).rank = one.rank := by
  have hposq : (last : ℚ) ≠ 0 := by exact_mod_cast hpos.ne'
  exact (rounds_share le_rfl hpos hlast).rank_eq_rank rounds_one (div_self hposq)

/-- Only the lowest message has no share. -/
theorem rank_share_pos (hn : n ≤ last) (hpos : 0 < n) (hlast : last < 2 ^ 24) :
    0 < (share n last).rank := by
  -- The share is not below the least positive single.
  have hleast : (⟨1⟩ : Single).value = 2 ^ (-149 : ℤ) := by
    have h := Format.single.value_eq (j := 0) (s := 1) (.inl rfl) (by decide)
    rw [Nat.cast_one, one_mul] at h
    exact h
  have hlastq : (0 : ℚ) < last := by exact_mod_cast hpos.trans_le hn
  have hshare : (⟨1⟩ : Single).value ≤ n / last := by
    rw [hleast, le_div_iff₀ hlastq]
    calc (2 : ℚ) ^ (-149 : ℤ) * last ≤ 2 ^ (-149 : ℤ) * 2 ^ 24 :=
          mul_le_mul_of_nonneg_left (by exact_mod_cast hlast.le) (by positivity)
      _ ≤ 1 := by norm_num
      _ ≤ n := by exact_mod_cast hpos
  have hrank : (⟨1⟩ : Single).rank ≤ (share n last).rank :=
    (rounds_self (by decide)).rank_le_rank (rounds_share hn (hpos.trans_le hn) hlast) hshare
  exact lt_of_lt_of_le (by decide) hrank

/-! ### Values -/

/-- The value that a share of a range sets. -/
def spread (low width share : Single) : Single := share * width + low

section Spread

variable (hlow : low.isFinite = true) (hwidth : width.isFinite = true) (hpos : 0 ≤ width.rank)

include hwidth hpos in
/-- A share of a width lies between nothing and the width. -/
theorem between_mul (hs : s.Between zero one) : (s * width).Between zero width := by
  have hfinite := hs.isFinite (by decide) (by decide)
  have hnonneg : 0 ≤ s.value := value_zero ▸ value_le_value_iff.mpr hs.above
  have hone : s.value ≤ 1 := value_one ▸ value_le_value_iff.mpr hs.below
  have hwidthValue : 0 ≤ width.value := value_zero ▸ value_le_value_iff.mpr hpos
  exact (rounds_mul hfinite hwidth).between rounds_zero (rounds_self hwidth)
    (mul_nonneg hnonneg hwidthValue) (mul_le_of_le_one_left hwidthValue hone)

include hlow hwidth hpos

/-- What is set lies between the least value and what the width adds to it. -/
theorem between_spread (hs : s.Between zero one) :
    (spread low width s).Between low (width + low) := by
  have hmul := between_mul hwidth hpos hs
  have habove : 0 ≤ (s * width).value := value_zero ▸ value_le_value_iff.mpr hmul.above
  have hbelow : (s * width).value ≤ width.value := value_le_value_iff.mpr hmul.below
  exact (rounds_add (hmul.isFinite (by decide) hwidth) hlow).between (rounds_self hlow)
    (rounds_add hwidth hlow) (by linarith) (by linarith)

/-- Greater shares do not set smaller values. -/
theorem spread_mono (hs : s.Between zero one) (ht : t.Between zero one) (h : s.rank ≤ t.rank) :
    (spread low width s).rank ≤ (spread low width t).rank := by
  have hsmul := (between_mul hwidth hpos hs).isFinite (by decide) hwidth
  have htmul := (between_mul hwidth hpos ht).isFinite (by decide) hwidth
  have hwidthValue : 0 ≤ width.value := value_zero ▸ value_le_value_iff.mpr hpos
  have hmul : (s * width).rank ≤ (t * width).rank :=
    (rounds_mul (hs.isFinite (by decide) (by decide)) hwidth).rank_le_rank
      (rounds_mul (ht.isFinite (by decide) (by decide)) hwidth)
      (mul_le_mul_of_nonneg_right (value_le_value_iff.mpr h) hwidthValue)
  exact (rounds_add hsmul hlow).rank_le_rank (rounds_add htmul hlow)
    (add_le_add_left (value_le_value_iff.mpr hmul) _)

/-- No share sets the least value. -/
theorem rank_spread_zero (hs : s.Between zero one) (h : s.rank = 0) :
    (spread low width s).rank = low.rank := by
  have hmul := between_mul hwidth hpos hs
  have hnull : (s * width).rank = zero.rank := by
    have hvalue : s.value = 0 := value_zero ▸ value_eq_of_rank_eq h
    exact (rounds_mul (hs.isFinite (by decide) (by decide)) hwidth).rank_eq_rank rounds_zero
      (by rw [hvalue, zero_mul])
  refine (rounds_add (hmul.isFinite (by decide) hwidth) hlow).rank_eq_rank (rounds_self hlow) ?_
  rw [value_eq_of_rank_eq hnull, value_zero, zero_add]

/-- The whole share adds the width to the least value. -/
theorem rank_spread_one (hs : s.Between zero one) (h : s.rank = one.rank) :
    (spread low width s).rank = (width + low).rank := by
  have hmul := between_mul hwidth hpos hs
  have hwhole : (s * width).rank = width.rank := by
    have hvalue : s.value = 1 := value_one ▸ value_eq_of_rank_eq h
    exact (rounds_mul (hs.isFinite (by decide) (by decide)) hwidth).rank_eq_rank
      (rounds_self hwidth) (by rw [hvalue, one_mul])
  refine (rounds_add (hmul.isFinite (by decide) hwidth) hlow).rank_eq_rank
    (rounds_add hwidth hlow) ?_
  rw [value_eq_of_rank_eq hwhole]

end Spread

end Single

/-! ### Controls -/

namespace Binding

variable {b : Binding}

/-- The values that messages set lie in a range and reach its ends. -/
structure LandsIn (b : Binding) (low high : Single) : Prop where
  controller : ∀ value : UInt8, value ≤ 127 → (b.remapController value).Between low high
  wheel : ∀ value : UInt16, value ≤ 16383 → (b.remapWheel value).Between low high
  controllerLeast : (b.remapController 0).same low = true
  controllerGreatest : (b.remapController 127).same high = true
  wheelLeast : (b.remapWheel 0).same low = true
  wheelGreatest : (b.remapWheel 16383).same high = true

theorem remapController_eq (b : Binding) (value : UInt8) :
    b.remapController value = .spread b.min (b.max - b.min) (.share value.toNat 127) := rfl

theorem remapWheel_eq (b : Binding) (value : UInt16) :
    b.remapWheel value = .spread b.min (b.max - b.min) (.share value.toNat 16383) := rfl

/-- A width is rounded from what is no less than nothing. -/
theorem rank_width_nonneg (hmin : b.min.isFinite = true) (hmax : b.max.isFinite = true)
    (hle : b.max.less b.min = false) :
    (b.max - b.min).isNaN = false ∧ 0 ≤ (b.max - b.min).rank := by
  have hwidth := Single.rounds_sub hmax hmin
  have hranks : b.min.rank ≤ b.max.rank := by
    simpa [Single.less, Single.isNaN_of_isFinite hmin, Single.isNaN_of_isFinite hmax] using hle
  have hnonneg : 0 ≤ b.max.value - b.min.value :=
    sub_nonneg.mpr (Single.value_le_value_iff.mpr hranks)
  exact ⟨hwidth.isNumber, Single.rounds_zero.rank_le_rank hwidth hnonneg⟩

/-- With a finite width the values end where the width leads to. -/
theorem landsIn_of_isFinite (hmin : b.min.isFinite = true) (hmax : b.max.isFinite = true)
    (hle : b.max.less b.min = false) (hwidth : (b.max - b.min).isFinite = true) :
    b.LandsIn b.min (b.max - b.min + b.min) := by
  obtain ⟨-, hpos⟩ := rank_width_nonneg hmin hmax hle
  have hbetween {n last : ℕ} (hn : n ≤ last) (hlast : 0 < last ∧ last < 2 ^ 24) :
      (Single.spread b.min (b.max - b.min) (.share n last)).Between b.min
        (b.max - b.min + b.min) :=
    Single.between_spread hmin hwidth hpos (Single.between_share hn hlast.1 hlast.2)
  have hleast {last : ℕ} (hlast : 0 < last ∧ last < 2 ^ 24) :
      (Single.spread b.min (b.max - b.min) (.share 0 last)).same b.min = true :=
    Single.same_iff.mpr ⟨(hbetween (Nat.zero_le last) hlast).isNumber,
      Single.isNaN_of_isFinite hmin,
      Single.rank_spread_zero hmin hwidth hpos
        (Single.between_share (Nat.zero_le last) hlast.1 hlast.2)
        (Single.rank_share_zero hlast.1 hlast.2)⟩
  have hgreatest {last : ℕ} (hlast : 0 < last ∧ last < 2 ^ 24) :
      (Single.spread b.min (b.max - b.min) (.share last last)).same
        (b.max - b.min + b.min) = true :=
    Single.same_iff.mpr ⟨(hbetween le_rfl hlast).isNumber,
      (Single.rounds_add hwidth hmin).isNumber,
      Single.rank_spread_one hmin hwidth hpos (Single.between_share le_rfl hlast.1 hlast.2)
        (Single.rank_share_last hlast.1 hlast.2)⟩
  constructor
  · intro value hvalue
    rw [remapController_eq]
    exact hbetween (UInt8.le_iff_toNat_le.mp hvalue) (by decide)
  · intro value hvalue
    rw [remapWheel_eq]
    exact hbetween (UInt16.le_iff_toNat_le.mp hvalue) (by decide)
  · exact hleast (by decide)
  · exact hgreatest (by decide)
  · exact hleast (by decide)
  · exact hgreatest (by decide)

/-- With an infinite width the lowest message sets no number, and all others set infinity. -/
structure Overflows (b : Binding) : Prop where
  controllerLeast : (b.remapController 0).isNaN = true
  controller : ∀ value : UInt8, 0 < value → value ≤ 127 → b.remapController value = .infinity
  wheelLeast : (b.remapWheel 0).isNaN = true
  wheel : ∀ value : UInt16, 0 < value → value ≤ 16383 → b.remapWheel value = .infinity

theorem overflows_of_not_isFinite (hmin : b.min.isFinite = true) (hmax : b.max.isFinite = true)
    (hle : b.max.less b.min = false) (hwidth : (b.max - b.min).isFinite = false) :
    b.Overflows := by
  obtain ⟨hnumber, hpos⟩ := rank_width_nonneg hmin hmax hle
  have hinfinite := Single.eq_infinity hnumber hwidth hpos
  have hfinite {n last : ℕ} (hn : n ≤ last) (hlast : 0 < last ∧ last < 2 ^ 24) :
      (Single.share n last).isFinite = true :=
    (Single.between_share hn hlast.1 hlast.2).isFinite (by decide) (by decide)
  have hleast {last : ℕ} (hlast : 0 < last ∧ last < 2 ^ 24) :
      (Single.spread b.min (b.max - b.min) (.share 0 last)).isNaN = true := by
    rw [Single.spread, hinfinite]
    exact Single.isNaN_add (Single.isNaN_mul_infinity (hfinite (Nat.zero_le last) hlast)
      (Single.rank_share_zero hlast.1 hlast.2))
  have hothers {n last : ℕ} (hn : n ≤ last) (hn' : 0 < n) (hlast : last < 2 ^ 24) :
      Single.spread b.min (b.max - b.min) (.share n last) = .infinity := by
    rw [Single.spread, hinfinite, Single.mul_infinity (hfinite hn ⟨hn'.trans_le hn, hlast⟩)
      (Single.rank_share_pos hn hn' hlast), Single.infinity_add hmin]
  constructor
  · exact hleast (by decide)
  · intro value hpos hvalue
    rw [remapController_eq]
    exact hothers (UInt8.le_iff_toNat_le.mp hvalue) (UInt8.lt_iff_toNat_lt.mp hpos) (by decide)
  · exact hleast (by decide)
  · intro value hpos hvalue
    rw [remapWheel_eq]
    exact hothers (UInt16.le_iff_toNat_le.mp hvalue) (UInt16.lt_iff_toNat_lt.mp hpos) (by decide)

/-- With a finite width greater messages do not set smaller values. -/
theorem rank_remap_le (hmin : b.min.isFinite = true) (hmax : b.max.isFinite = true)
    (hle : b.max.less b.min = false) (hwidth : (b.max - b.min).isFinite = true) :
    (∀ v w : UInt8, v ≤ w → w ≤ 127 → (b.remapController v).rank ≤ (b.remapController w).rank) ∧
      ∀ v w : UInt16, v ≤ w → w ≤ 16383 → (b.remapWheel v).rank ≤ (b.remapWheel w).rank := by
  obtain ⟨-, hpos⟩ := rank_width_nonneg hmin hmax hle
  have hmono {n n' last : ℕ} (hn : n ≤ n') (hn' : n' ≤ last) (hlast : 0 < last ∧ last < 2 ^ 24) :
      (Single.spread b.min (b.max - b.min) (.share n last)).rank ≤
        (Single.spread b.min (b.max - b.min) (.share n' last)).rank :=
    Single.spread_mono hmin hwidth hpos (Single.between_share (hn.trans hn') hlast.1 hlast.2)
      (Single.between_share hn' hlast.1 hlast.2) (Single.rank_share_le hn hn' hlast.1 hlast.2)
  constructor
  · intro v w hvw hw
    rw [remapController_eq, remapController_eq]
    exact hmono (UInt8.le_iff_toNat_le.mp hvw) (UInt8.le_iff_toNat_le.mp hw) (by decide)
  · intro v w hvw hw
    rw [remapWheel_eq, remapWheel_eq]
    exact hmono (UInt16.le_iff_toNat_le.mp hvw) (UInt16.le_iff_toNat_le.mp hw) (by decide)

/-- Where the values end at a number that equals the greatest value, they land in the range. -/
theorem LandsIn.congr {low high high' : Single} (h : b.LandsIn low high)
    (hsame : high.same high' = true) : b.LandsIn low high' := by
  obtain ⟨-, hnumber, hrank⟩ := Single.same_iff.mp hsame
  have hbetween {x : Single} (hx : x.Between low high) : x.Between low high' :=
    ⟨hx.isNumber, hx.above, hrank ▸ hx.below⟩
  have hend {x : Single} (hx : x.same high = true) : x.same high' = true := by
    obtain ⟨hx, -, hxrank⟩ := Single.same_iff.mp hx
    exact Single.same_iff.mpr ⟨hx, hnumber, hxrank.trans hrank⟩
  exact {
    controller := fun value hvalue => hbetween (h.controller value hvalue)
    wheel := fun value hvalue => hbetween (h.wheel value hvalue)
    controllerLeast := h.controllerLeast
    controllerGreatest := hend h.controllerGreatest
    wheelLeast := h.wheelLeast
    wheelGreatest := hend h.wheelGreatest }

/-- A width that needs no rounding leads to the greatest value. -/
theorem landsIn_of_exact (hmin : b.min.isFinite = true) (hmax : b.max.isFinite = true)
    (hle : b.max.less b.min = false) (hwidth : (b.max - b.min).isFinite = true)
    (hexact : (b.max - b.min).value = b.max.value - b.min.value) : b.LandsIn b.min b.max := by
  have hsum := Single.rounds_add hwidth hmin
  refine (landsIn_of_isFinite hmin hmax hle hwidth).congr (Single.same_iff.mpr ?_)
  refine ⟨hsum.isNumber, Single.isNaN_of_isFinite hmax, ?_⟩
  exact hsum.rank_eq_rank (Single.rounds_self hmax) (by rw [hexact, sub_add_cancel])

/-- The values that messages set land in the range of a control if and only if its width, rounded,
leads from its least to its greatest value. A finite width leads to where the values end; with an
infinite one they are no finite numbers at all. -/
theorem landsIn_iff (hmin : b.min.isFinite = true) (hmax : b.max.isFinite = true)
    (hle : b.max.less b.min = false) :
    (b.LandsIn b.min b.max ↔ (b.max - b.min + b.min).same b.max = true) ∧
      ((b.max - b.min).isFinite = true → b.LandsIn b.min (b.max - b.min + b.min)) ∧
      ((b.max - b.min).isFinite = false → b.Overflows) := by
  have hfinite := landsIn_of_isFinite hmin hmax hle
  have hinfinite := overflows_of_not_isFinite hmin hmax hle
  refine ⟨⟨fun hlands => ?_, fun hsame => ?_⟩, hfinite, hinfinite⟩
  · cases hwidth : (b.max - b.min).isFinite with
    | true =>
      obtain ⟨-, hnumber, hend⟩ := Single.same_iff.mp (hfinite hwidth).controllerGreatest
      obtain ⟨-, hmaxNumber, hmaxRank⟩ := Single.same_iff.mp hlands.controllerGreatest
      exact Single.same_iff.mpr ⟨hnumber, hmaxNumber, hend.symm.trans hmaxRank⟩
    | false =>
      -- The lowest message would set no number.
      have hleast := (Single.same_iff.mp hlands.controllerLeast).1
      rw [(hinfinite hwidth).controllerLeast] at hleast
      cases hleast
  · cases hwidth : (b.max - b.min).isFinite with
    | true => exact (hfinite hwidth).congr hsame
    | false =>
      -- The sum would be infinite.
      obtain ⟨hnumber, hpos⟩ := rank_width_nonneg hmin hmax hle
      rw [Single.eq_infinity hnumber hwidth hpos, Single.infinity_add hmin] at hsame
      have hrank := (Single.same_iff.mp hsame).2.2
      have hless := (abs_lt.mp (Single.isFinite_iff_abs_rank_lt.mp hmax)).2
      rw [← hrank] at hless
      exact absurd hless (by decide)

/-! ### Some ranges -/

/-- The description of an instrument with one slider. -/
def rangedMetadata (min max : Single) : ModuleMetadata :=
  ⟨"v", "", 4, 0, 1, [], [.slider .horizontal ⟨"bend", "/v/bend", 0, min, min, max, .one, []⟩]⟩

/-- The control of the slider. -/
def ranged (min max : Single) : Binding :=
  ⟨"/v/bend", 0, min, max, min, .one, .input (.slider .horizontal), .unbound, .voice⟩

theorem bindings_rangedMetadata (min max : Single) :
    (ParameterTable.build (rangedMetadata min max) none false).bindings = [ranged min max] := rfl

/-- A range from 100 to 10000 has an exact width. -/
theorem landsIn_cutoff :
    let b := ranged ⟨0x42c80000⟩ ⟨0x461c4000⟩
    b.min.isFinite = true ∧ b.max.isFinite = true ∧ b.max.less b.min = false ∧
      b.LandsIn b.min b.max := by
  intro b
  have hmin : b.min.isFinite = true := by decide
  have hmax : b.max.isFinite = true := by decide
  have hle : b.max.less b.min = false := by decide
  exact ⟨hmin, hmax, hle, (landsIn_iff hmin hmax hle).1.mpr (by decide +kernel)⟩

/-- From -1 to `3 / 2 ^ 25` the width is rounded up, and the highest controller leads to
`1 / 2 ^ 23`, past the greatest value. From -3e38 to 3e38 the width is infinite. -/
theorem exists_not_landsIn :
    (∃ d b, (ParameterTable.build d none false).bindings = [b] ∧
      b.min.isFinite = true ∧ b.max.isFinite = true ∧ b.max.less b.min = false ∧
      b.max.less (b.remapController 127) = true ∧ ¬ b.LandsIn b.min b.max) ∧
    ∃ d b, (ParameterTable.build d none false).bindings = [b] ∧
      b.min.isFinite = true ∧ b.max.isFinite = true ∧ b.max.less b.min = false ∧
      (b.remapController 0).isNaN = true ∧ ¬ b.LandsIn b.min b.max := by
  constructor
  · refine ⟨_, _, bindings_rangedMetadata ⟨0xbf800000⟩ ⟨0x33c00000⟩, by decide, by decide,
      by decide, by decide +kernel, fun h => ?_⟩
    exact absurd h.controllerGreatest (by decide +kernel)
  · refine ⟨_, _, bindings_rangedMetadata ⟨0xff61b1e6⟩ ⟨0x7f61b1e6⟩, by decide, by decide,
      by decide, by decide +kernel, fun h => ?_⟩
    exact absurd h.controllerLeast (by decide +kernel)

end Binding

end DspHost
