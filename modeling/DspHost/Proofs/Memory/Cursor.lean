import DspHost.Memory.Plan
import Mathlib

/-!
# Regions laid out by a cursor

A planner takes one region after the other. Each begins at the first multiple of the alignment that
is not before the end of the last, so regions never overlap, whatever their sizes are and however
many of them are empty. The cursor ends less than one alignment behind the last region that is not
empty.

## Main definitions

* `PlacedRegion.Apart` — two regions share no byte
* `Laid` — regions that follow one another between two positions of a cursor

## Main results

* `Laid.append` — layouts can be put together
* `Laid.pairwise` — every region ends before the next begins
* `Laid.finish_le` — how far the cursor is behind the last region
-/

namespace DspHost

/-! ### Alignment -/

variable {align n m : ℕ}

theorem dvd_alignUp (n align : ℕ) : align ∣ alignUp n align :=
  Nat.dvd_mul_left align _

theorem le_alignUp (positive : 0 < align) (n : ℕ) : n ≤ alignUp n align := by
  have hmod := Nat.mod_lt (n + (align - 1)) positive
  have hdiv := Nat.div_add_mod' (n + (align - 1)) align
  unfold alignUp
  omega

theorem alignUp_lt (positive : 0 < align) (n : ℕ) : alignUp n align < n + align := by
  have hdiv := Nat.div_mul_le_self (n + (align - 1)) align
  unfold alignUp
  omega

/-- The aligned address is the least one. -/
theorem alignUp_le (positive : 0 < align) (hle : n ≤ m) (hdvd : align ∣ m) :
    alignUp n align ≤ m := by
  obtain ⟨k, rfl⟩ := hdvd
  -- With n at most k units, n and the padding stay below k + 1 units.
  have hlt : n + (align - 1) < align * (k + 1) := by
    rw [Nat.mul_succ]
    omega
  have hquotient : (n + (align - 1)) / align ≤ k :=
    Nat.lt_succ_iff.mp (Nat.div_lt_of_lt_mul hlt)
  rw [Nat.mul_comm align k]
  exact Nat.mul_le_mul_right align hquotient

theorem alignUp_mono (positive : 0 < align) (hle : n ≤ m) : alignUp n align ≤ alignUp m align :=
  alignUp_le positive (hle.trans (le_alignUp positive m)) (dvd_alignUp m align)

theorem alignUp_of_dvd (positive : 0 < align) (hdvd : align ∣ n) : alignUp n align = n :=
  (alignUp_le positive le_rfl hdvd).antisymm (le_alignUp positive n)

/-- Everything between an address and its alignment aligns alike. -/
theorem alignUp_eq_of_between (positive : 0 < align) (hle : n ≤ m) (hm : m ≤ alignUp n align) :
    alignUp m align = alignUp n align :=
  (alignUp_le positive hm (dvd_alignUp n align)).antisymm (alignUp_mono positive hle)

theorem alignUp_add_of_dvd (positive : 0 < align) (hdvd : align ∣ m) (n : ℕ) :
    alignUp (m + n) align = m + alignUp n align := by
  apply Nat.le_antisymm
  · exact alignUp_le positive (Nat.add_le_add_left (le_alignUp positive n) m)
      (Nat.dvd_add hdvd (dvd_alignUp n align))
  · -- What is left of the aligned sum without m is aligned and not below n.
    have hsum := dvd_alignUp (m + n) align
    have hlow := le_alignUp positive (m + n)
    have hrest : align ∣ alignUp (m + n) align - m := Nat.dvd_sub hsum hdvd
    have hleast := alignUp_le positive (m := alignUp (m + n) align - m) (n := n) (by omega) hrest
    omega

/-! ### Regions -/

/-- Two regions share no byte. -/
def PlacedRegion.Apart (r s : PlacedRegion) : Prop := r.stop ≤ s.start ∨ s.stop ≤ r.start

theorem PlacedRegion.Apart.symm {r s : PlacedRegion} (h : r.Apart s) : s.Apart r := Or.symm h

theorem PlacedRegion.Apart.disjoint {r s : PlacedRegion} (h : r.Apart s) :
    Disjoint (Set.Ico r.start r.stop) (Set.Ico s.start s.stop) := by
  rw [Set.disjoint_left]
  rintro i ⟨hlow, hhigh⟩ ⟨hlow', hhigh'⟩
  rcases h with hle | hle
  · exact absurd (hhigh.trans_le (hle.trans hlow')) (lt_irrefl i)
  · exact absurd (hhigh'.trans_le (hle.trans hlow)) (lt_irrefl i)

/-- Regions that follow one another between two positions of a cursor, each at the first aligned
address that is not before the end of the last. -/
inductive Laid (align : ℕ) : ℕ → List PlacedRegion → ℕ → Prop
  | nil {cursor finish : ℕ} (le : cursor ≤ finish) (near : finish ≤ alignUp cursor align) :
    Laid align cursor [] finish
  | cons {cursor finish : ℕ} {r : PlacedRegion} {rest : List PlacedRegion}
    (start : r.start = alignUp cursor align) (ordered : r.start ≤ r.stop)
    (tail : Laid align r.stop rest finish) : Laid align cursor (r :: rest) finish

namespace Laid

variable {cursor middle finish : ℕ} {rs rs' : List PlacedRegion}

theorem cursor_le (positive : 0 < align) (h : Laid align cursor rs finish) : cursor ≤ finish := by
  induction h with
  | nil le _ => exact le
  | @cons cursor _ r _ start ordered _ ih =>
    have hlow : cursor ≤ r.start := start ▸ le_alignUp positive cursor
    exact (hlow.trans ordered).trans ih

/-- A layout stays one when its cursor was not yet at the first aligned address. -/
theorem of_between (positive : 0 < align) (h : Laid align middle rs finish) (hle : cursor ≤ middle)
    (near : middle ≤ alignUp cursor align) : Laid align cursor rs finish := by
  have heq := alignUp_eq_of_between positive hle near
  cases h with
  | nil le near' => exact .nil (hle.trans le) (heq ▸ near')
  | cons start ordered tail => exact .cons (start.trans heq) ordered tail

/-- Layouts can be put together. -/
theorem append (positive : 0 < align) (h : Laid align cursor rs middle)
    (h' : Laid align middle rs' finish) : Laid align cursor (rs ++ rs') finish := by
  induction h with
  | nil le near => exact of_between positive h' le near
  | cons start ordered _ ih => exact .cons start ordered (ih h')

/-! ### What a cursor takes -/

/-- One region. -/
theorem region (positive : 0 < align) (kind : RegionKind) (cursor length : ℕ) :
    Laid align cursor [⟨kind, alignUp cursor align, alignUp cursor align + length⟩]
      (alignUp cursor align + length) :=
  .cons rfl (Nat.le_add_right _ _) (.nil le_rfl (le_alignUp positive _))

/-- One region that is padded to an aligned length. -/
theorem padded (positive : 0 < align) (kind : RegionKind) (cursor length : ℕ) :
    Laid align cursor [⟨kind, alignUp cursor align, alignUp cursor align + length⟩]
      (alignUp cursor align + alignUp length align) := by
  refine .cons rfl (Nat.le_add_right _ _) (.nil ?_ ?_)
  · exact Nat.add_le_add_left (le_alignUp positive length) _
  · exact (alignUp_add_of_dvd positive (dvd_alignUp cursor align) length).ge

/-- A number of regions of one length, each padded to an aligned length. -/
theorem replicated (positive : 0 < align) (kind : ℕ → RegionKind) (cursor length count : ℕ) :
    Laid align cursor
      ((List.range count).map fun i =>
        ⟨kind i, alignUp cursor align + i * alignUp length align,
          alignUp cursor align + i * alignUp length align + length⟩)
      (alignUp cursor align + count * alignUp length align) := by
  induction count with
  | zero => simpa using nil (le_alignUp positive cursor) le_rfl
  | succ count ih =>
    -- The cursor is aligned behind every padded region, so the next one needs no gap.
    have haligned : align ∣ alignUp cursor align + count * alignUp length align :=
      Nat.dvd_add (dvd_alignUp _ _) (Nat.dvd_mul_left_of_dvd (dvd_alignUp _ _) _)
    have hnext := padded positive (kind count)
      (alignUp cursor align + count * alignUp length align) length
    rw [alignUp_of_dvd positive haligned] at hnext
    rw [List.range_succ, List.map_append, Nat.succ_mul, ← Nat.add_assoc]
    exact append positive ih hnext

/-! ### What a layout makes sure of -/

theorem dvd_start (h : Laid align cursor rs finish) : ∀ r ∈ rs, align ∣ r.start := by
  induction h with
  | nil => simp
  | @cons cursor _ r rest start _ _ ih =>
    intro s hs
    rcases List.mem_cons.mp hs with rfl | hs
    · exact start ▸ dvd_alignUp cursor align
    · exact ih s hs

theorem cursor_le_start (positive : 0 < align) (h : Laid align cursor rs finish) :
    ∀ r ∈ rs, cursor ≤ r.start := by
  induction h with
  | nil => simp
  | @cons cursor _ r rest start ordered _ ih =>
    have hlow : cursor ≤ r.start := start ▸ le_alignUp positive cursor
    intro s hs
    rcases List.mem_cons.mp hs with rfl | hs
    · exact hlow
    · exact (hlow.trans ordered).trans (ih s hs)

theorem stop_le (positive : 0 < align) (h : Laid align cursor rs finish) :
    ∀ r ∈ rs, r.stop ≤ finish := by
  induction h with
  | nil => simp
  | cons _ _ tail ih =>
    intro s hs
    rcases List.mem_cons.mp hs with rfl | hs
    · exact tail.cursor_le positive
    · exact ih s hs

/-- Every region ends before the next begins. -/
theorem pairwise (positive : 0 < align) (h : Laid align cursor rs finish) :
    rs.Pairwise fun r s => r.stop ≤ s.start := by
  induction h with
  | nil => exact List.Pairwise.nil
  | cons _ _ tail ih => exact List.Pairwise.cons (tail.cursor_le_start positive) ih

/-- The cursor is less than one alignment behind the last region that is not empty. Empty regions
do not add up: the first of them brings the cursor to an aligned address, where it stays. -/
theorem finish_le (positive : 0 < align) (h : Laid align cursor rs finish) :
    finish ≤ alignUp cursor align ∨
      ∃ r ∈ rs, r.start < r.stop ∧ finish ≤ alignUp r.stop align := by
  induction h with
  | nil _ near => exact .inl near
  | @cons cursor _ r rest start ordered _ ih =>
    rcases ih with hnear | ⟨s, hs, hfull, hnear⟩
    · rcases ordered.lt_or_eq with hfull | hempty
      · exact .inr ⟨r, List.mem_cons_self, hfull, hnear⟩
      · -- An empty region ends where it starts, at the address that the cursor aligns to.
        rw [← hempty, start, alignUp_of_dvd positive (dvd_alignUp cursor align)] at hnear
        exact .inl hnear
    · exact .inr ⟨s, List.mem_cons_of_mem r hs, hfull, hnear⟩

end Laid

end DspHost
