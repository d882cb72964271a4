import DspHost.Proofs.Memory.Access
import DspHost.Proofs.Memory.Frame

/-!
# What code writes, whether it ends or faults

Code that stops at a fault has written what comes before it. So which bytes code may write is a
question about all of its runs, and it is answered part by part: whatever arena a part is run in, it
leaves the other bytes alone. Where nothing is known about the addresses, any byte may be written,
and what is left to say is that the arena keeps its shape.

## Main definitions

* `Access.WritesIn` — code that leaves all bytes but some alone, and the shape of the arena

## Main results

* `Access.WritesIn.bind`, `Access.WritesIn.forEach`, `Access.WritesIn.foldEach` — what consists of
  parts that write to some bytes only, does
* `Access.WritesIn.storeSingle`, `Access.WritesIn.zero`, `Access.WritesIn.storePointer` — what a
  single access writes
-/

namespace DspHost

namespace Arena

/-- Whatever was changed, the arena has its shape. -/
theorem ChangedWithin.shape {s : Set ℕ} {a b : Arena} (h : ChangedWithin s a b) :
    ChangedWithin Set.univ a b := h.mono (Set.subset_univ s)

/-- Adding samples leaves the shape alone, wherever the buffers lie. -/
theorem changedWithin_accumulate_univ (a : Arena) (target source : SampleBuffer) :
    ChangedWithin Set.univ a (a.accumulate target source) :=
  List.foldlRecOn _ _ (ChangedWithin.refl _ a) fun b hb _ _ =>
    hb.trans (b.changedWithin_setSample _ _).shape

end Arena

namespace Access

variable {α β ι σ : Type} {s t : Set ℕ}

/-- Whatever arena it is run in and whether it ends or faults, the code leaves the shape of the
arena alone and all bytes but some. -/
def WritesIn (code : Access α) (s : Set ℕ) : Prop := ∀ a, Arena.ChangedWithin s a (code.run a).2

namespace WritesIn

theorem mono {code : Access α} (h : code.WritesIn s) (hst : s ⊆ t) : code.WritesIn t :=
  fun a => (h a).mono hst

theorem shape {code : Access α} (h : code.WritesIn s) : code.WritesIn Set.univ :=
  h.mono (Set.subset_univ s)

/-! ### Code that is put together -/

theorem pure (v : α) : (Pure.pure v : Access α).WritesIn s := fun a => .refl s a

/-- Code writes what its parts write. After a fault there is no other part. -/
theorem bind {code : Access α} {next : α → Access β} (h : code.WritesIn s)
    (hnext : ∀ v, (next v).WritesIn s) : (code >>= next).WritesIn s := by
  intro a
  have hcode := h a
  rw [run_bind]
  rcases hrun : code.run a with ⟨_ | v, b⟩
  · rwa [hrun] at hcode
  · rw [hrun] at hcode
    exact hcode.trans (hnext v b)

theorem forEach {code : ι → Access Unit} {items : List ι}
    (h : ∀ item ∈ items, (code item).WritesIn s) : (Access.forEach code items).WritesIn s := by
  induction items with
  | nil => exact pure ()
  | cons item rest ih =>
    refine bind (h item List.mem_cons_self) fun _ => ?_
    exact ih fun other hother => h other (List.mem_cons_of_mem item hother)

theorem foldEach {code : σ → ι → Access σ} (h : ∀ state item, (code state item).WritesIn s)
    (state : σ) (items : List ι) : (Access.foldEach code state items).WritesIn s := by
  induction items generalizing state with
  | nil => exact pure state
  | cons item rest ih => exact bind (h state item) fun next => ih next

/-! ### Single accesses -/

theorem reads (read : Arena → Except Fault α) : (Access.reads read).WritesIn s :=
  fun a => .refl s a

theorem loadSingle (address : ℕ) : (Access.loadSingle address).WritesIn s := reads _

theorem loadPointer (address : ℕ) : (Access.loadPointer address).WritesIn s := reads _

theorem channel (table index : ℕ) : (Access.channel table index).WritesIn s := fun a => .refl s a

theorem change {write : Arena → Arena} (h : ∀ a, Arena.ChangedWithin s a (write a)) :
    (Access.change write).WritesIn s := h

/-- An access that is refused writes nothing. -/
theorem writes {allowed : Arena → Bool} {fault : Arena → Fault} {write : Arena → Arena}
    (h : ∀ a, Arena.ChangedWithin s a (write a)) :
    (Access.writes allowed fault write).WritesIn s := by
  intro a
  rw [run, Access.writes]
  split
  · exact h a
  · exact .refl s a

theorem storeSingle (address : ℕ) (value : Single) :
    (Access.storeSingle address value).WritesIn (Set.Ico address (address + 4)) :=
  writes fun a => a.changedWithin_setSample address value

theorem zero (address length : ℕ) :
    (Access.zero address length).WritesIn (Set.Ico address (address + length)) := by
  refine writes fun a => ?_
  have h := a.changedWithin_writeBytes address (List.replicate length 0)
  rwa [List.length_replicate] at h

/-- How many bytes a pointer has is a matter of the arena. -/
theorem storePointer (address value : ℕ) :
    (Access.storePointer address value).WritesIn Set.univ :=
  writes fun a => (a.changedWithin_setWord address _ value).shape

end WritesIn

end Access

end DspHost
