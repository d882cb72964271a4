/-!
# Bounded queues

Control messages and readbacks pass between the two ends of a processor through queues of fixed
capacity. A full queue refuses what is pushed and keeps what it holds. The reader takes items from
the front of the list, and what it leaves stays in order.

Allocation is taken to succeed, so that there is a queue of every capacity. No machine has room for
some of the capacities that pass the checks of a configuration, such as `2 ^ 62`.

## Main definitions

* `Queue`, `Queue.empty` — a queue of fixed capacity
* `Queue.push?`, `Queue.pushAll` — the writing end
-/

namespace DspHost

/-- A first-in first-out queue of fixed capacity. -/
structure Queue (α : Type) where
  /-- How many items it can hold. -/
  capacity : Nat
  /-- The items, oldest first. -/
  items : List α
  deriving DecidableEq, Repr

namespace Queue

variable {α : Type}

/-- A queue without items. -/
def empty (capacity : Nat) : Queue α := ⟨capacity, []⟩

/-- Whether there is no room for another item. -/
def isFull (q : Queue α) : Bool := q.capacity ≤ q.items.length

/-- The queue with one more item, unless it is full. -/
def push? (q : Queue α) (item : α) : Option (Queue α) :=
  if q.isFull then none else some ⟨q.capacity, q.items ++ [item]⟩

/-- Pushes items one after the other and drops those that find the queue full. -/
def pushAll (q : Queue α) (items : List α) : Queue α :=
  items.foldl (fun q item => (q.push? item).getD q) q

/-- The queue without items. -/
def clear (q : Queue α) : Queue α := ⟨q.capacity, []⟩

theorem push?_eq_some_iff {q q' : Queue α} {item : α} :
    q.push? item = some q' ↔
      q.items.length < q.capacity ∧ q' = ⟨q.capacity, q.items ++ [item]⟩ := by
  simp [push?, isFull, eq_comm]

end Queue

end DspHost
