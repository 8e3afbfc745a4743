/- digest: A queue that counts its unfinished items, and who still owes a `task_done`. -/
import Mathlib.Data.List.Basic

namespace AverQel.Foundation

universe u

structure AsyncQueue (α : Type u) where
  items : List α
  unfinished : Nat
  deriving DecidableEq, Repr

namespace AsyncQueue

variable {α : Type u} {q : AsyncQueue α} {taken : Nat}

def empty : AsyncQueue α := ⟨[], 0⟩

def isFull (size : Nat) (q : AsyncQueue α) : Bool := size ≤ q.items.length

/-- `put`, once there is room. -/
def put (a : α) (q : AsyncQueue α) : AsyncQueue α := ⟨q.items ++ [a], q.unfinished + 1⟩

/-- What `get` leaves of the queue. -/
def rest (q : AsyncQueue α) : AsyncQueue α := ⟨q.items.tail, q.unfinished⟩

/-- `task_done`, `count` times. -/
def taskDone (count : Nat) (q : AsyncQueue α) : AsyncQueue α := ⟨q.items, q.unfinished - count⟩

def drain (q : AsyncQueue α) : AsyncQueue α := ⟨[], q.unfinished - q.items.length⟩

/-- `join` returns. -/
def joined (q : AsyncQueue α) : Bool := q.unfinished = 0

def Balanced (taken : Nat) (q : AsyncQueue α) : Prop := q.unfinished = q.items.length + taken

theorem balanced_empty : (empty : AsyncQueue α).Balanced 0 := rfl

theorem Balanced.put (balanced : q.Balanced taken) (a : α) : (q.put a).Balanced taken := by
  unfold Balanced at balanced ⊢
  simp only [AsyncQueue.put, List.length_append, List.length_singleton, balanced]
  omega

theorem Balanced.rest {a : α} {later : List α} (balanced : q.Balanced taken)
    (items : q.items = a :: later) : q.rest.Balanced (taken + 1) := by
  unfold Balanced at balanced ⊢
  simp only [AsyncQueue.rest, items, List.tail_cons]
  rw [items, List.length_cons] at balanced
  omega

theorem Balanced.taskDone {count : Nat} (balanced : q.Balanced (taken + count)) :
    (q.taskDone count).Balanced taken := by
  unfold Balanced at balanced ⊢
  simp only [AsyncQueue.taskDone]
  omega

theorem Balanced.unfinished_drain (balanced : q.Balanced taken) : q.drain.unfinished = taken := by
  unfold Balanced at balanced
  simp only [drain]
  omega

/-- A `join` returns once nothing waits and nobody owes anything. -/
theorem Balanced.joined_iff (balanced : q.Balanced taken) :
    q.joined = true ↔ q.items = [] ∧ taken = 0 := by
  unfold Balanced at balanced
  unfold joined
  rw [decide_eq_true_eq, ← List.length_eq_zero_iff]
  omega

end AsyncQueue

end AverQel.Foundation
