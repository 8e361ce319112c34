import QubicCore.Library.Keyed
import QubicCore.Platform

/-!
# Collections as priority queues

The container `Collection` keeps one queue for each point of view, ordered by descending priority
and, among equal priorities, by age. Here all its elements stand in one list in this order, and the
queue of a point of view is the part of the list that belongs to it.
-/

namespace QubicCore.Qpi

structure Entry (V : Type) where
  pov : M256i
  priority : Int
  value : V
deriving DecidableEq

abbrev Collection (V : Type) := List (Entry V)

namespace Collection

variable {V : Type}

/-- Add an element, unless `L` elements are stored. -/
def add (L : Nat) (c : Collection V) (pov : M256i) (value : V) (priority : Int) : Collection V :=
  if c.length < L then
    c.orderedInsert (fun x y => y.priority < x.priority) ⟨pov, priority, value⟩
  else c

def queue (c : Collection V) (pov : M256i) : List (Entry V) := c.filter fun e => e.pov = pov

/-- The number of elements of a point of view. -/
def population (c : Collection V) (pov : M256i) : Nat := (c.queue pov).length

lemma add_perm {L : Nat} {c : Collection V} (h : c.length < L) (pov : M256i) (value : V)
    (priority : Int) : (c.add L pov value priority).Perm (⟨pov, priority, value⟩ :: c) := by
  rw [add, if_pos h]
  exact List.perm_orderedInsert _ _ _

lemma mem_queue {c : Collection V} {pov : M256i} {e : Entry V} :
    e ∈ c.queue pov ↔ e ∈ c ∧ e.pov = pov := by
  simp [queue]

end Collection

end QubicCore.Qpi
