import Mathlib

/-!
# Traces of acquisitions and releases

Which locks a processor holds after a sequence of acquisitions and releases. The sequence has no
replay if it releases a lock that is not held, and it is balanced if nothing is held in the end.
-/

namespace QubicCore.Library

inductive LockOp (L : Type*) where
  | acquire (lock : L)
  | release (lock : L)
deriving DecidableEq

namespace LockOp

variable {L : Type*} [DecidableEq L] {ops : List (LockOp L)} {held : Multiset L}

def apply (held : Multiset L) : LockOp L → Option (Multiset L)
  | acquire lock => some (lock ::ₘ held)
  | release lock => if lock ∈ held then some (held.erase lock) else none

def replayFrom (held : Multiset L) (ops : List (LockOp L)) : Option (Multiset L) :=
  ops.foldlM apply held

/-- The locks held after the operations, if every released lock was held. -/
def replay (ops : List (LockOp L)) : Option (Multiset L) := replayFrom 0 ops

/-- Every acquired lock is released exactly once, and nothing else is released. -/
def Balanced (ops : List (LockOp L)) : Prop := replay ops = some 0

instance (ops : List (LockOp L)) : Decidable (Balanced ops) := inferInstanceAs (Decidable (_ = _))

lemma replayFrom_append (held : Multiset L) (ops ops' : List (LockOp L)) :
    replayFrom held (ops ++ ops') = (replayFrom held ops).bind fun held => replayFrom held ops' :=
  List.foldlM_append ..

lemma replay_acquire (h : replay ops = some held) (lock : L) :
    replay (ops ++ [acquire lock]) = some (lock ::ₘ held) := by
  rw [replay, replayFrom_append, show replayFrom 0 ops = some held from h]
  rfl

lemma replay_release {lock : L} (h : replay ops = some (lock ::ₘ held)) :
    replay (ops ++ [release lock]) = some held := by
  rw [replay, replayFrom_append, show replayFrom 0 ops = some (lock ::ₘ held) from h]
  simp [replayFrom, apply]

lemma Balanced.of_append {ops' : List (LockOp L)} (h : Balanced ops)
    (h' : Balanced (ops ++ ops')) : Balanced ops' := by
  rw [Balanced, replay, replayFrom_append, show replayFrom 0 ops = some 0 from h] at h'
  exact h'

lemma count_of_replay (h : replay ops = some held) (lock : L) :
    (ops.count (acquire lock) : Int) - ops.count (release lock) = held.count lock := by
  induction ops using List.reverseRecOn generalizing held with
  | nil =>
    obtain rfl : 0 = held := Option.some.inj h
    rfl
  | append_singleton ops op ih =>
    rw [replay, replayFrom_append] at h
    obtain ⟨before, hbefore, hop⟩ := Option.bind_eq_some_iff.1 h
    have hcount := ih hbefore
    cases op with
    | acquire l =>
      obtain rfl : l ::ₘ before = held := Option.some.inj hop
      by_cases hl : l = lock
      · subst hl
        simp
        omega
      · simp [hl, Ne.symm hl]
        omega
    | release l =>
      simp only [replayFrom, List.foldlM_cons, List.foldlM_nil, apply] at hop
      split_ifs at hop with hmem
      · obtain rfl : before.erase l = held := by simpa using hop
        by_cases hl : l = lock
        · subst hl
          have := Multiset.count_pos.2 hmem
          simp
          omega
        · simp [hl, Ne.symm hl]
          omega
      · simp at hop

end LockOp

end QubicCore.Library
