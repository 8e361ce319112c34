import Mathlib

/-!
# Linked lists in an array

Many single-linked lists share one array `next`; list `q` starts at `first q`, and `nil` ends a
list. `Exact` says that each list runs through the cells that belong to it, each of them once, and
comes to its end.
-/

namespace QubicCore.Library.IntrusiveLists

open Function

variable {nil : Nat} {next : Nat → Nat} {x : Nat}

/-- From cell `a` on, the links lead through the cells `l` to the end. -/
def Walk (nil : Nat) (next : Nat → Nat) : Nat → List Nat → Prop
  | a, [] => a = nil
  | a, x :: l => a = x ∧ x ≠ nil ∧ Walk nil next (next x) l

lemma Walk.update {a y : Nat} {l : List Nat} (h : Walk nil next a l) (hx : x ∉ l) :
    Walk nil (update next x y) a l := by
  induction l generalizing a with
  | nil => exact h
  | cons z l ih =>
    obtain ⟨rfl, hne, hrest⟩ := h
    obtain ⟨hxz, hxl⟩ := List.ne_and_not_mem_of_not_mem_cons hx
    refine ⟨rfl, hne, ?_⟩
    rw [update_of_ne (Ne.symm hxz)]
    exact ih hrest hxl

lemma Walk.prepend {a : Nat} {l : List Nat} (h : Walk nil next a l) (hx : x ∉ l) (hne : x ≠ nil) :
    Walk nil (Function.update next x a) x (x :: l) := by
  refine ⟨rfl, hne, ?_⟩
  rw [Function.update_self]
  exact h.update hx

variable {ι : Type*} {first : ι → Nat} {owner : Nat → Option ι}

/-- Every list holds the cells that belong to it and no other, once each. -/
def Exact (nil : Nat) (next : Nat → Nat) (first : ι → Nat) (owner : Nat → Option ι) : Prop :=
  ∀ q, ∃ l, Walk nil next (first q) l ∧ l.Nodup ∧ ∀ x, x ∈ l ↔ owner x = some q

lemma Exact.empty (hfirst : ∀ q, first q = nil) (howner : ∀ x, owner x = none) :
    Exact nil next first owner := fun q =>
  ⟨[], hfirst q, List.nodup_nil, by simp [howner]⟩

lemma Exact.congr {owner' : Nat → Option ι} (h : Exact nil next first owner)
    (howner : ∀ x, owner' x = owner x) : Exact nil next first owner' := fun q => by
  simpa only [howner] using h q

lemma Exact.insert [DecidableEq ι] (h : Exact nil next first owner) (q : ι) (hx : owner x = none)
    (hne : x ≠ nil) :
    Exact nil (update next x (first q)) (update first q x)
      (update owner x (some q)) := by
  intro q'
  obtain ⟨l, hwalk, hnodup, hmem⟩ := h q'
  have hxl : x ∉ l := by simp [hmem, hx]
  by_cases hq : q' = q
  · subst hq
    refine ⟨x :: l, ?_, List.nodup_cons.mpr ⟨hxl, hnodup⟩, fun y => ?_⟩
    · rw [update_self]
      exact hwalk.prepend hxl hne
    · by_cases hy : y = x <;> simp [hy, hmem]
  · refine ⟨l, ?_, hnodup, fun y => ?_⟩
    · rw [update_of_ne hq]
      exact hwalk.update hxl
    · by_cases hy : y = x
      · simp [hy, hxl, Ne.symm hq]
      · simp [hy, hmem]

end QubicCore.Library.IntrusiveLists
