import Mathlib

/-!
# Complete binary hash trees in an array

A tree over `2^depth` leaves lies level after level in an array, from cell `start` on: first the
leaves, then their parents, at the end the root. `FreshExcept` says that every node is right that
has no stale leaf below it, the notion behind updating only a part of the tree.
-/

namespace QubicCore.Library.HashTree

variable {α : Type*} (pair : α → α → α)

def parents (leaf : Nat → α) (j : Nat) : α := pair (leaf (2 * j)) (leaf (2 * j + 1))

def above (stale : Nat → Prop) (j : Nat) : Prop := stale (2 * j) ∨ stale (2 * j + 1)

instance (stale : Nat → Prop) [DecidablePred stale] : DecidablePred (above stale) := fun j =>
  inferInstanceAs (Decidable (stale (2 * j) ∨ stale (2 * j + 1)))

def root : Nat → (Nat → α) → α
  | 0, leaf => leaf 0
  | depth + 1, leaf => root depth (parents pair leaf)

/-- The nodes without stale leaf below them hold the value of the tree over `leaf`. -/
def FreshExcept (cells : Nat → α) : Nat → Nat → (Nat → α) → (Nat → Prop) → Prop
  | 0, start, leaf, stale => ¬stale 0 → cells start = leaf 0
  | depth + 1, start, leaf, stale =>
    (∀ j < 2 ^ (depth + 1), ¬stale j → cells (start + j) = leaf j) ∧
      FreshExcept cells depth (start + 2 ^ (depth + 1)) (parents pair leaf) (above stale)

/-- All nodes hold the value of the tree over `leaf`. -/
def Fresh (cells : Nat → α) (depth start : Nat) (leaf : Nat → α) : Prop :=
  FreshExcept pair cells depth start leaf fun _ => False

variable {pair} {cells cells' : Nat → α} {depth start : Nat} {leaf leaf' : Nat → α}
  {stale stale' : Nat → Prop}

lemma above_false : above (fun _ => False) = fun _ => False := by
  funext j
  simp [above]

lemma two_mul_lt_pow {j : Nat} (hj : j < 2 ^ depth) :
    2 * j < 2 ^ (depth + 1) ∧ 2 * j + 1 < 2 ^ (depth + 1) := by
  omega

section

variable (h : FreshExcept pair cells depth start leaf stale)
include h

lemma FreshExcept.leaf_eq {j : Nat}
    (hj : j < 2 ^ depth) (hstale : ¬stale j) : cells (start + j) = leaf j := by
  cases depth with
  | zero =>
    obtain rfl : j = 0 := by simpa using hj
    exact h hstale
  | succ depth => exact h.1 j hj hstale

lemma FreshExcept.change (hleaf : ∀ j < 2 ^ depth, ¬stale' j → ¬stale j ∧ leaf' j = leaf j) :
    FreshExcept pair cells depth start leaf' stale' := by
  induction depth generalizing start leaf leaf' stale stale' with
  | zero =>
    intro hstale
    obtain ⟨hfresh, heq⟩ := hleaf 0 (by simp) hstale
    rw [heq]
    exact h hfresh
  | succ depth ih =>
    refine ⟨fun j hj hstale => ?_, ih h.2 fun j hj hstale => ?_⟩
    · obtain ⟨hfresh, heq⟩ := hleaf j hj hstale
      rw [heq]
      exact h.1 j hj hfresh
    · obtain ⟨hl, hr⟩ := two_mul_lt_pow hj
      simp only [above, not_or] at hstale ⊢
      obtain ⟨hfreshl, heql⟩ := hleaf _ hl hstale.1
      obtain ⟨hfreshr, heqr⟩ := hleaf _ hr hstale.2
      exact ⟨⟨hfreshl, hfreshr⟩, by simp only [parents, heql, heqr]⟩

omit h in
lemma Fresh.freshExcept (h : Fresh pair cells depth start leaf) :
    FreshExcept pair cells depth start leaf stale :=
  FreshExcept.change h fun _ _ _ => ⟨not_false, rfl⟩

omit h in
/-- Nothing is claimed about a tree with stale leaves only. -/
lemma FreshExcept.all (depth start : Nat) :
    FreshExcept pair cells depth start leaf fun _ => True := by
  induction depth generalizing start leaf with
  | zero => exact fun h => absurd trivial h
  | succ depth ih =>
    refine ⟨fun j _ h => absurd trivial h, ?_⟩
    have habove : above (fun _ => True) = fun _ => True := by
      funext j
      simp [above]
    rw [habove]
    exact ih _

/-- The nodes of a tree below the level of the leaves are untouched by writes before `start`. -/
lemma FreshExcept.frame (hcells : ∀ i, start ≤ i → cells' i = cells i) :
    FreshExcept pair cells' depth start leaf stale := by
  induction depth generalizing start leaf stale with
  | zero =>
    intro hstale
    rw [hcells start le_rfl]
    exact h hstale
  | succ depth ih =>
    refine ⟨fun j hj hstale => ?_, ih h.2 fun i hi =>
      hcells i ((Nat.le_add_right _ _).trans hi)⟩
    rw [hcells _ (Nat.le_add_right _ _)]
    exact h.1 j hj hstale

lemma FreshExcept.releaf (hleaf : ∀ j < 2 ^ depth, cells' (start + j) = leaf j)
    (hcells : ∀ i, start + 2 ^ depth ≤ i → cells' i = cells i) :
    FreshExcept pair cells' depth start leaf stale := by
  cases depth with
  | zero => exact fun _ => hleaf 0 (by simp)
  | succ depth => exact ⟨fun j hj _ => hleaf j hj, h.2.frame hcells⟩

end

/-- A tree is assembled from its leaves and the tree above them. -/
lemma Fresh.succ (hleaf : ∀ j < 2 ^ (depth + 1), cells (start + j) = leaf j)
    (h : Fresh pair cells depth (start + 2 ^ (depth + 1)) (parents pair leaf)) :
    Fresh pair cells (depth + 1) start leaf := by
  refine ⟨fun j hj _ => hleaf j hj, ?_⟩
  rw [above_false]
  exact h

lemma Fresh.above (h : Fresh pair cells (depth + 1) start leaf) :
    Fresh pair cells depth (start + 2 ^ (depth + 1)) (parents pair leaf) := by
  have := h.2
  rwa [above_false] at this

/-- Two arrays with fresh trees over the same leaves agree on the whole tree. -/
lemma Fresh.unique (h : Fresh pair cells depth start leaf)
    (h' : Fresh pair cells' depth start leaf) {i : Nat} (hi : i < 2 * 2 ^ depth - 1) :
    cells (start + i) = cells' (start + i) := by
  induction depth generalizing start leaf i with
  | zero =>
    obtain rfl : i = 0 := by simpa using hi
    rw [FreshExcept.leaf_eq h (by simp) not_false, FreshExcept.leaf_eq h' (by simp) not_false]
  | succ depth ih =>
    obtain hlt | hge := Nat.lt_or_ge i (2 ^ (depth + 1))
    · rw [FreshExcept.leaf_eq h hlt not_false, FreshExcept.leaf_eq h' hlt not_false]
    · obtain ⟨k, rfl⟩ := Nat.exists_eq_add_of_le hge
      rw [← Nat.add_assoc]
      exact ih h.above h'.above (by rw [pow_succ] at hi; omega)

lemma Fresh.root_eq (h : Fresh pair cells depth start leaf) :
    cells (start + (2 * 2 ^ depth - 1 - 1)) = root pair depth leaf := by
  induction depth generalizing start leaf with
  | zero => exact FreshExcept.leaf_eq h (by simp) not_false
  | succ depth ih =>
    rw [root, ← ih h.above]
    congr 1
    have := Nat.one_le_two_pow (n := depth)
    omega

end QubicCore.Library.HashTree
