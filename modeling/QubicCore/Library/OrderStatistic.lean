import QubicCore.Library.Bubble
import QubicCore.Library.Cells

/-!
# Rearranged blocks and order statistics

An array in which only the cells of a block have changed places. A sorted rearrangement of the
first cells lists them as `List.mergeSort` does, so that its cell `k` is the order statistic of
rank `k`. If all but a few of the cells are trusted, an order statistic that is far enough from
both ends lies between two trusted values.
-/

namespace QubicCore.Library

open List

variable {α : Type*} {β : Type*} [LinearOrder β] {b : Nat → β} {n : Nat}

/-- The array `b` is `a` with the cells from `lo` on and before `hi` in another order. -/
def Rearranged (a b : Nat → α) (lo hi : Nat) : Prop :=
  ∃ σ : Equiv.Perm Nat, b = a ∘ σ ∧ ∀ j, j < lo ∨ hi ≤ j → σ j = j

/-- A permutation that moves nothing outside of a block maps the block into itself. -/
lemma inside_of_fixed {σ : Equiv.Perm Nat} {lo hi j : Nat}
    (hσ : ∀ j, j < lo ∨ hi ≤ j → σ j = j) (hlo : lo ≤ j) (hhi : j < hi) :
    lo ≤ σ j ∧ σ j < hi := by
  by_contra hout
  have : σ j = j := σ.injective (hσ (σ j) (by omega))
  omega

namespace Rearranged

variable {a b c : Nat → α} {lo hi : Nat} {j : Nat}

lemma refl (a : Nat → α) (lo hi : Nat) : Rearranged a a lo hi := ⟨Equiv.refl _, rfl, fun _ _ => rfl⟩

lemma swap (a : Nat → α) {i : Nat} (hi' : lo ≤ i ∧ i < hi) (hj : lo ≤ j ∧ j < hi) :
    Rearranged a (a ∘ Equiv.swap i j) lo hi :=
  ⟨Equiv.swap i j, rfl, fun k _ => Equiv.swap_apply_of_ne_of_ne (by omega) (by omega)⟩

lemma trans (hab : Rearranged a b lo hi) (hbc : Rearranged b c lo hi) :
    Rearranged a c lo hi := by
  obtain ⟨σ, rfl, hσ⟩ := hab
  obtain ⟨τ, rfl, hτ⟩ := hbc
  refine ⟨τ.trans σ, rfl, fun j hj => ?_⟩
  rw [Equiv.trans_apply, hτ j hj, hσ j hj]

lemma mono (h : Rearranged a b lo hi) {lo' hi' : Nat} (hlo : lo' ≤ lo) (hhi : hi ≤ hi') :
    Rearranged a b lo' hi' := by
  obtain ⟨σ, hb, hσ⟩ := h
  exact ⟨σ, hb, fun j hj => hσ j (by omega)⟩

lemma eq_outside (h : Rearranged a b lo hi) (hj : j < lo ∨ hi ≤ j) : b j = a j := by
  obtain ⟨σ, rfl, hσ⟩ := h
  rw [Function.comp_apply, hσ j hj]

/-- Every cell of the block holds what some cell of the block held. -/
lemma exists_eq (h : Rearranged a b lo hi) (hlo : lo ≤ j) (hhi : j < hi) :
    ∃ k, lo ≤ k ∧ k < hi ∧ b j = a k := by
  obtain ⟨σ, rfl, hσ⟩ := h
  obtain ⟨hlo', hhi'⟩ := inside_of_fixed hσ hlo hhi
  exact ⟨σ j, hlo', hhi', rfl⟩

/-- What holds of every cell of the block still does. -/
lemma forall_block (h : Rearranged a b lo hi) {p : α → Prop}
    (ha : ∀ j, lo ≤ j → j < hi → p (a j)) : ∀ j, lo ≤ j → j < hi → p (b j) := by
  intro j hlo hhi
  obtain ⟨k, hk, hk', heq⟩ := h.exists_eq hlo hhi
  exact heq ▸ ha k hk hk'

lemma map_range_perm (h : Rearranged a b 0 n) :
    ((List.range n).map b).Perm ((List.range n).map a) := by
  obtain ⟨σ, rfl, hσ⟩ := h
  exact Library.map_range_perm σ (fun j hj => hσ j (.inr hj)) a

end Rearranged

/-- The value of rank `k` (counted from zero) in ascending order. -/
def orderStatistic (values : List β) (k : Nat) : Option β := values.mergeSort[k]?

lemma Ordered.pairwise_map (h : Ordered id b 0 n) : ((List.range n).map b).Pairwise (· ≤ ·) := by
  rw [List.pairwise_map]
  refine (pairwise_lt_range (n := n)).imp_of_mem fun {j k} _ hk hjk => ?_
  exact h j k (Nat.zero_le j) hjk (mem_range.1 hk)

lemma orderStatistic_of_perm {l l' : List β} (h : l.Perm l') (hl : l.Pairwise (· ≤ ·)) (k : Nat) :
    orderStatistic l' k = l[k]? := by
  rw [orderStatistic, (h.trans (mergeSort_perm _ _).symm).eq_of_pairwise' hl
    (pairwise_mergeSort' (· ≤ ·) _)]

lemma Rearranged.orderStatistic_eq {a : Nat → β} {k : Nat} (h : Rearranged a b 0 n)
    (hb : Ordered id b 0 n) (hk : k < n) :
    orderStatistic ((List.range n).map a) k = some (b k) := by
  rw [orderStatistic_of_perm h.map_range_perm hb.pairwise_map]
  simp [hk]

/-- Among more cells than there are untrusted ones, one is trusted. -/
lemma exists_trusted {m : Nat} (start : Nat) (σ : Equiv.Perm Nat) (trusted : Nat → Prop)
    [DecidablePred trusted] (hσ : ∀ j, start ≤ j → j < start + m → σ j < n)
    (hcount : Cells.count n (fun i => ¬trusted i) < m) :
    ∃ j, start ≤ j ∧ j < start + m ∧ trusted (σ j) := by
  by_contra hnone
  push Not at hnone
  have hsub : (Finset.Ico start (start + m)).map σ.toEmbedding ⊆
      (Finset.range n).filter fun i => ¬trusted i := by
    intro i hi
    simp only [Finset.mem_map, Finset.mem_Ico, Equiv.coe_toEmbedding] at hi
    obtain ⟨j, ⟨hj, hj'⟩, rfl⟩ := hi
    rw [Finset.mem_filter, Finset.mem_range]
    exact ⟨hσ j hj hj', hnone j hj hj'⟩
  have hle : m ≤ Cells.count n fun i => ¬trusted i := by
    simpa [Cells.count] using Finset.card_le_card hsub
  omega

/-- The order statistic of rank `k` lies between two trusted values if there are fewer untrusted
values than there are ranks up to `k`, and than there are ranks from `k` on. -/
lemma orderStatistic_trusted {a : Nat → β} {k : Nat} (h : Rearranged a b 0 n)
    (hb : Ordered id b 0 n) (hk : k < n) (trusted : Nat → Prop) [DecidablePred trusted]
    (hbelow : Cells.count n (fun i => ¬trusted i) < k + 1)
    (habove : Cells.count n (fun i => ¬trusted i) < n - k) :
    (∃ i < n, trusted i ∧ a i ≤ b k) ∧ ∃ i < n, trusted i ∧ b k ≤ a i := by
  obtain ⟨σ, rfl, hσ⟩ := h
  have hin : ∀ j < n, σ j < n := fun j hj => (inside_of_fixed hσ (Nat.zero_le j) hj).2
  have hmono : ∀ i j, i ≤ j → j < n → a (σ i) ≤ a (σ j) := by
    intro i j hij hj
    obtain rfl | hlt := Nat.eq_or_lt_of_le hij
    · exact le_rfl
    · exact hb i j (Nat.zero_le i) hlt hj
  constructor
  · obtain ⟨j, -, hj, ht⟩ := exists_trusted 0 σ trusted
      (fun j _ hj => hin j (by omega)) hbelow
    exact ⟨σ j, hin j (by omega), ht, hmono j k (by omega) hk⟩
  · obtain ⟨j, hj, hj', ht⟩ := exists_trusted k σ trusted
      (fun j _ hj => hin j (by omega)) habove
    exact ⟨σ j, hin j (by omega), ht, hmono k j hj (by omega)⟩

end QubicCore.Library
