import Mathlib

/-!
# Arrays with a population, and removal by the last element

The first `size` cells of an array are in use. A cell is removed by moving the last used cell into
it and clearing the last one.

A backward walk may replace or remove the cell it visits: the cells below are still the old ones,
and the cells above hold exactly what the walk left of them.
-/

namespace QubicCore.Library

open Function List

/-- Run `f (n - 1)`, ..., `f 0` in this order. -/
def countdown {σ : Type*} (f : Nat → σ → σ) : Nat → σ → σ
  | 0, x => x
  | n + 1, x => countdown f n (f n x)

lemma countdown_induction {σ : Type*} {f : Nat → σ → σ} (P : Nat → σ → Prop) (n : Nat) (x : σ)
    (hn : P n x) (hstep : ∀ k x, k < n → P (k + 1) x → P k (f k x)) : P 0 (countdown f n x) := by
  induction n generalizing x with
  | zero => exact hn
  | succ n ih => exact ih _ (hstep n x (by omega) hn) fun k y hk => hstep k y (by omega)

structure Bag (α : Type*) where
  size : Nat
  cell : Nat → α

namespace Bag

variable {α : Type*} {b : Bag α} {n : Nat} {b' : Bag α} {i : Nat}

@[ext] lemma ext (hsize : b.size = b'.size) (hcell : b.cell = b'.cell) : b = b' := by
  cases b
  cases b'
  simp_all

/-- What the used cells from `n` on hold. -/
def above (b : Bag α) (n : Nat) : Multiset α := (List.range' n (b.size - n)).map b.cell

def contents (b : Bag α) : Multiset α := b.above 0

lemma mem_above {a : α} : a ∈ b.above n ↔ ∃ i, n ≤ i ∧ i < b.size ∧ b.cell i = a := by
  simp only [above, Multiset.mem_coe, mem_map, mem_range'_1]
  constructor
  · rintro ⟨i, ⟨hn, hi⟩, h⟩
    exact ⟨i, hn, by omega, h⟩
  · rintro ⟨i, hn, hi, h⟩
    exact ⟨i, ⟨hn, by omega⟩, h⟩

lemma mem_contents {a : α} : a ∈ b.contents ↔ ∃ i < b.size, b.cell i = a := by
  simp [contents, mem_above]

lemma above_size : b.above b.size = 0 := by simp [above]

lemma above_eq_cons (hn : n < b.size) : b.above n = b.cell n ::ₘ b.above (n + 1) := by
  obtain ⟨k, hk⟩ : ∃ k, b.size - n = k + 1 := ⟨b.size - n - 1, by omega⟩
  rw [above, above, hk, show b.size - (n + 1) = k by omega, List.range'_succ]
  rfl

lemma above_eq_last {k : Nat} (hk : b.size = n + k + 1) :
    b.above n = b.cell (n + k) ::ₘ ((List.range' n k).map b.cell : List α) := by
  rw [above, show b.size - n = k + 1 by omega, List.range'_1_concat, map_append,
    ← Multiset.coe_add, add_comm]
  rfl

lemma above_congr (hsize : b'.size = b.size)
    (h : ∀ i, n ≤ i → i < b.size → b'.cell i = b.cell i) : b'.above n = b.above n := by
  unfold above
  rw [hsize]
  congr 1
  refine map_congr_left fun i hi => ?_
  rw [mem_range'_1] at hi
  exact h i hi.1 (by omega)

def set (b : Bag α) (i : Nat) (a : α) : Bag α := { b with cell := update b.cell i a }

@[simp] lemma set_size (b : Bag α) (i : Nat) (a : α) : (b.set i a).size = b.size := rfl

lemma set_cell_of_ne {j : Nat} (h : j ≠ i) (a : α) : (b.set i a).cell j = b.cell j :=
  update_of_ne h _ _

lemma above_set (hn : n < b.size) (a : α) : (b.set n a).above n = a ::ₘ b.above (n + 1) := by
  have hrest : (b.set n a).above (n + 1) = b.above (n + 1) :=
    above_congr rfl fun i hi _ => set_cell_of_ne (by omega) a
  rw [above_eq_cons (by simpa), hrest]
  simp [set]

lemma contents_push (hsize : b'.size = b.size + 1) (h : ∀ i < b.size, b'.cell i = b.cell i) :
    b'.contents = b'.cell b.size ::ₘ b.contents := by
  have hold : (List.range' 0 b.size).map b'.cell = (List.range' 0 b.size).map b.cell := by
    refine map_congr_left fun i hi => h i ?_
    simpa using hi
  rw [contents, above_eq_last (k := b.size) (by omega), hold, Nat.zero_add]
  rfl

/-- Remove cell `i`: the last cell takes its place and is cleared. -/
def evict (b : Bag α) (i : Nat) (zero : α) : Bag α where
  size := b.size - 1
  cell := update (update b.cell i (b.cell (b.size - 1))) (b.size - 1) zero

lemma evict_set (i : Nat) (a zero : α) : (b.set i a).evict i zero = b.evict i zero := by
  refine ext rfl ?_
  simp only [evict, set, update_idem]
  obtain rfl | hne := eq_or_ne i (b.size - 1)
  · simp
  · rw [update_of_ne hne.symm]

lemma evict_cell_of_lt {j : Nat} (hi : i < b.size) (h : j < i) (zero : α) :
    (b.evict i zero).cell j = b.cell j := by
  simp only [evict]
  rw [update_of_ne (by omega), update_of_ne (by omega)]

lemma above_evict (hn : n < b.size) (zero : α) : (b.evict n zero).above n = b.above (n + 1) := by
  obtain hlast | hlt : n = b.size - 1 ∨ n < b.size - 1 := by omega
  · have hz : b.size - 1 - n = 0 := by omega
    have hz' : b.size - (n + 1) = 0 := by omega
    simp [above, evict, hz, hz']
  · obtain ⟨k, hk⟩ : ∃ k, b.size = n + 2 + k := ⟨b.size - (n + 2), by omega⟩
    have hmoved : (b.evict n zero).cell n = b.cell (b.size - 1) := by
      simp only [evict]
      rw [update_of_ne (by omega), update_self]
    have hrest : (List.range' (n + 1) k).map (b.evict n zero).cell =
        (List.range' (n + 1) k).map b.cell := by
      refine map_congr_left fun i hi => ?_
      rw [mem_range'_1] at hi
      simp only [evict]
      rw [update_of_ne (by omega), update_of_ne (by omega)]
    have hsize : (b.evict n zero).size = n + 1 + k := by simp only [evict]; omega
    have hlast : b.above (n + 1) = b.cell (n + 1 + k) ::ₘ
        ((List.range' (n + 1) k).map b.cell : List α) := above_eq_last (by omega)
    rw [above_eq_cons (by omega), hmoved, hlast, above, hsize, Nat.add_sub_cancel_left, hrest]
    congr 2

/-- One cell among the others: what is left when it is replaced or removed. -/
lemma contents_split (hi : i < b.size) :
    ∃ rest, b.contents = b.cell i ::ₘ rest ∧ (∀ a, (b.set i a).contents = a ::ₘ rest) ∧
      ∀ zero, (b.evict i zero).contents = rest := by
  have hsplit (c : Bag α) (hc : i ≤ c.size) (hcell : ∀ j < i, c.cell j = b.cell j) :
      c.contents = ((List.range' 0 i).map b.cell : List α) + c.above i := by
    have hrange : List.range' 0 c.size = List.range' 0 i ++ List.range' i (c.size - i) := by
      have := List.range'_append_1 (s := 0) (m := i) (n := c.size - i)
      rw [Nat.zero_add, Nat.add_sub_of_le hc] at this
      exact this.symm
    have hold : (List.range' 0 i).map c.cell = (List.range' 0 i).map b.cell := by
      refine map_congr_left fun j hj => hcell j ?_
      simpa using hj
    rw [contents, above, above, Nat.sub_zero, hrange, map_append, hold, Multiset.coe_add]
  refine ⟨((List.range' 0 i).map b.cell : List α) + b.above (i + 1), ?_, fun a => ?_, fun z => ?_⟩
  · rw [hsplit b hi.le fun _ _ => rfl, above_eq_cons hi, Multiset.add_cons]
  · rw [hsplit (b.set i a) hi.le fun j hj => set_cell_of_ne (by omega) a, above_set hi,
      Multiset.add_cons]
  · have hsize : i ≤ (b.evict i z).size := by simp only [evict]; omega
    rw [hsplit _ hsize fun j hj => evict_cell_of_lt hi hj z, above_evict hi]

end Bag

end QubicCore.Library
