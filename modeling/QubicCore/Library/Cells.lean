import Mathlib

/-!
# Arrays as functions on their indices

An array of `n` cells is a function of the index, read below `n` only. Sums over the cells are
the bookkeeping of every counter that a program keeps beside an array: writing one cell moves
such a sum by the difference of the two cells.
-/

namespace QubicCore.Library.Cells

open Finset Function

variable {α M : Type*} {n : Nat} {p : Nat → Prop} {r : Nat} {q : Nat → Prop}
  {σ : Type*} {a : σ}

/-- Writing cell `r` exchanges its summand. -/
lemma sum_update [AddCommMonoid M] (hr : r < n) (t : Nat → α) (e : α) (g : α → M) :
    ∑ i ∈ range n, g (update t r e i) + g (t r) = ∑ i ∈ range n, g (t i) + g e := by
  have hmem : r ∈ range n := mem_range.mpr hr
  have hrest : ∑ i ∈ (range n).erase r, g (update t r e i) = ∑ i ∈ (range n).erase r, g (t i) := by
    refine sum_congr rfl fun i hi => ?_
    rw [update_of_ne (ne_of_mem_erase hi)]
  rw [← add_sum_erase _ _ hmem, ← add_sum_erase (range n) (fun i => g (t i)) hmem, hrest,
    update_self]
  abel

def count (n : Nat) (p : Nat → Prop) [DecidablePred p] : Nat := ((range n).filter p).card

lemma count_eq_sum (n : Nat) (p : Nat → Prop) [DecidablePred p] :
    count n p = ∑ i ∈ range n, if p i then 1 else 0 := card_filter _ _

lemma count_succ (n : Nat) (p : Nat → Prop) [DecidablePred p] :
    count (n + 1) p = count n p + if p n then 1 else 0 := by
  rw [count_eq_sum, count_eq_sum, sum_range_succ]

lemma count_add {r : Nat → Prop} [DecidablePred p] [DecidablePred q] [DecidablePred r]
    (h : ∀ i < n, (p i ↔ q i ∨ r i) ∧ ¬(q i ∧ r i)) :
    count n p = count n q + count n r := by
  simp only [count_eq_sum, ← sum_add_distrib]
  refine sum_congr rfl fun i hi => ?_
  have := h i (mem_range.mp hi)
  split_ifs <;> simp_all

lemma count_le (n : Nat) (p : Nat → Prop) [DecidablePred p] : count n p ≤ n := by
  simpa [count] using card_filter_le (range n) p

/-- Fewer matching cells than cells leave one that does not match. -/
lemma exists_not_of_count_lt [DecidablePred p] (h : count n p < n) : ∃ i < n, ¬p i := by
  by_contra hall
  push Not at hall
  have hfull : count n p = n := by
    rw [count, filter_true_of_mem (fun i hi => hall i (mem_range.mp hi)), card_range]
  omega

lemma exists_of_count_pos [DecidablePred p] (h : 0 < count n p) : ∃ i < n, p i := by
  obtain ⟨i, hi⟩ := card_pos.1 h
  exact ⟨i, mem_range.1 (mem_filter.1 hi).1, (mem_filter.1 hi).2⟩

lemma count_congr [DecidablePred p] [DecidablePred q] (h : ∀ i < n, p i ↔ q i) :
    count n p = count n q := by
  unfold count
  rw [filter_congr fun i hi => h i (mem_range.mp hi)]

lemma count_mono [DecidablePred p] [DecidablePred q] (h : ∀ i < n, p i → q i) :
    count n p ≤ count n q :=
  card_le_card fun i hi => by
    simp only [mem_filter, mem_range] at hi ⊢
    exact ⟨hi.1, h i hi.1 hi.2⟩

lemma count_lt {k : Nat} (h : k ≤ n) : count n (· < k) = k := by
  rw [count, show (range n).filter (· < k) = range k by ext i; simp; omega, card_range]

lemma count_update_same {t : Nat → α} {e : α} {p : α → Prop} [DecidablePred p]
    (he : p e ↔ p (t r)) :
    count n (fun i => p (update t r e i)) = count n (fun i => p (t i)) := by
  refine count_congr fun i _ => ?_
  by_cases hir : i = r
  · subst hir; simpa using he
  · simp [hir]

lemma count_update_new (hr : r < n) {t : Nat → α} {e : α} {p : α → Prop} [DecidablePred p]
    (ht : ¬p (t r)) (he : p e) :
    count n (fun i => p (update t r e i)) = count n (fun i => p (t i)) + 1 := by
  have hs := sum_update hr t e fun x => if p x then 1 else 0
  simpa [count_eq_sum, ht, he] using hs

lemma count_insert (hr : r < n) [DecidablePred p] [DecidablePred q] (hp : ¬p r) (hq : q r)
    (hother : ∀ i < n, i ≠ r → (q i ↔ p i)) :
    count n q = count n p + 1 := by
  have hset : (range n).filter q = insert r ((range n).filter p) := by
    ext i
    grind
  rw [count, hset, card_insert_of_notMem (by simp [hp]), count]

lemma count_le_succ (r : Nat) [DecidablePred p] [DecidablePred q]
    (h : ∀ i < n, i ≠ r → q i → p i) : count n q ≤ count n p + 1 := by
  have hsub : (range n).filter q ⊆ insert r ((range n).filter p) := by
    intro i hi
    grind
  exact (card_le_card hsub).trans (card_insert_le _ _)

/-! ## Loops over the cells -/

/-- Invariant rule for `for (i = 0; i < n; i++)`. -/
lemma foldl_range {f : σ → Nat → σ} (P : Nat → σ → Prop) (hinit : P 0 a)
    (hstep : ∀ k < n, ∀ s, P k s → P (k + 1) (f s k)) :
    P n ((List.range n).foldl f a) := by
  induction n with
  | zero => exact hinit
  | succ n ih =>
    rw [List.range_succ, List.foldl_append]
    exact hstep n (by omega) _ (ih fun k hk => hstep k (by omega))

/-- A loop over `k * n` cells runs block after block. -/
lemma foldl_range_mul (f : σ → Nat → σ) (a : σ) (k n : Nat) :
    (List.range (k * n)).foldl f a = (List.range n).foldl (fun s block =>
      (List.range k).foldl (fun s m => f s (k * block + m)) s) a := by
  induction n with
  | zero => rfl
  | succ n ih =>
    rw [Nat.mul_succ, List.range_add, List.foldl_append, ih, List.foldl_map, List.range_succ,
      List.foldl_append, List.foldl_cons, List.foldl_nil]

/-- The same rule for a body that may fail: here it never does. -/
lemma foldlM_range {f : σ → Nat → Option σ} (P : Nat → σ → Prop)
    (hinit : P 0 a) (hstep : ∀ k < n, ∀ s, P k s → ∃ s', f s k = some s' ∧ P (k + 1) s') :
    ∃ s, (List.range n).foldlM f a = some s ∧ P n s := by
  induction n with
  | zero => exact ⟨a, rfl, hinit⟩
  | succ n ih =>
    obtain ⟨s, hs, hP⟩ := ih fun k hk => hstep k (by omega)
    obtain ⟨s', hs', hP'⟩ := hstep n (by omega) s hP
    exact ⟨s', by simp [List.range_succ, List.foldlM_append, hs, hs'], hP'⟩

/-- The same rule for a loop that did come to its end. -/
lemma foldlM_range_of_some {f : σ → Nat → Option σ} {b : σ} (P : Nat → σ → Prop)
    (hinit : P 0 a) (hstep : ∀ k < n, ∀ s s', P k s → f s k = some s' → P (k + 1) s')
    (hrun : (List.range n).foldlM f a = some b) : P n b := by
  induction n generalizing b with
  | zero =>
    obtain rfl : a = b := by simpa using hrun
    exact hinit
  | succ n ih =>
    simp only [List.range_succ, List.foldlM_append, Option.bind_eq_bind,
      Option.bind_eq_some_iff, List.foldlM_cons, List.foldlM_nil, Option.pure_def,
      Option.some.injEq, exists_eq_right] at hrun
    obtain ⟨s, hs, hb⟩ := hrun
    exact hstep n (by omega) s b (ih (fun k hk => hstep k (by omega)) hs) hb

/-- Two loops in step: what the first returns is matched by the second. -/
lemma foldlM_rel {α β γ : Type*} {r : β → γ → Prop} {f : β → α → Option β}
    {g : γ → α → Option γ} {l : List α} {b b' : β} {c : γ}
    (hstep : ∀ a b c b', r b c → f b a = some b' → ∃ c', g c a = some c' ∧ r b' c')
    (h : r b c) (hb : l.foldlM f b = some b') : ∃ c', l.foldlM g c = some c' ∧ r b' c' := by
  induction l generalizing b c with
  | nil =>
    obtain rfl := Option.some.inj hb
    exact ⟨c, rfl, h⟩
  | cons a l ih =>
    obtain ⟨b₁, hb₁, hb⟩ := Option.bind_eq_some_iff.mp hb
    obtain ⟨c₁, hc₁, h₁⟩ := hstep a b c b₁ h hb₁
    obtain ⟨c', hc', h'⟩ := ih h₁ hb
    exact ⟨c', by rw [List.foldlM_cons, hc₁]; exact hc', h'⟩

end QubicCore.Library.Cells
