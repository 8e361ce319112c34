import Mathlib

/-!
# Insertion by neighbour exchanges

An entry of an array moves towards the front as long as the entry before it ranks below it, and
never past the start of its block. The array is only rearranged inside the block, and a block in
which at most this entry ranks too low is in order afterwards. Inserting the entries of a range
one by one sorts the array.
-/

namespace QubicCore.Library

open List

variable {α : Type*} {β : Type*} [LinearOrder β] {rank : α → β} {a : Nat → α} {lo hi n : Nat}
  {below : α → α → Bool} {i m : Nat}

/-- Move entry `i` towards the front. Where its block starts may depend on its position. -/
def bubble (below : α → α → Bool) (start : Nat → Nat) : Nat → (Nat → α) → Nat → α
  | 0, a => a
  | i + 1, a =>
    if start (i + 1) < i + 1 ∧ below (a i) (a (i + 1)) then
      bubble below start i (a ∘ Equiv.swap i (i + 1))
    else a

def insertFrom (below : α → α → Bool) (m n : Nat) (a : Nat → α) : Nat → α :=
  (range n).foldl (fun a k => bubble below (fun _ => 0) (m + k) a) a

/-- The cells from `lo` on and before `hi` hold no higher rank than any later one of them. -/
def Ordered (rank : α → β) (a : Nat → α) (lo hi : Nat) : Prop :=
  ∀ j k, lo ≤ j → j < k → k < hi → rank (a j) ≤ rank (a k)

/-- The cells are in order but for cell `i`, which is only known to be in order with the cells
after it. -/
structure OrderedExcept (rank : α → β) (a : Nat → α) (lo hi i : Nat) : Prop where
  others : ∀ j k, lo ≤ j → j < k → k < hi → j ≠ i → k ≠ i → rank (a j) ≤ rank (a k)
  after : ∀ k, i < k → k < hi → rank (a i) ≤ rank (a k)

lemma Ordered.congr {b : Nat → α} (h : Ordered rank a lo hi)
    (hab : ∀ j, lo ≤ j → j < hi → b j = a j) : Ordered rank b lo hi := by
  intro j k hj hjk hk
  rw [hab j hj (hjk.trans hk), hab k (hj.trans hjk.le) hk]
  exact h j k hj hjk hk

lemma Ordered.except_last (h : Ordered rank a lo hi) : OrderedExcept rank a lo (hi + 1) hi :=
  ⟨fun j k hj hjk hk _ hki => h j k hj hjk (by omega), fun k hk hk' => by omega⟩

lemma Ordered.except_of_le {b : Nat → α} (h : Ordered rank a lo hi) (hi' : lo ≤ i)
    (hother : ∀ j ≠ i, b j = a j) (hle : rank (b i) ≤ rank (a i)) :
    OrderedExcept rank b lo hi i := by
  refine ⟨fun j k hj hjk hk hji hki => ?_, fun k hk hkh => ?_⟩
  · rw [hother j hji, hother k hki]
    exact h j k hj hjk hk
  · rw [hother k hk.ne']
    exact hle.trans (h i k hi' hk hkh)

lemma bubble_perm (below : α → α → Bool) {start : Nat → Nat} (a : Nat → α) (hlo : lo ≤ i)
    (hstart : ∀ j, lo ≤ j → j ≤ i → start j = lo) :
    ∃ σ : Equiv.Perm Nat, bubble below start i a = a ∘ σ ∧ ∀ j, j < lo ∨ i < j → σ j = j := by
  induction i generalizing a with
  | zero => exact ⟨Equiv.refl _, rfl, fun _ _ => rfl⟩
  | succ i ih =>
    rw [bubble, hstart (i + 1) hlo le_rfl]
    split_ifs with hmove
    · obtain ⟨σ, hσ, hfix⟩ := ih (a ∘ Equiv.swap i (i + 1)) (by omega)
        fun j hj hji => hstart j hj (by omega)
      refine ⟨σ.trans (Equiv.swap i (i + 1)), ?_, fun j hj => ?_⟩
      · rw [hσ]
        rfl
      · rw [Equiv.trans_apply, hfix j (by omega),
          Equiv.swap_apply_of_ne_of_ne (by omega) (by omega)]
    · exact ⟨Equiv.refl _, rfl, fun _ _ => rfl⟩

/-- One exchange takes the entry that is out of order one place forward. -/
lemma OrderedExcept.exchange (h : OrderedExcept rank a lo hi (i + 1)) (hlo : lo < i + 1)
    (hi' : i + 1 < hi) (hlt : rank (a (i + 1)) < rank (a i)) :
    OrderedExcept rank (a ∘ Equiv.swap i (i + 1)) lo hi i := by
  have hleft : (a ∘ Equiv.swap i (i + 1)) i = a (i + 1) := by simp
  have hright : (a ∘ Equiv.swap i (i + 1)) (i + 1) = a i := by simp
  have hother : ∀ j ≠ i, j ≠ i + 1 → (a ∘ Equiv.swap i (i + 1)) j = a j := fun j h₁ h₂ => by
    simp [Equiv.swap_apply_of_ne_of_ne h₁ h₂]
  constructor
  · intro j k hj hjk hk hji hki
    rcases eq_or_ne k (i + 1) with rfl | hk'
    · rw [hright, hother j hji (by omega)]
      exact h.others j i hj (by omega) (by omega) (by omega) (by omega)
    rcases eq_or_ne j (i + 1) with rfl | hj'
    · rw [hright, hother k hki hk']
      exact h.others i k (by omega) (by omega) hk (by omega) hk'
    · rw [hother j hji hj', hother k hki hk']
      exact h.others j k hj hjk hk hj' hk'
  · intro k hk hkh
    rw [hleft]
    rcases eq_or_ne k (i + 1) with rfl | hk'
    · rw [hright]
      exact hlt.le
    · rw [hother k (by omega) hk']
      exact h.after k (by omega) hkh

/-- At the start of its block, or after an entry that does not rank below it, the entry is in its
place. -/
lemma OrderedExcept.ordered (h : OrderedExcept rank a lo hi i)
    (hstop : lo < i → rank (a (i - 1)) ≤ rank (a i)) :
    Ordered rank a lo hi := by
  intro j k hj hjk hk
  rcases eq_or_ne j i with rfl | hji
  · exact h.after k hjk hk
  rcases eq_or_ne k i with rfl | hki
  · refine le_trans ?_ (hstop (by omega))
    rcases eq_or_ne j (k - 1) with rfl | hj'
    · exact le_rfl
    · exact h.others j (k - 1) hj (by omega) (by omega) hji (by omega)
  · exact h.others j k hj hjk hk hji hki

/-- The comparison only needs to be right for the entry that moves. -/
lemma bubble_ordered {start : Nat → Nat} (hlo : lo ≤ i) (hi' : i < hi)
    (hstart : ∀ j, lo ≤ j → j ≤ i → start j = lo)
    (hbelow : ∀ x, below x (a i) ↔ rank (a i) < rank x) (h : OrderedExcept rank a lo hi i) :
    Ordered rank (bubble below start i a) lo hi := by
  induction i generalizing a with
  | zero => exact h.ordered fun h' => absurd h' (by omega)
  | succ i ih =>
    rw [bubble, hstart (i + 1) hlo le_rfl]
    split_ifs with hmove
    · apply ih (by omega) (by omega) fun j hj hji => hstart j hj (by omega)
      · intro x
        simpa using hbelow x
      · exact h.exchange hmove.1 hi' ((hbelow _).1 hmove.2)
    · apply h.ordered
      intro hlt
      by_contra hrank
      exact hmove ⟨hlt, (hbelow _).2 (not_le.1 hrank)⟩

/-- Sorting by insertion rearranges the entries and puts them in order. -/
lemma insertFrom_spec
    (hbelow : ∀ k < n, ∀ x, below x (a (m + k)) ↔ rank (a (m + k)) < rank x)
    (h : Ordered rank a 0 m) :
    Ordered rank (insertFrom below m n a) 0 (m + n) ∧
      ∃ σ : Equiv.Perm Nat, insertFrom below m n a = a ∘ σ ∧ ∀ j, m + n ≤ j → σ j = j := by
  induction n with
  | zero => exact ⟨h, Equiv.refl _, rfl, fun _ _ => rfl⟩
  | succ n ih =>
    obtain ⟨hordered, σ, hσ, hfix⟩ := ih fun k hk => hbelow k (by omega)
    have hstep : insertFrom below m (n + 1) a =
        bubble below (fun _ => 0) (m + n) (insertFrom below m n a) := by
      simp [insertFrom, range_succ]
    have hentry : insertFrom below m n a (m + n) = a (m + n) := by
      rw [hσ, Function.comp_apply, hfix _ le_rfl]
    obtain ⟨τ, hτ, hfix'⟩ := bubble_perm below (insertFrom below m n a) (Nat.zero_le (m + n))
      fun _ _ _ => rfl
    refine ⟨?_, τ.trans σ, ?_, fun j hj => ?_⟩
    · rw [hstep]
      apply bubble_ordered (Nat.zero_le _) (Nat.lt_succ_self _) fun _ _ _ => rfl
      · rw [hentry]
        exact hbelow n (Nat.lt_succ_self n)
      · exact hordered.except_last
    · rw [hstep, hτ, hσ]
      rfl
    · rw [Equiv.trans_apply, hfix' j (by omega), hfix j (by omega)]

lemma perm_lt_iff {σ : Equiv.Perm Nat} (hfix : ∀ j, n ≤ j → σ j = j) (j : Nat) :
    σ j < n ↔ j < n := by
  constructor
  · intro h
    by_contra hj
    rw [hfix j (not_lt.1 hj)] at h
    exact hj h
  · intro h
    by_contra hj
    have := σ.injective (hfix (σ j) (not_lt.1 hj))
    omega

/-- What a rearrangement of the cells before `n` does to the list of these cells. -/
lemma map_range_perm (σ : Equiv.Perm Nat) (hfix : ∀ j, n ≤ j → σ j = j) (a : Nat → α) :
    ((range n).map (a ∘ σ)).Perm ((range n).map a) := by
  rw [← map_map]
  refine List.Perm.map a ((perm_ext_iff_of_nodup ?_ nodup_range).2 fun j => ?_)
  · exact nodup_range.map σ.injective
  · simp only [mem_map, mem_range]
    constructor
    · rintro ⟨k, hk, rfl⟩
      exact (perm_lt_iff hfix k).2 hk
    · intro hj
      exact ⟨σ.symm j, by rw [← perm_lt_iff hfix]; simpa using hj, by simp⟩

/-- Entries that rank after all of the first `m` cannot come before cell `m`: the first `m` would
have to share the cells before. -/
lemma lt_of_ordered {w : Nat} {σ : Equiv.Perm Nat} (hfix : ∀ j, m + n ≤ j → σ j = j)
    (horder : Ordered rank (a ∘ σ) 0 (m + n))
    (hlast : ∀ j < m, ∀ k, w ≤ k → k < n → rank (a j) < rank (a (m + k))) {k : Nat}
    (hk : k < m) : σ k < m + w := by
  by_contra hge
  have hbound : σ k < m + n := (perm_lt_iff hfix k).2 (by omega)
  obtain ⟨c, hc⟩ := Nat.exists_eq_add_of_le (show m ≤ σ k by omega)
  have hbefore : ∀ j ∈ Finset.range m, σ.symm j ∈ Finset.range k := by
    intro j hj
    rw [Finset.mem_range] at hj ⊢
    have hlt := hlast j hj c (by omega) (by omega)
    rw [← hc] at hlt
    have hsymm : σ.symm j < m + n := by
      rw [← perm_lt_iff hfix, Equiv.apply_symm_apply]
      omega
    by_contra hge'
    refine absurd hlt (not_lt.2 ?_)
    rcases (not_lt.1 hge').lt_or_eq with hlt' | heq
    · simpa using horder k (σ.symm j) (Nat.zero_le k) hlt' hsymm
    · rw [heq, Equiv.apply_symm_apply]
  have hcard := Finset.card_le_card_of_injOn σ.symm hbefore σ.symm.injective.injOn
  rw [Finset.card_range, Finset.card_range] at hcard
  omega

/-- The first `m` cells after sorting, if the entries from `m + w` on rank after all of the first
`m`: the best of the entries before `m + w`, in order. -/
lemma insertFrom_best {w : Nat} (hw : w ≤ n)
    (hbelow : ∀ k < n, ∀ x, below x (a (m + k)) ↔ rank (a (m + k)) < rank x)
    (h : Ordered rank a 0 m)
    (hlast : ∀ j < m, ∀ k, w ≤ k → k < n → rank (a j) < rank (a (m + k))) :
    ∃ rest, ((range m).map (insertFrom below m n a) ++ rest).Perm
        ((range (m + w)).map a) ∧
      ((range m).map (insertFrom below m n a) ++ rest).Pairwise
        fun x y => rank x ≤ rank y := by
  obtain ⟨horder, σ, hσ, hfix⟩ := insertFrom_spec hbelow h
  rw [hσ] at horder ⊢
  have hall : (range (m + n)).filter (fun k => σ k < m + w) =
      range m ++ ((range n).map (m + ·)).filter (fun k => σ k < m + w) := by
    rw [range_add, filter_append, filter_eq_self.2]
    intro k hk
    exact decide_eq_true (lt_of_ordered hfix horder hlast (mem_range.1 hk))
  refine ⟨(((range n).map (m + ·)).filter fun k => σ k < m + w).map (a ∘ σ), ?_⟩
  rw [← map_append, ← hall]
  constructor
  · have hperm := (map_range_perm σ hfix id).filter fun k => k < m + w
    rw [map_id, Function.id_comp, filter_map] at hperm
    have hrange : (range (m + n)).filter (fun k => k < m + w) = range (m + w) := by
      rw [show m + n = m + w + (n - w) by omega, range_add, filter_append,
        filter_eq_self.2, filter_eq_nil_iff.2, append_nil]
      · simp
      · simp
    rw [hrange] at hperm
    rw [← map_map]
    exact hperm.map a
  · apply List.Pairwise.map
    · intro j k hjk
      exact hjk
    · apply List.Pairwise.filter
      refine pairwise_iff_getElem.2 fun j k hj hk hjk => ?_
      rw [length_range] at hj hk
      simpa using horder j k (Nat.zero_le j) hjk hk

end QubicCore.Library
