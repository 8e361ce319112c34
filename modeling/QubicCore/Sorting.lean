import QubicCore.Library.OrderStatistic

/-!
# `quickSort` and `MinHeap`

Sorting of a range of an array, and the binary heap of the priority queues.
-/

namespace QubicCore.Sorting

open Library Function

def swap {T : Type} (data : Nat → T) (idx1 idx2 : Nat) : Nat → T :=
  let tmp := data idx1
  update (update data idx1 (data idx2)) idx2 tmp

inductive SortingOrder where
  | sortAscending
  | sortDescending
deriving DecidableEq

section

variable {T : Type} (less : T → T → Bool) (order : SortingOrder)

def partitionStep (pivot : T) (st : Nat × (Nat → T)) (i : Nat) : Nat × (Nat → T) :=
  let nextIndex := st.1
  let range := st.2
  let shouldGoBefore := less (range i) pivot
  let shouldGoBefore := if order = .sortDescending then !shouldGoBefore else shouldGoBefore
  if shouldGoBefore then (nextIndex + 1, swap range nextIndex i) else (nextIndex, range)

def partition (range : Nat → T) (first last : Nat) : Nat × (Nat → T) :=
  let pivot := range last
  let (nextIndex, range) :=
    (List.range' first (last - first)).foldl (partitionStep less order pivot) (first, range)
  (nextIndex, swap range nextIndex last)

/-- `quickSort(range, first, stop - 1, order)`. Each call sorts fewer cells than its caller, so
`fuel` is not used up if it is the length of the range. -/
def quickSort : Nat → (Nat → T) → Nat → Nat → (Nat → T)
  | 0, range, _, _ => range
  | fuel + 1, range, first, stop =>
    if first + 1 ≥ stop then range
    else
      let (pivot, range) := partition less order range first (stop - 1)
      let range := quickSort fuel range first pivot
      quickSort fuel range (pivot + 1) stop

end

lemma swap_eq {T : Type} (data : Nat → T) (i j : Nat) : swap data i j = data ∘ Equiv.swap i j := by
  funext k
  simp only [swap, update_apply, Function.comp_apply, Equiv.swap_apply_def]
  split_ifs <;> simp_all

/-! ## Correctness of `quickSort` in ascending order -/

section

variable {T β : Type} [LinearOrder β] {key : T → β} {first : Nat}

def ascending (key : T → β) (a b : T) : Bool := decide (key a < key b)

/-- The loop of `partition` before index `i`: what was found below the pivot stands before
`nextIndex`, the rest behind it. -/
structure Partitioning (key : T → β) (range : Nat → T) (first last i : Nat) (st : Nat × (Nat → T)) :
    Prop where
  rearranged : Rearranged range st.2 first last
  first_le : first ≤ st.1
  le_index : st.1 ≤ i
  below : ∀ j, first ≤ j → j < st.1 → key (st.2 j) < key (range last)
  above : ∀ j, st.1 ≤ j → j < i → key (range last) ≤ key (st.2 j)

lemma Partitioning.step {range : Nat → T} {last i : Nat} {st : Nat × (Nat → T)}
    (h : Partitioning key range first last i st) (hi : i < last) :
    Partitioning key range first last (i + 1)
      (partitionStep (ascending key) .sortAscending (range last) st i) := by
  obtain ⟨next, r⟩ := st
  obtain ⟨hperm, hfirst, hle, hbelow, habove⟩ := h
  simp only [partitionStep, ascending, reduceCtorEq, if_false, decide_eq_true_eq]
  split_ifs with hlt
  · refine ⟨?_, by dsimp only; omega, by dsimp only; omega, fun j hj hj' => ?_,
      fun j hj hj' => ?_⟩ <;> dsimp only at * <;> rw [swap_eq]
    · exact hperm.trans (Rearranged.swap r (by omega) (by omega))
    · obtain rfl | hne := eq_or_ne j next
      · simpa using hlt
      · rw [Function.comp_apply, Equiv.swap_apply_of_ne_of_ne hne (by omega)]
        exact hbelow j hj (by omega)
    · obtain rfl | hne := eq_or_ne j i
      · simpa using habove next le_rfl (by omega)
      · rw [Function.comp_apply, Equiv.swap_apply_of_ne_of_ne (by omega) hne]
        exact habove j (by omega) (by omega)
  · refine ⟨hperm, hfirst, by dsimp only; omega, hbelow, fun j hj hj' => ?_⟩
    obtain rfl | hne := eq_or_ne j i
    · exact not_lt.1 hlt
    · exact habove j hj (by dsimp only at *; omega)

/-- What `partition` leaves behind: everything before the pivot is below it, nothing after it. -/
structure Partitioned (key : T → β) (range : Nat → T) (first last : Nat) (st : Nat × (Nat → T)) :
    Prop where
  rearranged : Rearranged range st.2 first (last + 1)
  first_le : first ≤ st.1
  le_last : st.1 ≤ last
  below : ∀ j, first ≤ j → j < st.1 → key (st.2 j) ≤ key (st.2 st.1)
  above : ∀ j, st.1 < j → j < last + 1 → key (st.2 st.1) ≤ key (st.2 j)

variable (key)

lemma partition_spec (range : Nat → T) {last : Nat} (hle : first ≤ last) :
    Partitioned key range first last
      (partition (ascending key) .sortAscending range first last) := by
  have hloop : Partitioning key range first last last
      ((List.range' first (last - first)).foldl
        (partitionStep (ascending key) .sortAscending (range last))
        (first, range)) := by
    rw [List.range'_eq_map_range, List.foldl_map]
    have hrun := Cells.foldl_range (n := last - first)
      (f := fun st k => partitionStep (ascending key) .sortAscending (range last) st
        (first + k)) (a := (first, range))
      (fun k st => Partitioning key range first last (first + k) st)
      ⟨Rearranged.refl .., le_rfl, le_rfl, fun j _ _ => by omega, fun j _ _ => by omega⟩
      fun k st hk h => h.step (by omega)
    rwa [Nat.add_sub_cancel' hle] at hrun
  rw [partition]
  generalize (List.range' first (last - first)).foldl _ _ = st at hloop ⊢
  obtain ⟨next, r⟩ := st
  obtain ⟨hperm, hfirst, hnext, hbelow, habove⟩ := hloop
  have hlast : r last = range last := hperm.eq_outside (.inr le_rfl)
  have hpivot : swap r next last next = range last := by simp [swap_eq, hlast]
  refine ⟨?_, hfirst, hnext, fun j hj hj' => ?_, fun j hj hj' => ?_⟩ <;> dsimp only at *
  · rw [swap_eq]
    exact (hperm.mono le_rfl (Nat.le_succ _)).trans (Rearranged.swap r (by omega) (by omega))
  · rw [hpivot, swap_eq, Function.comp_apply, Equiv.swap_apply_of_ne_of_ne (by omega) (by omega)]
    exact (hbelow j hj hj').le
  · rw [hpivot, swap_eq]
    obtain rfl | hne := eq_or_ne j last
    · simpa using habove next le_rfl hj
    · rw [Function.comp_apply, Equiv.swap_apply_of_ne_of_ne (by omega) hne]
      exact habove j (by omega) (by omega)

lemma quickSort_spec {fuel stop : Nat} (range : Nat → T) (hfuel : stop - first ≤ fuel) :
    Rearranged range (quickSort (ascending key) .sortAscending fuel range first stop) first stop ∧
      Ordered key (quickSort (ascending key) .sortAscending fuel range first stop) first stop := by
  induction fuel generalizing range first stop with
  | zero => exact ⟨Rearranged.refl .., fun j k hj hjk hk => by omega⟩
  | succ fuel ih =>
    rw [quickSort]
    split_ifs with hshort
    · exact ⟨Rearranged.refl .., fun j k hj hjk hk => by omega⟩
    · obtain ⟨hperm, hfirst, hlast, hbelow, habove⟩ :=
        partition_spec key range (by omega : first ≤ stop - 1)
      generalize partition _ _ range first (stop - 1) = st at *
      obtain ⟨pivot, r⟩ := st
      dsimp only at *
      rw [Nat.sub_add_cancel (by omega)] at hperm habove
      obtain ⟨hleft, hleftOrd⟩ := ih r (by omega : pivot - first ≤ fuel)
      generalize quickSort _ _ fuel r first pivot = l at *
      obtain ⟨hright, hrightOrd⟩ := ih l (by omega : stop - (pivot + 1) ≤ fuel)
      generalize quickSort _ _ fuel l (pivot + 1) stop = s at *
      refine ⟨hperm.trans ((hleft.mono le_rfl (by omega)).trans
        (hright.mono (by omega) le_rfl)), ?_⟩
      -- The pivot stays where it is, and neither half leaves its side of it.
      have hp : s pivot = r pivot := by
        rw [hright.eq_outside (.inl (by omega)), hleft.eq_outside (.inr le_rfl)]
      have hlow : ∀ j, first ≤ j → j < pivot → key (s j) ≤ key (s pivot) := by
        intro j hj hj'
        rw [hp, hright.eq_outside (.inl (by omega))]
        exact hleft.forall_block (p := fun x => key x ≤ key (r pivot)) hbelow j hj hj'
      have hhigh : ∀ j, pivot + 1 ≤ j → j < stop → key (s pivot) ≤ key (s j) := by
        rw [hp]
        refine hright.forall_block (p := fun x => key (r pivot) ≤ key x) fun j hj hj' => ?_
        rw [hleft.eq_outside (.inr (by omega))]
        exact habove j hj hj'
      intro j k hj hjk hk
      obtain hkp | rfl | hkp := Nat.lt_trichotomy k pivot
      · exact (hleftOrd.congr fun i _ hi => hright.eq_outside (.inl (by omega))) j k hj hjk hkp
      · exact hlow j hj hjk
      · obtain hjp | rfl | hjp := Nat.lt_trichotomy j pivot
        · exact (hlow j hj hjp).trans (hhigh k hkp hk)
        · exact hhigh k hkp hk
        · exact hrightOrd j k hjp hjk hk

/-- `quickSort` lists the keys as `List.mergeSort` does. -/
theorem quickSort_sorts (range : Nat → T) (stop fuel : Nat) :
    ∃ r, quickSort (ascending key) .sortAscending (stop + fuel) range 0 stop = r ∧
      Rearranged range r 0 stop ∧
      (List.range stop).map (key ∘ r) = ((List.range stop).map (key ∘ range)).mergeSort := by
  obtain ⟨hperm, hord⟩ := quickSort_spec key range (by omega : stop - 0 ≤ stop + fuel)
  have hkeys := hperm.map_range_perm.map key
  rw [List.map_map, List.map_map] at hkeys
  exact ⟨_, rfl, hperm, (hkeys.trans (List.mergeSort_perm ..).symm).eq_of_pairwise'
    (Ordered.pairwise_map hord) (List.pairwise_mergeSort' ..)⟩

end

structure MinHeap (T : Type) where
  data : Nat → T
  size : Nat

namespace MinHeap

variable {T : Type}

def init [Inhabited T] : MinHeap T := ⟨fun _ => default, 0⟩

section

variable (compare : T → T → Bool)

/-- The loop of `upHeap`; the index at least halves, so `fuel` is not used up. -/
def upHeapLoop : Nat → (Nat → T) → Nat → Nat × (Nat → T)
  | 0, data, idx => (idx, data)
  | fuel + 1, data, idx =>
    if idx = 0 then (idx, data)
    else
      let parentIdx := (idx - 1) / 2
      if compare (data idx) (data parentIdx) then
        upHeapLoop fuel (swap data idx parentIdx) parentIdx
      else (idx, data)

def upHeap (data : Nat → T) (idx : Nat) : Nat × (Nat → T) := upHeapLoop compare idx data idx

def downHeapLoop (size : Nat) : Nat → (Nat → T) → Nat → (Nat → T)
  | 0, data, _ => data
  | fuel + 1, data, idx =>
    let childIdx1 := idx * 2 + 1
    let childIdx2 := childIdx1 + 1
    if childIdx1 ≥ size then data
    else
      let minChildIdx :=
        if childIdx2 < size ∧ compare (data childIdx2) (data childIdx1) then childIdx2
        else childIdx1
      if compare (data minChildIdx) (data idx) then
        downHeapLoop size fuel (swap data idx minChildIdx) minChildIdx
      else data

def downHeap (size : Nat) (data : Nat → T) (idx : Nat) : Nat → T :=
  downHeapLoop compare size size data idx

def insert (capacity : Nat) (h : MinHeap T) (newElement : T) : Bool × MinHeap T :=
  if h.size ≥ capacity then (false, h)
  else
    let newIndex := h.size
    (true, ⟨(upHeap compare (update h.data newIndex newElement) newIndex).2, h.size + 1⟩)

def peek (h : MinHeap T) : Option T := if h.size = 0 then none else some (h.data 0)

def replace (h : MinHeap T) (newElement : T) : Option T × MinHeap T :=
  if h.size = 0 then (none, h)
  else
    (some (h.data 0), ⟨downHeap compare h.size (update h.data 0 newElement) 0, h.size⟩)

def removeFirstMatch [DecidableEq T] (h : MinHeap T) (elementToRemove : T) : Bool × MinHeap T :=
  match (List.range h.size).find? fun i => h.data i = elementToRemove with
  | none => (false, h)
  | some i =>
    let size := h.size - 1
    if i < size then
      let (i', data) := upHeap compare (update h.data i (h.data size)) i
      (true, ⟨downHeap compare size data i', size⟩)
    else (true, ⟨h.data, size⟩)

end

end MinHeap

end QubicCore.Sorting
