import QubicCore.Library.Cells

/-!
# The index sets of the oracle engine

`UnsortedMultiset<T, N>`: an array with a fill count. An element is removed by moving the last one
into its place; the cells from the fill count on keep what they held, and `processTimeouts` reads
them.

`Holds m S` says that the array holds the elements of `S`, each once.
-/

namespace QubicCore.Oracle

open Function Multiset

structure UnsortedMultiset (T : Type) where
  values : Nat → T
  numValues : Nat

namespace UnsortedMultiset

variable {T : Type} {idx : Nat}

def empty [Inhabited T] : UnsortedMultiset T := ⟨fun _ => default, 0⟩

def add (N : Nat) (m : UnsortedMultiset T) (v : T) : Bool × UnsortedMultiset T :=
  if m.numValues ≥ N then (false, m)
  else (true, ⟨update m.values m.numValues v, m.numValues + 1⟩)

def removeByIndex (m : UnsortedMultiset T) (idx : Nat) : Bool × UnsortedMultiset T :=
  if idx ≥ m.numValues ∨ m.numValues = 0 then (false, m)
  else
    let numValues := m.numValues - 1
    if idx ≠ numValues then
      (true, ⟨update m.values idx (m.values numValues), numValues⟩)
    else (true, ⟨m.values, numValues⟩)

/-- The loop of `removeByValue`. The first unit of `fuel` that is missing stands for a loop that
does not end: each round moves `idx` on, or is the one removal, or changes nothing. -/
def removeLoop [DecidableEq T] (v : T) :
    Nat → Nat → Bool → UnsortedMultiset T → Option (Bool × UnsortedMultiset T)
  | 0, _, _, _ => none
  | fuel + 1, idx, removedAny, m =>
    if idx < m.numValues then
      if m.values idx = v then
        -- `removedAny || removeByIndex(idx)` makes no second removal
        if removedAny then removeLoop v fuel idx removedAny m
        else
          let (removed, m') := m.removeByIndex idx
          removeLoop v fuel idx removed m'
      else removeLoop v fuel (idx + 1) removedAny m
    else some (removedAny, m)

def removeByValue [DecidableEq T] (m : UnsortedMultiset T) (v : T) :
    Option (Bool × UnsortedMultiset T) :=
  removeLoop v (m.numValues + 2) 0 false m

/-! ## The contents -/

def contents (m : UnsortedMultiset T) : Multiset T := (range m.numValues).map m.values

/-- The array holds the elements of `S`, each once. -/
structure Holds (m : UnsortedMultiset T) (S : Finset T) : Prop where
  injOn : ∀ i < m.numValues, ∀ j < m.numValues, m.values i = m.values j → i = j
  mem : ∀ x, x ∈ S ↔ ∃ i < m.numValues, m.values i = x

variable {m : UnsortedMultiset T} {S : Finset T} {v : T}

lemma mem_contents : v ∈ m.contents ↔ ∃ i < m.numValues, m.values i = v := by simp [contents]

lemma holds_iff : m.Holds S ↔ m.contents = S.val := by
  constructor
  · intro h
    have hnodup : m.contents.Nodup :=
      Nodup.map_on (by simpa using h.injOn) (nodup_range _)
    exact (hnodup.ext S.nodup).2 fun x => mem_contents.trans (h.mem x).symm
  · intro h
    have hnodup : m.contents.Nodup := h ▸ S.nodup
    refine ⟨by simpa using inj_on_of_nodup_map hnodup, fun x => ?_⟩
    rw [← Finset.mem_val, ← h, mem_contents]

lemma Holds.empty [Inhabited T] : Holds (T := T) empty ∅ := holds_iff.2 rfl

lemma Holds.card (h : m.Holds S) : S.card = m.numValues := by
  rw [Finset.card, ← holds_iff.1 h]
  simp [contents]

lemma removeByIndex_eq (hidx : idx < m.numValues) :
    m.removeByIndex idx =
      (true, ⟨update m.values idx (m.values (m.numValues - 1)), m.numValues - 1⟩) := by
  rw [removeByIndex, if_neg (by omega)]
  dsimp only
  split_ifs with hlast
  · rfl
  · rw [not_not.1 hlast, update_eq_self]

lemma contents_removeByIndex (hidx : idx < m.numValues) :
    m.contents = m.values idx ::ₘ (m.removeByIndex idx).2.contents := by
  obtain ⟨n, hn⟩ := Nat.exists_eq_add_one_of_ne_zero (Nat.ne_zero_of_lt hidx)
  rw [removeByIndex_eq hidx, contents, contents, hn, range_succ, map_cons]
  simp only [Nat.add_sub_cancel]
  by_cases hlast : idx = n
  · rw [hlast, update_eq_self]
  · have hmem : idx ∈ range n := mem_range.2 (by omega)
    rw [← cons_erase hmem, map_cons, map_cons, update_self,
      cons_swap]
    congr 2
    refine map_congr rfl fun i hi => (update_of_ne ?_ ..).symm
    exact ((nodup_range n).mem_erase_iff.1 hi).1

variable [DecidableEq T]

lemma Holds.add {N : Nat} (h : m.Holds S) (hv : v ∉ S) (hN : S.card < N) :
    (m.add N v).2.Holds (insert v S) := by
  rw [h.card] at hN
  rw [holds_iff, Finset.insert_val_of_notMem hv, ← holds_iff.1 h, UnsortedMultiset.add,
    if_neg (by omega), contents, contents, range_succ, map_cons]
  refine congrArg₂ _ (update_self ..) (map_congr rfl fun i hi => update_of_ne ?_ ..)
  exact (mem_range.1 hi).ne

/-! ## Removal by value -/

/-- What is left to walk over holds no further `v`. -/
lemma removeLoop_absent {fuel : Nat} {removedAny : Bool}
    (habsent : ∀ i, idx ≤ i → i < m.numValues → m.values i ≠ v) (hidx : idx ≤ m.numValues)
    (hfuel : m.numValues < idx + fuel) :
    removeLoop v fuel idx removedAny m = some (removedAny, m) := by
  induction fuel generalizing idx with
  | zero => omega
  | succ fuel ih =>
    rw [removeLoop]
    split_ifs with hlt hv
    · exact absurd hv (habsent idx le_rfl hlt)
    · exact absurd hv (habsent idx le_rfl hlt)
    · exact ih (fun i hi => habsent i (by omega)) (by omega) (by omega)
    · rfl

lemma removeLoop_present {fuel p : Nat} (hp : p < m.numValues) (hv : m.values p = v)
    (hunique : ∀ i < m.numValues, m.values i = v → i = p) (hidx : idx ≤ p)
    (hfuel : m.numValues + 1 < idx + fuel) :
    removeLoop v fuel idx false m = some (true, (m.removeByIndex p).2) := by
  induction fuel generalizing idx with
  | zero => omega
  | succ fuel ih =>
    rw [removeLoop, if_pos (by omega)]
    by_cases he : idx = p
    · subst he
      rw [if_pos hv, if_neg Bool.false_ne_true]
      simp only [removeByIndex_eq hp]
      refine removeLoop_absent (fun i _ hi => ?_) (by dsimp; omega) (by dsimp; omega)
      have := hunique i
      have := hunique (m.numValues - 1)
      grind
    · rw [if_neg fun hx => he (hunique _ (by omega) hx)]
      exact ih (by omega) (by omega)

lemma count_contents (m : UnsortedMultiset T) (v : T) :
    m.contents.count v = ((Finset.range m.numValues).filter fun i => v = m.values i).card :=
  count_map ..

/-- A value that occurs at most once is removed. Only its cell is written. -/
lemma removeByValue_of_count_le (hcount : m.contents.count v ≤ 1) :
    ∃ m', m.removeByValue v = some (decide (v ∈ m.contents), m') ∧
      m'.contents = m.contents.filter (· ≠ v) ∧
      ∀ j, (j < m.numValues → m.values j ≠ v) → m'.values j = m.values j := by
  have hfilter {s : Multiset T} (hs : v ∉ s) : s.filter (· ≠ v) = s :=
    filter_eq_self.2 fun x hx he => hs (he ▸ hx)
  by_cases hv : v ∈ m.contents
  · obtain ⟨p, hp, rfl⟩ := mem_contents.1 hv
    have hunique : ∀ i < m.numValues, m.values i = m.values p → i = p := by
      intro i hi he
      rw [count_contents] at hcount
      exact Finset.card_le_one.1 hcount i (by simp [hi, he]) p (by simp [hp])
    have hrest := contents_removeByIndex hp
    have hnot : m.values p ∉ (m.removeByIndex p).2.contents := by
      intro hmem
      rw [hrest, count_cons_self] at hcount
      have := count_pos.2 hmem
      omega
    refine ⟨(m.removeByIndex p).2, ?_, ?_, fun j hj => ?_⟩
    · rw [removeByValue, removeLoop_present hp rfl hunique (Nat.zero_le p) (by omega),
        decide_eq_true hv]
    · rw [hrest, filter_cons_of_neg _ (by simp), hfilter hnot]
    · rw [removeByIndex_eq hp]
      exact update_of_ne (fun he => by grind) ..
  · refine ⟨m, ?_, (hfilter hv).symm, fun _ _ => rfl⟩
    rw [removeByValue, removeLoop_absent (fun i _ hi he => hv (mem_contents.2 ⟨i, hi, he⟩))
      (Nat.zero_le _) (by omega), decide_eq_false hv]

/-- `removeByValue` on a set ends and removes the value. Only the cell of the value is written. -/
lemma Holds.removeByValue (h : m.Holds S) (v : T) :
    ∃ m', m.removeByValue v = some (decide (v ∈ S), m') ∧ m'.Holds (S.erase v) ∧
      ∀ j, (j < m.numValues → m.values j ≠ v) → m'.values j = m.values j := by
  rw [holds_iff] at h
  obtain ⟨m', hrun, hcontents, hkept⟩ := removeByValue_of_count_le
    (m := m) (nodup_iff_count_le_one.1 (h ▸ S.nodup) v)
  refine ⟨m', ?_, ?_, hkept⟩
  · simpa [h] using hrun
  · rw [holds_iff, hcontents, h, ← Finset.filter_ne', Finset.filter_val]

/-- After a removal the loop does not get past a further occurrence. -/
lemma removeLoop_stuck {fuel p : Nat} (hp : p < m.numValues) (hv : m.values p = v)
    (hidx : idx ≤ p) : removeLoop v fuel idx true m = none := by
  induction fuel generalizing idx with
  | zero => rfl
  | succ fuel ih =>
    rw [removeLoop, if_pos (by omega)]
    by_cases he : m.values idx = v
    · rw [if_pos he, if_pos rfl]
      exact ih hidx
    · rw [if_neg he]
      exact ih (by grind)

lemma removeLoop_twice {fuel p q : Nat} (hpq : p < q) (hq : q < m.numValues)
    (hvp : m.values p = v) (hvq : m.values q = v) (hidx : idx ≤ p) :
    removeLoop v fuel idx false m = none := by
  induction fuel generalizing idx with
  | zero => rfl
  | succ fuel ih =>
    rw [removeLoop, if_pos (by omega)]
    by_cases he : m.values idx = v
    · rw [if_pos he, if_neg Bool.false_ne_true]
      simp only [removeByIndex_eq (show idx < m.numValues by omega)]
      -- the second occurrence stays where it is, or it is the one that is moved
      by_cases hlast : q = m.numValues - 1
      · exact removeLoop_stuck (by dsimp; omega) (by simp [← hlast, hvq]) le_rfl
      · refine removeLoop_stuck (p := q) (by dsimp; omega) ?_ (by omega)
        exact (update_of_ne (by omega) ..).trans hvq
    · rw [if_neg he]
      exact ih (by grind)

/-- The loop ends and removes every occurrence exactly if there is at most one. -/
theorem removeByValue_removes_all_iff (m : UnsortedMultiset T) (v : T) :
    (∃ fuel m', removeLoop v fuel 0 false m = some (decide (v ∈ m.contents), m') ∧
      m'.contents = m.contents.filter (· ≠ v)) ↔ m.contents.count v ≤ 1 := by
  constructor
  · rintro ⟨fuel, m', hrun, -⟩
    by_contra hcount
    rw [count_contents, not_le, Finset.one_lt_card_iff] at hcount
    obtain ⟨p, q, hp, hq, hne⟩ := hcount
    wlog hlt : p < q generalizing p q
    · exact this q p hq hp hne.symm (by omega)
    rw [Finset.mem_filter, Finset.mem_range] at hp hq
    rw [removeLoop_twice hlt hq.1 hp.2.symm hq.2.symm (Nat.zero_le p)] at hrun
    cases hrun
  · intro hcount
    obtain ⟨m', hrun, hcontents, -⟩ := removeByValue_of_count_le hcount
    exact ⟨_, m', hrun, hcontents⟩

theorem removeByValue_twice :
    ¬∃ fuel r, removeLoop 7 fuel 0 false (⟨fun _ => 7, 2⟩ : UnsortedMultiset Nat) = some r := by
  rintro ⟨fuel, r, hrun⟩
  cases hrun.symm.trans
    (removeLoop_twice Nat.zero_lt_one (show 1 < 2 by decide) rfl rfl le_rfl)

end UnsortedMultiset

end QubicCore.Oracle
