import QubicCore.Mining.AntColony.Basic

/-!
# What the records determine

The tick index, the set of the solutions seen and the heads of the chains are a function of the
records. If the ticks of the records do not decrease, then the records of a tick are a run, and the
search finds a record by its reference.
-/

namespace QubicCore.Mining.AntColony

open Function List AntSolutionRecord Derived

variable {slot i : Nat} {ref : SolutionRef}

/-! ## The derived state -/

/-- A record, as far as the derived state depends on it. -/
structure Entry where
  key : AntDedupKey
  selfRef : SolutionRef

def AntSolutionRecord.entry (rec : AntSolutionRecord) : Entry := ⟨rec.dedupKey, rec.selfRef⟩

def Derived.add (initialTick idx : Nat) (entry : Entry) (d : Derived) : Derived where
  tickIndex := update d.tickIndex (entry.selfRef.tick - initialTick)
    ((d.tickIndex (entry.selfRef.tick - initialTick)).add idx)
  dedup := insert entry.key d.dedup
  childHeadByParent :=
    if entry.key.parentRef.isRoot then d.childHeadByParent
    else d.childHeadByParent.insert entry.key.parentRef idx
  childHeadByMiner :=
    if entry.key.parentRef.isRoot then d.childHeadByMiner.insert entry.key.pubkey idx
    else d.childHeadByMiner

def derive (initialTick : Nat) (entries : List Entry) : Derived :=
  entries.zipIdx.foldl (fun d p => d.add initialTick p.2 p.1) .empty

def derived (initialTick : Nat) (records : List AntSolutionRecord) : Derived :=
  derive initialTick (records.map entry)

variable {initialTick : Nat} {entries : List Entry} {records : List AntSolutionRecord}

@[simp]
lemma derive_nil (initialTick : Nat) : derive initialTick [] = .empty := rfl

lemma derive_append (initialTick : Nat) (entries : List Entry) (entry : Entry) :
    derive initialTick (entries ++ [entry]) =
      (derive initialTick entries).add initialTick entries.length entry := by
  simp [derive, zipIdx_append, foldl_append]

lemma derived_append (initialTick : Nat) (records : List AntSolutionRecord)
    (rec : AntSolutionRecord) : derived initialTick (records ++ [rec]) =
      (derived initialTick records).add initialTick records.length rec.entry := by
  rw [derived, map_append, map_singleton, derive_append, length_map, derived]

lemma mem_dedup {key : AntDedupKey} : key ∈ (derived initialTick records).dedup ↔
    ∃ rec ∈ records, rec.dedupKey = key := by
  induction records using List.reverseRecOn with
  | nil => simp [derived, empty]
  | append_singleton records rec ih =>
    rw [derived_append]
    simp only [add, Finset.mem_insert, ih, mem_append, mem_singleton,
      or_and_right, exists_or, exists_eq_left, entry]
    grind

lemma parents_card_le (initialTick : Nat) (records : List AntSolutionRecord) :
    (derived initialTick records).childHeadByParent.keys.card ≤ records.length := by
  induction records using List.reverseRecOn with
  | nil => simp [derived, empty]
  | append_singleton records rec ih =>
    rw [derived_append, length_append]
    simp only [add]
    split_ifs
    · exact ih.trans (Nat.le_succ _)
    · have hkeys : ((derived initialTick records).childHeadByParent.insert
          rec.entry.key.parentRef records.length).keys =
          insert rec.entry.key.parentRef (derived initialTick records).childHeadByParent.keys := by
        ext ref
        simp only [Finmap.mem_keys, Finmap.mem_insert, Finset.mem_insert]
      rw [hkeys]
      exact (Finset.card_insert_le _ _).trans (Nat.succ_le_succ ih)

/-! ## The runs of the ticks -/

def Runs (initialTick : Nat) (ticks : List Nat) (tickIndex : Nat → AntTickSlot) : Prop :=
  ∀ slot i, (tickIndex slot).startIdx ≤ i ∧
    i < (tickIndex slot).startIdx + (tickIndex slot).count ↔ ticks[i]? = some (initialTick + slot)

/-- The run of the latest tick ends with the last place. -/
lemma Runs.end_eq {ticks : List Nat} {tickIndex : Nat → AntTickSlot}
    (h : Runs initialTick ticks tickIndex) (hsorted : ticks.Pairwise (· ≤ ·))
    (hlast : ∀ t ∈ ticks, t ≤ initialTick + slot) (hcount : (tickIndex slot).count ≠ 0) :
    (tickIndex slot).startIdx + (tickIndex slot).count = ticks.length := by
  have hmem := (h slot ((tickIndex slot).startIdx + (tickIndex slot).count - 1)).mp (by omega)
  obtain ⟨hlt, heq⟩ := List.getElem?_eq_some_iff.mp hmem
  -- A place behind the run would hold the same tick.
  by_contra hne
  have hnext : (tickIndex slot).startIdx + (tickIndex slot).count < ticks.length := by omega
  have hle := pairwise_iff_getElem.mp hsorted _ _ hlt hnext (by omega)
  have hge := hlast _ (getElem_mem hnext)
  have hsame := (h slot ((tickIndex slot).startIdx + (tickIndex slot).count)).mpr
    (List.getElem?_eq_some_iff.mpr ⟨hnext, by omega⟩)
  omega

lemma Runs.append {ticks : List Nat} {tickIndex : Nat → AntTickSlot} {tick : Nat}
    (h : Runs initialTick ticks tickIndex) (hsorted : ticks.Pairwise (· ≤ ·))
    (hlast : ∀ t ∈ ticks, t ≤ tick) (hslot : tick = initialTick + slot) :
    Runs initialTick (ticks ++ [tick])
      (update tickIndex slot ((tickIndex slot).add ticks.length)) := by
  have hbound := h.end_eq hsorted (hslot ▸ hlast)
  intro other i
  by_cases hother : other = slot
  · subst hother
    rw [update_self, List.getElem?_append]
    unfold AntTickSlot.add
    have hold := h other i
    split_ifs with hcount hi hi
    · have hno := (not_congr hold).mp (by omega)
      simp only [hno, iff_false]
      omega
    · simp only [List.getElem?_singleton]
      split_ifs with hend
      · simp only [hslot, iff_true]
        omega
      · simp only [iff_false]
        omega
    · rw [← hold]
      have := hbound hcount
      dsimp only
      omega
    · have := hbound hcount
      simp only [List.getElem?_singleton]
      split_ifs with hend
      · simp only [hslot, iff_true]
        omega
      · simp only [iff_false]
        omega
  · rw [update_of_ne hother, h other i, List.getElem?_append]
    split_ifs with hi
    · rfl
    · rw [List.getElem?_eq_none (not_lt.mp hi), List.getElem?_singleton]
      split_ifs
      · simp only [Option.some.injEq, false_iff]
        omega
      · rfl

lemma slotOf_eq_some {tick : Nat} : slotOf initialTick tick = some slot ↔
    initialTick ≤ tick ∧ slot = tick - initialTick ∧ slot < MAX_NUMBER_OF_TICKS_PER_EPOCH := by
  unfold slotOf
  split_ifs with hbefore hlt
  · simp only [false_iff]
    omega
  · rw [Option.some_inj]
    omega
  · simp only [false_iff]
    omega

/-- Distinct references of the epoch whose ticks do not decrease. -/
structure Ordered (initialTick : Nat) (refs : List SolutionRef) : Prop where
  sorted : refs.Pairwise fun a b => a.tick ≤ b.tick ∧ a ≠ b
  slot : ∀ ref ∈ refs, slotOf initialTick ref.tick = some (ref.tick - initialTick)
  not_root : ∀ ref ∈ refs, ref.isRoot = false

lemma Ordered.sublist {refs refs' : List SolutionRef} (h : Ordered initialTick refs)
    (hsub : refs'.Sublist refs) : Ordered initialTick refs' :=
  ⟨h.sorted.sublist hsub, fun ref href => h.slot ref (hsub.subset href), fun ref href =>
    h.not_root ref (hsub.subset href)⟩

lemma Ordered.nodup {refs : List SolutionRef} (h : Ordered initialTick refs) : refs.Nodup :=
  h.sorted.imp fun hab => hab.2

section

variable (h : Ordered initialTick (records.map selfRef))
include h

lemma Ordered.ticks_sorted : (records.map fun rec => rec.selfRef.tick).Pairwise (· ≤ ·) := by
  rw [pairwise_map]
  exact (pairwise_map.mp h.sorted).imp fun hab => hab.1

lemma derived_runs :
    Runs initialTick (records.map fun rec => rec.selfRef.tick)
      (derived initialTick records).tickIndex := by
  induction records using List.reverseRecOn with
  | nil => simp [derived, empty, Runs]
  | append_singleton records rec ih =>
    have hsorted := h.sorted
    rw [map_append, pairwise_append] at hsorted
    have hbefore : Ordered initialTick (records.map selfRef) :=
      h.sublist ((sublist_append_left records [rec]).map _)
    have hle := (slotOf_eq_some.mp (h.slot rec.selfRef (by simp))).1
    rw [derived_append, map_append, map_singleton]
    have hlast : ∀ t ∈ records.map (fun rec => rec.selfRef.tick), t ≤ rec.selfRef.tick := by
      intro t ht
      obtain ⟨r, hr, rfl⟩ := mem_map.mp ht
      exact (hsorted.2.2 r.selfRef (mem_map_of_mem hr) rec.selfRef (by simp)).1
    have hrun := (ih hbefore).append hbefore.ticks_sorted hlast (Nat.add_sub_of_le hle).symm
    rw [length_map] at hrun
    exact hrun

/-! ## The search -/

lemma Ordered.index_unique {j : Nat} {rec rec' : AntSolutionRecord} (hi : records[i]? = some rec)
    (hj : records[j]? = some rec') (href : rec.selfRef = rec'.selfRef) : i = j := by
  obtain ⟨hilt, rfl⟩ := List.getElem?_eq_some_iff.mp hi
  obtain ⟨hjlt, rfl⟩ := List.getElem?_eq_some_iff.mp hj
  by_contra hij
  have hne := pairwise_iff_getElem.mp h.sorted
  simp only [length_map, getElem_map] at hne
  rcases Nat.lt_or_gt_of_ne hij with hlt | hlt
  · exact (hne i j hilt hjlt hlt).2 href
  · exact (hne j i hjlt hilt hlt).2 href.symm

lemma Ordered.eq_of_selfRef {rec rec' : AntSolutionRecord} (hrec : rec ∈ records)
    (hrec' : rec' ∈ records) (href : rec.selfRef = rec'.selfRef) : rec = rec' := by
  obtain ⟨i, hi⟩ := mem_iff_getElem?.mp hrec
  obtain ⟨j, hj⟩ := mem_iff_getElem?.mp hrec'
  cases h.index_unique hi hj href
  exact Option.some_inj.mp (hi.symm.trans hj)

lemma findInRun_eq_some {rounds idx : Nat} : findInRun records ref rounds idx = some i ↔
      (idx ≤ i ∧ i < idx + rounds) ∧ ∃ rec, records[i]? = some rec ∧ rec.selfRef = ref := by
  induction rounds generalizing idx with
  | zero =>
    simp only [findInRun, reduceCtorEq, false_iff]
    omega
  | succ rounds ih =>
    unfold findInRun
    split
    · rename_i hnone
      simp only [reduceCtorEq, false_iff]
      rintro ⟨⟨hle, _⟩, rec, hi, _⟩
      have hlt := (List.getElem?_eq_some_iff.mp hi).1
      have := List.getElem?_eq_none_iff.mp hnone
      omega
    · rename_i rec hrec
      split_ifs with href
      · rw [Option.some_inj]
        constructor
        · rintro rfl
          exact ⟨by omega, rec, hrec, href⟩
        · rintro ⟨_, rec', hi, href'⟩
          exact h.index_unique hrec hi (href.trans href'.symm)
      · rw [ih]
        constructor
        · rintro ⟨hi, hrec'⟩
          exact ⟨by omega, hrec'⟩
        · rintro ⟨hi, rec', hget, href'⟩
          have hne : idx ≠ i := by
            rintro rfl
            cases Option.some_inj.mp (hrec.symm.trans hget)
            exact href href'
          exact ⟨by omega, rec', hget, href'⟩

/-- With the index of the first records, the search finds what lies among them. -/
lemma findIndexBySolutionRef_take {k : Nat} :
    findIndexBySolutionRef initialTick (derived initialTick (records.take k)).tickIndex records
      ref = some i ↔ i < k ∧ ∃ rec, records[i]? = some rec ∧ rec.selfRef = ref := by
  have hruns := derived_runs (h.sublist ((take_sublist k records).map _))
  have hmem : ∀ rec, records[i]? = some rec → rec.selfRef = ref →
      ref.isRoot = false ∧ slotOf initialTick ref.tick = some (ref.tick - initialTick) := by
    rintro rec hi rfl
    have hrec := mem_map_of_mem (f := selfRef) (mem_of_getElem? hi)
    exact ⟨h.not_root _ hrec, h.slot _ hrec⟩
  unfold findIndexBySolutionRef
  split_ifs with hroot
  · simp only [false_iff]
    rintro ⟨_, rec, hi, href⟩
    rw [(hmem rec hi href).1] at hroot
    cases hroot
  split
  · rename_i hslot
    simp only [reduceCtorEq, false_iff]
    rintro ⟨_, rec, hi, href⟩
    rw [(hmem rec hi href).2] at hslot
    cases hslot
  · rename_i slot hslot
    rw [findInRun_eq_some h, hruns slot i, List.getElem?_map, List.getElem?_take]
    obtain ⟨hle, heq, _⟩ := slotOf_eq_some.mp hslot
    constructor
    · rintro ⟨hrun, hrec⟩
      refine ⟨?_, hrec⟩
      by_contra hk
      rw [if_neg hk] at hrun
      cases hrun
    · rintro ⟨hk, rec, hi, href⟩
      refine ⟨?_, rec, hi, href⟩
      rw [if_pos hk, hi, Option.map_some, href, heq, Nat.add_sub_of_le hle]

/-- The search finds every record by its reference, and nothing else. -/
lemma findIndexBySolutionRef_eq_some :
    findIndexBySolutionRef initialTick (derived initialTick records).tickIndex records ref = some i
      ↔ ∃ rec, records[i]? = some rec ∧ rec.selfRef = ref := by
  have htake : findIndexBySolutionRef initialTick
      (derived initialTick (records.take records.length)).tickIndex records ref = some i ↔ _ :=
    findIndexBySolutionRef_take h
  rw [take_length] at htake
  rw [htake, and_iff_right_iff_imp]
  rintro ⟨rec, hi, _⟩
  exact (List.getElem?_eq_some_iff.mp hi).1

end

/-! ## The chains -/

def isChild (parentRef : SolutionRef) (pubkey : M256i) (key : AntDedupKey) : Bool :=
  if parentRef.isRoot then key.parentRef.isRoot ∧ key.pubkey = pubkey
  else key.parentRef = parentRef

def childrenOf (records : List AntSolutionRecord) (parentRef : SolutionRef) (pubkey : M256i) :
    List Nat :=
  (records.zipIdx.filter fun p => isChild parentRef pubkey p.1.dedupKey).map Prod.snd

lemma childrenOf_append (records : List AntSolutionRecord) (rec : AntSolutionRecord)
    (parentRef : SolutionRef) (pubkey : M256i) :
    childrenOf (records ++ [rec]) parentRef pubkey = childrenOf records parentRef pubkey ++
      if isChild parentRef pubkey rec.dedupKey then [records.length] else [] := by
  simp only [childrenOf, zipIdx_append, filter_append, map_append]
  congr 1
  simp only [zipIdx_singleton, filter_singleton, zero_add]
  split_ifs with hchild
  · rw [hchild]
    rfl
  · rw [Bool.not_eq_true] at hchild
    rw [hchild]
    rfl

/-- The walk from an index along the siblings. -/
inductive Chain (records : List AntSolutionRecord) : Nat → List Nat → Prop where
  | nil : Chain records NO_SIBLING []
  | cons {i : Nat} {rec : AntSolutionRecord} {l : List Nat} (hi : records[i]? = some rec)
      (hnext : Chain records rec.nextSiblingIdx l) : Chain records i (i :: l)

lemma Chain.append {l : List Nat} (h : Chain records i l) (more : List AntSolutionRecord) :
    Chain (records ++ more) i l := by
  induction h with
  | nil => exact .nil
  | cons hi _ ih =>
    exact .cons ((List.getElem?_append_left (List.getElem?_eq_some_iff.mp hi).1).trans hi) ih

lemma chainHead_add (d : Derived) (idx : Nat) (entry : Entry) (parentRef : SolutionRef)
    (pubkey : M256i) : chainHead (d.add initialTick idx entry) parentRef pubkey =
      if isChild parentRef pubkey entry.key then some idx else chainHead d parentRef pubkey := by
  unfold chainHead isChild add
  by_cases hroot : parentRef.isRoot
  · by_cases hentry : entry.key.parentRef.isRoot
    · by_cases hpubkey : entry.key.pubkey = pubkey
      · simp [hroot, hentry, hpubkey]
      · simp [hroot, hentry, hpubkey, Finmap.lookup_insert_of_ne _ (Ne.symm hpubkey)]
    · simp [hroot, hentry]
  · by_cases hparent : entry.key.parentRef = parentRef
    · simp [hroot, hparent]
    · by_cases hentry : entry.key.parentRef.isRoot
      · simp [hroot, hentry, hparent]
      · simp [hroot, hentry, hparent, Finmap.lookup_insert_of_ne _ (Ne.symm hparent)]

def Linked (initialTick : Nat) (records : List AntSolutionRecord) : Prop :=
  ∀ i rec, records[i]? = some rec → rec.nextSiblingIdx =
    (chainHead (derived initialTick (records.take i)) rec.parentRef rec.pubkey).getD NO_SIBLING

lemma chainHead_of_isChild {parentRef : SolutionRef} {pubkey : M256i} {key : AntDedupKey}
    (h : isChild parentRef pubkey key) (d : Derived) :
    chainHead d key.parentRef key.pubkey = chainHead d parentRef pubkey := by
  unfold isChild at h
  unfold chainHead
  split_ifs at h with hroot
  · simp only [decide_eq_true_eq] at h
    rw [if_pos h.1, if_pos hroot, h.2]
  · simp only [decide_eq_true_eq] at h
    rw [h]
    simp [hroot]

/-- The chain of a parent visits its children, the newest first. -/
lemma Linked.chain (h : Linked initialTick records) (parentRef : SolutionRef) (pubkey : M256i) :
    Chain records ((chainHead (derived initialTick records) parentRef pubkey).getD NO_SIBLING)
      (childrenOf records parentRef pubkey).reverse := by
  induction records using List.reverseRecOn with
  | nil =>
    have hnone : chainHead empty parentRef pubkey = none := by simp [chainHead, empty]
    rw [show derived initialTick [] = empty from rfl, hnone]
    exact .nil
  | append_singleton records rec ih =>
    have hbefore : Linked initialTick records := by
      intro i r hi
      have hlt := (List.getElem?_eq_some_iff.mp hi).1
      have hr := h i r ((List.getElem?_append_left hlt).trans hi)
      rwa [take_append_of_le_length hlt.le] at hr
    rw [derived_append, chainHead_add, childrenOf_append,
      show rec.entry.key = rec.dedupKey from rfl]
    split_ifs with hchild
    · have hlast : (records ++ [rec])[records.length]? = some rec := by simp
      have hnext := h _ rec hlast
      have hsame : chainHead (derived initialTick records) rec.parentRef rec.pubkey =
          chainHead (derived initialTick records) parentRef pubkey := chainHead_of_isChild hchild _
      rw [take_left, hsame] at hnext
      rw [reverse_append]
      refine .cons hlast ?_
      rw [hnext]
      exact (ih hbefore).append [rec]
    · rw [append_nil]
      exact (ih hbefore).append [rec]

end QubicCore.Mining.AntColony
