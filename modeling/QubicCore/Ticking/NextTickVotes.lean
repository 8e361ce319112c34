import QubicCore.Library.Tally
import QubicCore.Platform

/-!
# The digest of the next tick

A node that has votes of the next tick looks for the digest of its tick data: one with a quorum
of votes, or the zero digest of an empty tick when enough votes ask for it or when no digest can
reach a quorum any more. The arrays it counts in are global and keep what earlier calls wrote.
-/

namespace QubicCore.Ticking

open Library.Cells Library.Tally Finset Function

variable {x : M256i}

/-- The fields of a computor's tick vote that the search reads. -/
structure Tick where
  epoch : Nat
  transactionDigest : M256i

/-- The global variables of the search. -/
structure NextTickDigest where
  uniqueNextTickTransactionDigests : Nat → M256i
  uniqueNextTickTransactionDigestCounters : Nat → Nat
  targetNextTickDataDigest : M256i
  targetNextTickDataDigestIsKnown : Bool

variable (epoch : Nat) (tsCompTicks : Nat → Tick)

/-- Votes of the current epoch in the slots of the next tick. -/
def updateFutureTickCount : Nat :=
  (List.range NUMBER_OF_COMPUTORS).foldl (fun futureTickTotalNumberOfComputors i =>
    if (tsCompTicks i).epoch = epoch then futureTickTotalNumberOfComputors + 1
    else futureTickTotalNumberOfComputors) 0

/-- State of the loop over the computors. -/
structure Scan where
  digests : Nat → M256i
  counters : Nat → Nat
  (numberOfUniqueNextTickTransactionDigests numberOfEmptyNextTickTransactionDigest : Nat)

def Scan.vote (s : Scan) (digest : M256i) : Scan :=
  let m := s.numberOfUniqueNextTickTransactionDigests
  let j := ((List.range m).find? fun j => digest = s.digests j).getD m
  let s := if j = m then
      { s with
        digests := update s.digests m digest
        counters := update s.counters m 1
        numberOfUniqueNextTickTransactionDigests := m + 1 }
    else { s with counters := update s.counters j (s.counters j + 1) }
  if isZero digest then
    { s with
      numberOfEmptyNextTickTransactionDigest := s.numberOfEmptyNextTickTransactionDigest + 1 }
  else s

def scanVotes (s : Scan) : Scan :=
  (List.range NUMBER_OF_COMPUTORS).foldl (fun s i =>
    if (tsCompTicks i).epoch = epoch then s.vote (tsCompTicks i).transactionDigest else s) s

/-- Index of the largest counter and the sum of all counters; cell 0 is always read. -/
def mostPopular (counters : Nat → Nat) (m : Nat) : Nat × Nat :=
  (List.range (m - 1)).foldl (fun (st : Nat × Nat) i =>
    (if counters (i + 1) > counters st.1 then i + 1 else st.1, st.2 + counters (i + 1)))
    (0, counters 0)

variable (g : NextTickDigest)

def findNextTickDataDigestFromNextTickVotes : NextTickDigest :=
  let s := scanVotes epoch tsCompTicks ⟨g.uniqueNextTickTransactionDigests,
    g.uniqueNextTickTransactionDigestCounters, 0, 0⟩
  let g := { g with
    uniqueNextTickTransactionDigests := s.digests
    uniqueNextTickTransactionDigestCounters := s.counters }
  let p := mostPopular s.counters s.numberOfUniqueNextTickTransactionDigests
  if s.counters p.1 ≥ QUORUM then
    { g with
      targetNextTickDataDigest := s.digests p.1
      targetNextTickDataDigestIsKnown := true }
  else if s.numberOfEmptyNextTickTransactionDigest > NUMBER_OF_COMPUTORS - QUORUM ∨
      ((s.counters p.1 : Int) + (NUMBER_OF_COMPUTORS - p.2)) % 2 ^ 32 < QUORUM then
    { g with
      targetNextTickDataDigest := 0
      targetNextTickDataDigestIsKnown := true }
  else g

/-- The search as `tickProcessor` runs it, behind the count of votes. Votes that arrive between
count and search only raise the count. -/
def searchNextTickDigest : NextTickDigest :=
  if updateFutureTickCount epoch tsCompTicks > NUMBER_OF_COMPUTORS - QUORUM then
    findNextTickDataDigestFromNextTickVotes epoch tsCompTicks g
  else g

/-! ## The votes as a view -/

def votes (i : Nat) : Option M256i :=
  if (tsCompTicks i).epoch = epoch then some (tsCompTicks i).transactionDigest else none

variable {epoch : Nat} {tsCompTicks : Nat → Tick} {v : Nat → Option M256i} {k : Nat} {s : Scan}

lemma updateFutureTickCount_eq (epoch : Nat) (tsCompTicks : Nat → Tick) :
    updateFutureTickCount epoch tsCompTicks =
      received NUMBER_OF_COMPUTORS (votes epoch tsCompTicks) := by
  refine foldl_range (fun k (c : Nat) => c = received k (votes epoch tsCompTicks)) rfl ?_
  rintro k _ _ rfl
  rw [received_succ]
  split_ifs <;> simp_all [votes]

/-- What the scan has counted after `k` computors. -/
structure Counted (v : Nat → Option M256i) (k : Nat) (s : Scan) : Prop where
  distinct : ∀ i < s.numberOfUniqueNextTickTransactionDigests,
    ∀ j < s.numberOfUniqueNextTickTransactionDigests, s.digests i = s.digests j → i = j
  counter : ∀ j < s.numberOfUniqueNextTickTransactionDigests, s.counters j = tally k v (s.digests j)
  complete : ∀ i < k, ∀ x, v i = some x →
    ∃ j < s.numberOfUniqueNextTickTransactionDigests, s.digests j = x
  empties : s.numberOfEmptyNextTickTransactionDigest = tally k v 0
  total : ∑ j ∈ range s.numberOfUniqueNextTickTransactionDigests, s.counters j = received k v

lemma Counted.skip (h : Counted v k s) (hv : v k = none) : Counted v (k + 1) s where
  distinct := h.distinct
  counter j hj := by simp [tally_succ, hv, h.counter j hj]
  complete i hi x hx := by
    obtain hlt | rfl := Nat.lt_succ_iff_lt_or_eq.mp hi
    · exact h.complete i hlt x hx
    · simp [hv] at hx
  empties := by simp [tally_succ, hv, h.empties]
  total := by simp [received_succ, hv, h.total]

/-- The index the inner loop ends at: that of the digest, or one past the last. -/
lemma find_digest (digests : Nat → M256i) (m : Nat) (x : M256i) :
    (∃ j < m, ((List.range m).find? fun j => x = digests j).getD m = j ∧ digests j = x) ∨
      (((List.range m).find? fun j => x = digests j).getD m = m ∧ ∀ j < m, digests j ≠ x) := by
  cases hf : (List.range m).find? fun j => x = digests j with
  | none =>
    refine .inr ⟨rfl, fun j hj he => ?_⟩
    simpa [he] using List.find?_eq_none.mp hf j (List.mem_range.mpr hj)
  | some j =>
    have hj := List.mem_range.mp (List.mem_of_find?_eq_some hf)
    have hx := List.find?_some hf
    exact .inl ⟨j, hj, rfl, by simpa using (of_decide_eq_true hx).symm⟩

lemma Counted.repeated (h : Counted v k s) {j : Nat}
    (hj : j < s.numberOfUniqueNextTickTransactionDigests) (hv : v k = some (s.digests j))
    {e : Nat} (he : e = tally (k + 1) v 0) :
    Counted v (k + 1) { s with
      counters := update s.counters j (s.counters j + 1)
      numberOfEmptyNextTickTransactionDigest := e } where
  distinct := h.distinct
  counter i hi := by
    by_cases hij : i = j
    · subst hij
      simp [tally_succ, hv, h.counter i hi]
    · have hne : s.digests j ≠ s.digests i := fun hd => hij (h.distinct i hi j hj hd.symm)
      simp [tally_succ, hv, hij, hne, h.counter i hi]
  complete i hi x hx := by
    obtain hlt | rfl := Nat.lt_succ_iff_lt_or_eq.mp hi
    · exact h.complete i hlt x hx
    · exact ⟨j, hj, Option.some.inj (hv.symm.trans hx)⟩
  empties := he
  total := by
    have hs := sum_update hj s.counters (s.counters j + 1) id
    simp only [id] at hs
    have ht := h.total
    simp only [received_succ, hv, ne_eq, reduceCtorEq, not_false_eq_true, if_true]
    omega

lemma Counted.fresh (h : Counted v k s) (hv : v k = some x)
    (hx : ∀ j < s.numberOfUniqueNextTickTransactionDigests, s.digests j ≠ x) {e : Nat}
    (he : e = tally (k + 1) v 0) :
    Counted v (k + 1) {
      digests := update s.digests s.numberOfUniqueNextTickTransactionDigests x
      counters := update s.counters s.numberOfUniqueNextTickTransactionDigests 1
      numberOfUniqueNextTickTransactionDigests := s.numberOfUniqueNextTickTransactionDigests + 1
      numberOfEmptyNextTickTransactionDigest := e } := by
  have hzero : tally k v x = 0 := by
    rw [tally, count, card_eq_zero, filter_eq_empty_iff]
    intro i hi hvi
    obtain ⟨j, hj, hjx⟩ := h.complete i (mem_range.mp hi) x hvi
    exact hx j hj hjx
  have hnew : ∀ j < s.numberOfUniqueNextTickTransactionDigests,
      j ≠ s.numberOfUniqueNextTickTransactionDigests := fun j hj => hj.ne
  refine ⟨fun i hi j hj hij => ?_, fun j hj => ?_, fun i hi y hy => ?_, he, ?_⟩
  · obtain hi | rfl := Nat.lt_succ_iff_lt_or_eq.mp hi <;>
      obtain hj | rfl := Nat.lt_succ_iff_lt_or_eq.mp hj
    · exact h.distinct i hi j hj (by simpa [hnew i hi, hnew j hj] using hij)
    · exact absurd (by simpa [hnew i hi] using hij) (hx i hi)
    · exact absurd (by simpa [hnew j hj] using hij.symm) (hx j hj)
    · rfl
  · obtain hj | rfl := Nat.lt_succ_iff_lt_or_eq.mp hj
    · simp [hnew j hj, tally_succ, hv, (hx j hj).symm, h.counter j hj]
    · simp [tally_succ, hv, hzero]
  · obtain hi | rfl := Nat.lt_succ_iff_lt_or_eq.mp hi
    · obtain ⟨j, hj, hjy⟩ := h.complete i hi y hy
      exact ⟨j, by simpa using hj.trans (Nat.lt_succ_self _), by simpa [hnew j hj] using hjy⟩
    · exact ⟨_, Nat.lt_succ_self _, by simpa using Option.some.inj (hv.symm.trans hy)⟩
  · have hsame : ∑ j ∈ range s.numberOfUniqueNextTickTransactionDigests,
        update s.counters s.numberOfUniqueNextTickTransactionDigests 1 j =
          received k v := by
      rw [← h.total]
      exact sum_congr rfl fun j hj => by simp [hnew j (mem_range.mp hj)]
    simp [sum_range_succ, hsame, received_succ, hv]

lemma Counted.vote (h : Counted v k s) (hv : v k = some x) : Counted v (k + 1) (s.vote x) := by
  have hempty : (if isZero x then s.numberOfEmptyNextTickTransactionDigest + 1
      else s.numberOfEmptyNextTickTransactionDigest) = tally (k + 1) v 0 := by
    simp only [tally_succ, hv, h.empties, Option.some.injEq, isZero_iff]
    split_ifs <;> rfl
  obtain ⟨j, hj, hfind, hjx⟩ | ⟨hfind, hx⟩ :=
    find_digest s.digests s.numberOfUniqueNextTickTransactionDigests x
  · have hnext := h.repeated hj (by rw [hv, hjx]) hempty
    simp only [Scan.vote, hfind, hj.ne, if_false]
    split_ifs at hnext ⊢ <;> exact hnext
  · have hnext := h.fresh hv hx hempty
    simp only [Scan.vote, hfind, if_true]
    split_ifs at hnext ⊢ <;> exact hnext

lemma scanVotes_counted (epoch : Nat) (tsCompTicks : Nat → Tick) (digests : Nat → M256i)
    (counters : Nat → Nat) :
    Counted (votes epoch tsCompTicks) NUMBER_OF_COMPUTORS
      (scanVotes epoch tsCompTicks ⟨digests, counters, 0, 0⟩) := by
  refine foldl_range (fun k s => Counted (votes epoch tsCompTicks) k s) ?_ ?_
  · exact ⟨by simp, by simp, by simp, by simp [tally, count], by simp [received, count]⟩
  · intro k _ s h
    split_ifs with he
    · exact h.vote (if_pos he)
    · exact h.skip (if_neg he)

lemma mostPopular_spec (counters : Nat → Nat) {m : Nat} (hm : 0 < m) :
    (mostPopular counters m).1 < m ∧ (∀ j < m, counters j ≤ counters (mostPopular counters m).1) ∧
      (mostPopular counters m).2 = ∑ j ∈ range m, counters j := by
  obtain ⟨m, rfl⟩ := Nat.exists_eq_add_one_of_ne_zero hm.ne'
  refine foldl_range (fun k (st : Nat × Nat) => st.1 < k + 1 ∧
    (∀ j < k + 1, counters j ≤ counters st.1) ∧ st.2 = ∑ j ∈ range (k + 1), counters j)
    (by simp) ?_
  rintro k _ ⟨p, total⟩ ⟨hp, hmax, rfl⟩
  refine ⟨?_, fun j hj => ?_, by rw [sum_range_succ _ (k + 1)]⟩
  · split_ifs <;> omega
  · dsimp only
    have hle : j ≠ k + 1 → counters j ≤ counters p := fun hne => hmax j (by omega)
    split_ifs with hgt
    · by_cases hjk : j = k + 1
      · rw [hjk]
      · exact (hle hjk).trans hgt.le
    · by_cases hjk : j = k + 1
      · rw [hjk]; omega
      · exact hle hjk

/-! ## Decisions -/

/-- The largest counter bounds the votes of every digest. -/
lemma Counted.tally_le (h : Counted v k s)
    (hm : 0 < s.numberOfUniqueNextTickTransactionDigests) (x : M256i) :
    tally k v x ≤
      s.counters (mostPopular s.counters s.numberOfUniqueNextTickTransactionDigests).1 := by
  obtain ⟨_, hmax, _⟩ := mostPopular_spec s.counters hm
  by_cases hx : ∃ j < s.numberOfUniqueNextTickTransactionDigests, s.digests j = x
  · obtain ⟨j, hj, rfl⟩ := hx
    exact h.counter j hj ▸ hmax j hj
  · push Not at hx
    have hzero : tally k v x = 0 := by
      rw [tally, count, card_eq_zero, filter_eq_empty_iff]
      intro i hi hvi
      obtain ⟨j, hj, hjx⟩ := h.complete i (mem_range.mp hi) x hvi
      exact hx j hj hjx
    omega

/-- The search ends with a decision of the vote, or leaves the target as it was. -/
lemma findNextTickDataDigestFromNextTickVotes_spec (epoch : Nat) (tsCompTicks : Nat → Tick)
    (g : NextTickDigest)
    (hvotes : 0 < received NUMBER_OF_COMPUTORS (votes epoch tsCompTicks)) :
    (∃ x, Decides NUMBER_OF_COMPUTORS QUORUM 0 (votes epoch tsCompTicks) x ∧
      (findNextTickDataDigestFromNextTickVotes epoch tsCompTicks g).targetNextTickDataDigest = x ∧
      (findNextTickDataDigestFromNextTickVotes epoch tsCompTicks
        g).targetNextTickDataDigestIsKnown) ∨
    ((∀ x, ¬Decides NUMBER_OF_COMPUTORS QUORUM 0 (votes epoch tsCompTicks) x) ∧
      (findNextTickDataDigestFromNextTickVotes epoch tsCompTicks
        g).targetNextTickDataDigestIsKnown = g.targetNextTickDataDigestIsKnown) := by
  have h := scanVotes_counted epoch tsCompTicks g.uniqueNextTickTransactionDigests
    g.uniqueNextTickTransactionDigestCounters
  simp only [findNextTickDataDigestFromNextTickVotes]
  generalize scanVotes epoch tsCompTicks ⟨g.uniqueNextTickTransactionDigests,
    g.uniqueNextTickTransactionDigestCounters, 0, 0⟩ = s at h ⊢
  have hm : 0 < s.numberOfUniqueNextTickTransactionDigests := by
    by_contra hzero
    have htotal := h.total
    simp only [Nat.eq_zero_of_not_pos hzero, range_zero, sum_empty] at htotal
    omega
  have hle := h.tally_le hm
  obtain ⟨hp, _, htotal⟩ := mostPopular_spec s.counters hm
  have hcounter := h.counter _ hp
  have hreceived := received_le NUMBER_OF_COMPUTORS (votes epoch tsCompTicks)
  rw [h.total] at htotal
  generalize mostPopular s.counters s.numberOfUniqueNextTickTransactionDigests = p at *
  have hempties := h.empties
  generalize votes epoch tsCompTicks = v at *
  have hbound := tally_le NUMBER_OF_COMPUTORS v (s.digests p.1)
  have hmod : ((s.counters p.1 : Int) + (NUMBER_OF_COMPUTORS - p.2)) % 2 ^ 32 =
      s.counters p.1 + (NUMBER_OF_COMPUTORS - p.2) := by
    simp only [NUMBER_OF_COMPUTORS] at *
    omega
  split_ifs with hquorum hempty
  · exact .inl ⟨_, .quorum (hcounter ▸ hquorum), rfl, rfl⟩
  · refine .inl ⟨0, ?_, rfl, rfl⟩
    have hno : ∀ y, tally NUMBER_OF_COMPUTORS v y < QUORUM := fun y => by
      have := hle y
      omega
    obtain hveto | hhopeless := hempty
    · exact .veto hno (hempties ▸ hveto)
    · refine .hopeless fun y => ?_
      have := hle y
      omega
  · refine .inr ⟨fun x hx => ?_, rfl⟩
    cases hx with
    | quorum hx =>
      have := hle x
      omega
    | veto _ hveto => omega
    | hopeless hnone =>
      have := hnone (s.digests p.1)
      omega

lemma quorums_intersect : NUMBER_OF_COMPUTORS < 2 * QUORUM := by
  norm_num [NUMBER_OF_COMPUTORS, QUORUM]

lemma searchNextTickDigest_spec
    (hgate : NUMBER_OF_COMPUTORS - QUORUM < received NUMBER_OF_COMPUTORS (votes epoch tsCompTicks))
    (hx : Decides NUMBER_OF_COMPUTORS QUORUM 0 (votes epoch tsCompTicks) x) :
    (searchNextTickDigest epoch tsCompTicks g).targetNextTickDataDigest = x ∧
      (searchNextTickDigest epoch tsCompTicks g).targetNextTickDataDigestIsKnown := by
  rw [searchNextTickDigest, updateFutureTickCount_eq, if_pos hgate]
  obtain ⟨y, hy, htarget, hknown⟩ | ⟨hnone, _⟩ :=
    findNextTickDataDigestFromNextTickVotes_spec epoch tsCompTicks g (Nat.zero_lt_of_lt hgate)
  · have hview : View NUMBER_OF_COMPUTORS (votes epoch tsCompTicks) (votes epoch tsCompTicks) :=
      fun _ _ _ h => h
    exact ⟨htarget.trans (hy.agree quorums_intersect hview hview hx), hknown⟩
  · exact absurd hx (hnone x)

lemma decides_of_known {g : NextTickDigest} (hg : g.targetNextTickDataDigestIsKnown = false)
    (hknown : (searchNextTickDigest epoch tsCompTicks g).targetNextTickDataDigestIsKnown) :
    NUMBER_OF_COMPUTORS - QUORUM < received NUMBER_OF_COMPUTORS (votes epoch tsCompTicks) ∧
      Decides NUMBER_OF_COMPUTORS QUORUM 0 (votes epoch tsCompTicks)
        (searchNextTickDigest epoch tsCompTicks g).targetNextTickDataDigest := by
  rw [searchNextTickDigest, updateFutureTickCount_eq] at *
  split_ifs at hknown ⊢ with hgate
  · refine ⟨hgate, ?_⟩
    obtain ⟨x, hx, rfl, _⟩ | ⟨_, hsame⟩ :=
      findNextTickDataDigestFromNextTickVotes_spec epoch tsCompTicks g (Nat.zero_lt_of_lt hgate)
    · exact hx
    · rw [hsame, hg] at hknown
      cases hknown
  · rw [hg] at hknown
    cases hknown

/-- The votes a node holds are some of those that were cast. -/
def Received (epoch : Nat) (cast : Nat → M256i) (tsCompTicks : Nat → Tick) : Prop :=
  ∀ i < NUMBER_OF_COMPUTORS, (tsCompTicks i).epoch = epoch →
    (tsCompTicks i).transactionDigest = cast i

lemma Received.view {cast : Nat → M256i} (h : Received epoch cast tsCompTicks) :
    View NUMBER_OF_COMPUTORS (votes epoch tsCompTicks) fun i => some (cast i) := by
  intro i hi x hx
  unfold votes at hx
  split_ifs at hx with he
  simpa [← h i hi he] using hx

/-- Two nodes that decide agree, and a decision stands when more votes of the same computors
come in. -/
theorem nextTickDigest_agreement (cast : Nat → M256i) {ticksA ticksB : Nat → Tick}
    {gA gB : NextTickDigest} (hA : Received epoch cast ticksA) (hB : Received epoch cast ticksB)
    (hgA : gA.targetNextTickDataDigestIsKnown = false)
    (hknown : (searchNextTickDigest epoch ticksA gA).targetNextTickDataDigestIsKnown) :
    (gB.targetNextTickDataDigestIsKnown = false →
      (searchNextTickDigest epoch ticksB gB).targetNextTickDataDigestIsKnown →
      (searchNextTickDigest epoch ticksA gA).targetNextTickDataDigest =
        (searchNextTickDigest epoch ticksB gB).targetNextTickDataDigest) ∧
    ((∀ i < NUMBER_OF_COMPUTORS, (ticksA i).epoch = epoch → (ticksB i).epoch = epoch) →
      (searchNextTickDigest epoch ticksB gB).targetNextTickDataDigestIsKnown ∧
      (searchNextTickDigest epoch ticksB gB).targetNextTickDataDigest =
        (searchNextTickDigest epoch ticksA gA).targetNextTickDataDigest) := by
  obtain ⟨hgate, hdecides⟩ := decides_of_known hgA hknown
  constructor
  · intro hgB hknownB
    obtain ⟨_, hdecidesB⟩ := decides_of_known hgB hknownB
    exact hdecides.agree quorums_intersect hA.view hB.view hdecidesB
  · intro hlarger
    have hview : View NUMBER_OF_COMPUTORS (votes epoch ticksA) (votes epoch ticksB) := by
      intro i hi x hx
      unfold votes at hx ⊢
      split_ifs at hx with he
      rw [if_pos (hlarger i hi he), hB i hi (hlarger i hi he), ← hA i hi he]
      exact hx
    exact (searchNextTickDigest_spec gB (hgate.trans_le hview.received_le)
      (hdecides.mono hview)).symm

/-- All computors vote for one digest; the first node misses ten of the votes. -/
def mostTicks (i : Nat) : Tick := ⟨if i < 10 then 0 else 1, ⟨7⟩⟩

def allTicks (_ : Nat) : Tick := ⟨1, ⟨7⟩⟩

lemma mostTicks_decides :
    NUMBER_OF_COMPUTORS - QUORUM < received NUMBER_OF_COMPUTORS (votes 1 mostTicks) ∧
      Decides NUMBER_OF_COMPUTORS QUORUM 0 (votes 1 mostTicks) ⟨7⟩ :=
  ⟨by decide +kernel, .quorum (by decide +kernel)⟩

theorem nextTickDigest_agreement_allTicks :
    (searchNextTickDigest 1 allTicks
      ⟨fun _ => 0, fun _ => 500, 0, false⟩).targetNextTickDataDigest =
      (searchNextTickDigest 1 mostTicks
        ⟨fun _ => 0, fun _ => 0, 0, false⟩).targetNextTickDataDigest :=
  ((nextTickDigest_agreement (fun _ => ⟨7⟩) (fun _ _ _ => rfl) (fun _ _ _ => rfl) rfl
    (searchNextTickDigest_spec _ mostTicks_decides.1 mostTicks_decides.2).2).2
    fun _ _ _ => rfl).2

end QubicCore.Ticking
