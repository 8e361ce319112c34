import QubicCore.Library.Cells
import QubicCore.Platform

/-!
# Stable computor indices

At the end of an epoch the computors that stay keep their index, and the new ones are put into the
free indices in their order.
-/

namespace QubicCore.Ticking

open Library Function List

structure StableIndexBuffer where
  tempComputorList : Nat → M256i
  (isIndexTaken isFutureComputorUsed : Nat → Bool)

abbrev indices : List Nat :=
  range NUMBER_OF_COMPUTORS

section

variable (futureComputors currentComputors : Nat → M256i)

/-- Body of the first loop, whose inner loop stops at the first index that fits. -/
def keepIndex (b : StableIndexBuffer) (futureIdx : Nat) : StableIndexBuffer :=
  match indices.find? fun currentIdx =>
    futureComputors futureIdx = currentComputors currentIdx with
  | none => b
  | some currentIdx =>
    { tempComputorList := update b.tempComputorList currentIdx (futureComputors futureIdx)
      isIndexTaken := update b.isIndexTaken currentIdx true
      isFutureComputorUsed := update b.isFutureComputorUsed futureIdx true }

/-- Body of the second loop, after which `nextNewComputorIdx` is behind the computor it took. -/
def fillIndex (st : Nat × StableIndexBuffer) (i : Nat) : Option (Nat × StableIndexBuffer) :=
  let (nextNewComputorIdx, b) := st
  if b.isIndexTaken i then some st
  else
    ((range' nextNewComputorIdx (NUMBER_OF_COMPUTORS - nextNewComputorIdx)).find? fun k =>
      !b.isFutureComputorUsed k).map fun k =>
      (k + 1, { b with
        tempComputorList := update b.tempComputorList i (futureComputors k)
        isFutureComputorUsed := update b.isFutureComputorUsed k true })

/-- Result and future computors afterwards. -/
def calculateStableComputorIndex : Bool × (Nat → M256i) :=
  let b := indices.foldl (keepIndex futureComputors currentComputors)
    ⟨fun _ => 0, fun _ => false, fun _ => false⟩
  match indices.foldlM (fillIndex futureComputors) (0, b) with
  | none => (false, futureComputors)
  | some (_, b) => (true, fun i =>
      if i < NUMBER_OF_COMPUTORS then b.tempComputorList i else futureComputors i)

end

def StableIndexBuffer.free (b : StableIndexBuffer) : List Nat :=
  indices.filter (!b.isIndexTaken ·)

def StableIndexBuffer.unused (b : StableIndexBuffer) : List Nat :=
  indices.filter (!b.isFutureComputorUsed ·)

attribute [local irreducible] NUMBER_OF_COMPUTORS

variable {future current : Nat → M256i} {b : StableIndexBuffer} {k i : Nat}

def Distinct (computors : Nat → M256i) : Prop :=
  (indices.map computors).Nodup

/-- The first loop after `k` future computors. -/
structure Keeping (future current : Nat → M256i) (k : Nat) (b : StableIndexBuffer) : Prop where
  used : ∀ f, b.isFutureComputorUsed f ↔ f < k ∧ ∃ c ∈ indices, future f = current c
  taken : ∀ c ∈ indices, b.isIndexTaken c ↔ ∃ f < k, future f = current c
  temp : ∀ c, b.isIndexTaken c → b.tempComputorList c = current c

lemma Keeping.keepIndex (h : Keeping future current k b) (hcurrent : Distinct current) :
    Keeping future current (k + 1) (keepIndex future current b k) := by
  obtain ⟨hused, htaken, htemp⟩ := h
  unfold Ticking.keepIndex
  cases hfind : indices.find? fun c => future k = current c with
  | none =>
    have hnew : ∀ c ∈ indices, future k ≠ current c := by simpa using hfind
    exact ⟨by grind, by grind, htemp⟩
  | some c =>
    have hc := mem_of_find?_eq_some hfind
    have heq : future k = current c := by simpa using find?_some hfind
    have hunique : ∀ c' ∈ indices, future k = current c' → c' = c := fun c' hc' h =>
      inj_on_of_nodup_map hcurrent hc' hc (h.symm.trans heq)
    exact ⟨by grind, by grind, by grind⟩

/-- The second loop before index `i`, with the buffer `b` of the first loop: the new computors, in
their order, are those in the free indices before `i` and those from the cursor on. -/
structure Filling (future : Nat → M256i) (b : StableIndexBuffer) (i : Nat)
    (st : Nat × StableIndexBuffer) : Prop where
  taken : st.2.isIndexTaken = b.isIndexTaken
  kept : ∀ c, b.isIndexTaken c → st.2.tempComputorList c = b.tempComputorList c
  filled : ((range i).filter (!b.isIndexTaken ·)).map st.2.tempComputorList ++
    ((range' st.1 (NUMBER_OF_COMPUTORS - st.1)).filter (!st.2.isFutureComputorUsed ·)).map future =
    b.unused.map future

lemma filter_range'_of_find? {p : Nat → Bool} {a n : Nat} (h : (range' a n).find? p = some k) :
    (range' a n).filter p = k :: (range' (k + 1) (a + n - (k + 1))).filter p := by
  induction n generalizing a with
  | zero => simp at h
  | succ n ih =>
    rw [range'_succ, find?_cons] at h
    rw [range'_succ, filter_cons]
    split at h
    · next hp =>
      obtain rfl := Option.some.inj h
      rw [if_pos hp, show a + (n + 1) - (a + 1) = n by omega]
    · next hp => rw [if_neg (by simp [hp]), ih h, show a + 1 + n = a + (n + 1) by omega]

lemma Filling.fillIndex {st : Nat × StableIndexBuffer} (h : Filling future b i st)
    (hi : i < NUMBER_OF_COMPUTORS) (hcount : b.free.length = b.unused.length) :
    ∃ st', fillIndex future st i = some st' ∧ Filling future b (i + 1) st' := by
  obtain ⟨next, t⟩ := st
  obtain ⟨htaken, hkept, hfilled⟩ := h
  unfold Ticking.fillIndex
  dsimp only at *
  rw [htaken]
  split_ifs with hfree
  · exact ⟨_, rfl, htaken, hkept, by simpa [range_succ, hfree] using hfilled⟩
  · have hsucc : (range (i + 1)).filter (!b.isIndexTaken ·) =
        (range i).filter (!b.isIndexTaken ·) ++ [i] := by
      simp [range_succ, hfree]
    cases hk : (range' next (NUMBER_OF_COMPUTORS - next)).find? (!t.isFutureComputorUsed ·) with
    | none =>
      -- there would be fewer new computors than free indices
      have hrest := filter_eq_nil_iff.mpr (find?_eq_none.mp hk)
      have hlt : _ ≤ b.free.length :=
        ((range_sublist.mpr hi).filter (!b.isIndexTaken ·)).length_le
      have hlength := congrArg length hfilled
      rw [Nat.succ_eq_add_one, hsucc, length_append, length_singleton] at hlt
      rw [hrest, map_nil, append_nil, length_map, length_map, ← hcount] at hlength
      omega
    | some k =>
      have hmem := mem_range'_1.mp (mem_of_find?_eq_some hk)
      refine ⟨_, rfl, rfl, fun c hc => ?_, ?_⟩
      · have hne : c ≠ i := by grind
        exact (update_of_ne hne ..).trans (hkept c hc)
      · rw [filter_range'_of_find? hk, Nat.add_sub_cancel' (by omega)] at hfilled
        rw [← hfilled, hsucc, map_append, append_assoc]
        refine congrArg₂ (· ++ ·) (map_congr_left fun c hc => ?_) ?_
        · exact update_of_ne (mem_range.mp (mem_filter.mp hc).1).ne ..
        · simp only [map_cons, map_nil, update_self, cons_append, nil_append]
          rw [filter_congr fun x hx => ?_]
          rw [update_of_ne (by have := mem_range'_1.mp hx; omega)]

lemma Keeping.perm (h : Keeping future current NUMBER_OF_COMPUTORS b) (hfuture : Distinct future)
    (hcurrent : Distinct current) :
    ((indices.filter b.isIndexTaken).map current).Perm
      ((indices.filter b.isFutureComputorUsed).map future) := by
  refine (perm_ext_iff_of_nodup (hcurrent.sublist (filter_sublist.map _))
    (hfuture.sublist (filter_sublist.map _))).mpr fun x => ?_
  have hused := h.used
  have htaken := h.taken
  constructor <;> grind

/-- Not one of the current computors. -/
def IsNew (current : Nat → M256i) (computor : M256i) : Bool :=
  indices.all fun c => computor ≠ current c

/-- A reordering that leaves everyone who stays at the current index, and the new computors in
their order. -/
structure Stable (future current result : Nat → M256i) : Prop where
  perm : (indices.map result).Perm (indices.map future)
  kept : ∀ f ∈ indices, ∀ c ∈ indices, future f = current c → result c = future f
  ordered : (indices.map result).filter (IsNew current) =
    (indices.map future).filter (IsNew current)

lemma Keeping.stable (h : Keeping future current NUMBER_OF_COMPUTORS b) (hfuture : Distinct future)
    (hcurrent : Distinct current) {result : Nat → M256i}
    (hkept : ∀ c ∈ indices, b.isIndexTaken c → result c = current c)
    (hfilled : b.free.map result = b.unused.map future) : Stable future current result := by
  have hnew : ∀ f ∈ indices, IsNew current (future f) = !b.isFutureComputorUsed f := by
    intro f hf
    rw [Bool.eq_iff_iff, IsNew, all_eq_true]
    simp [← Bool.not_eq_true, h.used, mem_range.mp hf]
  refine ⟨?_, fun f hf c hc heq => ?_, ?_⟩
  · have htaken : (indices.filter b.isIndexTaken).map result =
        (indices.filter b.isIndexTaken).map current :=
      map_congr_left fun c hc => hkept c (mem_filter.mp hc).1 (mem_filter.mp hc).2
    refine ((filter_append_perm b.isIndexTaken _).map result).symm.trans ?_
    refine .trans ?_ ((filter_append_perm b.isFutureComputorUsed _).map future)
    rw [map_append, map_append, htaken]
    exact (h.perm hfuture hcurrent).append (.of_eq hfilled)
  · rw [hkept c hc ((h.taken c hc).mpr ⟨f, mem_range.mp hf, heq⟩), heq]
  · rw [filter_map, filter_map, filter_congr (p := IsNew current ∘ future) hnew]
    refine .trans ?_ hfilled
    refine congrArg (map result) (filter_congr fun c hc => ?_)
    cases htaken : b.isIndexTaken c with
    | true => simpa [IsNew, hkept c hc htaken] using ⟨c, mem_range.mp hc, rfl⟩
    | false =>
      have hmem : result c ∈ b.free.map result :=
        mem_map_of_mem (mem_filter.mpr ⟨hc, by simp [htaken]⟩)
      obtain ⟨f, hf, heq⟩ := mem_map.mp (hfilled ▸ hmem)
      obtain ⟨hf, hunused⟩ := mem_filter.mp hf
      exact (congrArg _ heq.symm).trans ((hnew f hf).trans hunused)

/-- Without repetitions every computor that stays keeps its index, and the new ones fill the others
in their order. A failure leaves the future computors as they are. -/
theorem calculateStableComputorIndex_stable (future current : Nat → M256i) :
    (Distinct future → Distinct current →
      (calculateStableComputorIndex future current).1 = true ∧
        Stable future current (calculateStableComputorIndex future current).2) ∧
    ((calculateStableComputorIndex future current).1 = false →
      (calculateStableComputorIndex future current).2 = future) := by
  refine ⟨fun hfuture hcurrent => ?_, ?_⟩
  · have hkeep := Cells.foldl_range (n := NUMBER_OF_COMPUTORS) (Keeping future current)
      (a := ⟨fun _ => 0, fun _ => false, fun _ => false⟩) ⟨by simp, by simp, by simp⟩
      fun _ _ _ h => h.keepIndex hcurrent
    unfold calculateStableComputorIndex
    generalize foldl (keepIndex future current) _ _ = b at *
    have hcount : b.free.length = b.unused.length := by
      have hlength := (hkeep.perm hfuture hcurrent).length_eq
      have htaken := length_eq_length_filter_add (l := indices) b.isIndexTaken
      have hused := length_eq_length_filter_add (l := indices) b.isFutureComputorUsed
      rw [length_map, length_map] at hlength
      unfold StableIndexBuffer.free StableIndexBuffer.unused
      omega
    obtain ⟨st, hst, -, hkept, hfilled⟩ := Cells.foldlM_range
      (Filling future b) (a := (0, b)) ⟨rfl, fun _ _ => rfl,
        by simp [StableIndexBuffer.unused, range_eq_range']⟩
      fun i hi st h => h.fillIndex hi hcount
    simp only [hst]
    refine ⟨trivial, hkeep.stable hfuture hcurrent (fun c hc htaken => ?_) ?_⟩
    · rw [if_pos (mem_range.mp hc), hkept c htaken, hkeep.temp c htaken]
    · refine .trans (map_congr_left fun c hc => ?_)
        (append_inj_left (hfilled.trans (append_nil _).symm) (by rwa [length_map, length_map]))
      exact if_pos (mem_range.mp (mem_filter.mp hc).1)
  · unfold calculateStableComputorIndex
    dsimp only
    split <;> simp

def numbered (i : Nat) : M256i := ⟨BitVec.ofNat 256 i⟩

lemma distinct_numbered (k : Nat) : Distinct fun i => numbered (i + k) := by
  refine nodup_range.map_on fun i hi j hj h => ?_
  have hbits := congrArg (fun x => x.bits.toNat) h
  simp only [numbered, BitVec.toNat_ofNat, mem_range, NUMBER_OF_COMPUTORS] at hbits hi hj
  omega

/-- One computor leaves and one joins. -/
theorem calculateStableComputorIndex_stable_replaced :
    (calculateStableComputorIndex (fun i => numbered (i + 1)) fun i => numbered (i + 0)).1 ∧
      Stable (fun i => numbered (i + 1)) (fun i => numbered (i + 0))
        (calculateStableComputorIndex (fun i => numbered (i + 1)) fun i => numbered (i + 0)).2 :=
  (calculateStableComputorIndex_stable _ _).1 (distinct_numbered 1) (distinct_numbered 0)

end QubicCore.Ticking
