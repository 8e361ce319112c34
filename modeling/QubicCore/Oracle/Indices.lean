import QubicCore.Oracle.Commits

/-!
# The indices of the oracle engine

`Sound env s` is the invariant that ties the index structures to the array of queries. It is kept
by three kinds of change: a query that stays open changes together with its reply slot, a query is
finished, and a query is started.
-/

namespace QubicCore.Oracle

open Library.Probing Qpi Finset

namespace OracleEngine

variable {D : Type} (s : OracleEngine D)

def slot (i : Nat) : Nat := (s.queries i).statusVar.replyStateIndex

def reply (i : Nat) : OracleReplyState D := s.replyStates (s.slot i)

/-- Query `i` waits for its reply. -/
def Open (i : Nat) : Prop :=
  i < s.oracleQueryCount ∧ ((s.queries i).status = .pending ∨ (s.queries i).status = .committed)

def SlotsDistinct : Prop := ∀ i j, s.Open i → s.Open j → s.slot i = s.slot j → i = j

def Slots (P : OracleQueryMetadata → OracleReplyState D → Prop) (k : Nat) : Prop :=
  ∃ i, s.Open i ∧ s.slot i = k ∧ P (s.queries i) (s.reply i)

/-- The set `m` holds the slots of the open queries with the property `P`. -/
def Indexes (m : UnsortedMultiset Nat)
    (P : OracleQueryMetadata → OracleReplyState D → Prop) : Prop :=
  ∃ S, m.Holds S ∧ ∀ k, k ∈ S ↔ s.Slots P k

section

variable {s s' : OracleEngine D} {i j k n : Nat} {m : UnsortedMultiset Nat}
  {P : OracleQueryMetadata → OracleReplyState D → Prop}

lemma slots_of_open (hs : s.SlotsDistinct) (hi : s.Open i) :
    s.Slots P (s.slot i) ↔ P (s.queries i) (s.reply i) := by
  constructor
  · rintro ⟨j, hj, hslot, hP⟩
    obtain rfl := hs j i hj hi hslot
    exact hP
  · exact fun hP => ⟨i, hi, rfl, hP⟩

/-- Query `i` and its reply slot change, the query stays open. -/
structure Changed (s s' : OracleEngine D) (i : Nat) : Prop where
  isOpen : s.Open i
  stays : s'.Open i
  oracleQueryCount : s'.oracleQueryCount = s.oracleQueryCount
  queryIdToIndex : s'.queryIdToIndex = s.queryIdToIndex
  replyStatesIndex : s'.replyStatesIndex = s.replyStatesIndex
  pendingQueryIndices : s'.pendingQueryIndices = s.pendingQueryIndices
  others : ∀ j ≠ i, s'.queries j = s.queries j
  otherReplies : ∀ k ≠ s.slot i, s'.replyStates k = s.replyStates k
  queryId : (s'.queries i).queryId = (s.queries i).queryId
  slot : s'.slot i = s.slot i
  interfaceIndex : (s'.queries i).interfaceIndex = (s.queries i).interfaceIndex

lemma Changed.slot_all (h : Changed s s' i) (j : Nat) : s'.slot j = s.slot j := by
  obtain rfl | hj := Decidable.eq_or_ne j i
  exacts [h.slot, by rw [OracleEngine.slot, h.others j hj, OracleEngine.slot]]

lemma Changed.open_iff (h : Changed s s' i) (j : Nat) : s'.Open j ↔ s.Open j := by
  obtain rfl | hj := Decidable.eq_or_ne j i
  · exact iff_of_true h.stays h.isOpen
  · rw [Open, Open, h.oracleQueryCount, h.others j hj]

lemma Changed.reply_other (h : Changed s s' i) (hs : s.SlotsDistinct) (hj : s.Open j)
    (hne : j ≠ i) : s'.reply j = s.reply j := by
  rw [reply, h.slot_all]
  exact h.otherReplies _ fun he => hne (hs j i hj h.isOpen he)

lemma Changed.slots_iff (h : Changed s s' i) (hs : s.SlotsDistinct) (k : Nat) :
    s'.Slots P k ↔ if k = s.slot i then P (s'.queries i) (s'.reply i) else s.Slots P k := by
  split_ifs with hk
  · subst hk
    rw [← h.slot]
    refine slots_of_open (fun a b ha hb he => ?_) h.stays
    rw [h.slot_all, h.slot_all] at he
    exact hs a b ((h.open_iff a).1 ha) ((h.open_iff b).1 hb) he
  · refine exists_congr fun j => ?_
    rw [h.open_iff, h.slot_all]
    refine and_congr_right fun hj => and_congr_right fun hslot => ?_
    have hne : j ≠ i := by
      rintro rfl
      exact hk hslot.symm
    rw [h.others j hne, h.reply_other hs hj hne]

/-- How a set of slots is updated when the property goes from `old` to `new` for slot `k`. -/
inductive Updated (m : UnsortedMultiset Nat) (k : Nat) (old new : Prop) :
    UnsortedMultiset Nat → Prop
  | same : (new ↔ old) → Updated m k old new m
  | add : ¬old → new → Updated m k old new (m.add MAX_SIMULTANEOUS_ORACLE_QUERIES k).2
  | remove {r : Bool × UnsortedMultiset Nat} : m.removeByValue k = some r → ¬new →
    Updated m k old new r.2

lemma Indexes.removeByValue (hm : s.Indexes m P) (k : Nat) : ∃ r, m.removeByValue k = some r := by
  obtain ⟨S, hm, -⟩ := hm
  obtain ⟨m', hm', -⟩ := hm.removeByValue k
  exact ⟨_, hm'⟩

lemma Changed.indexes (h : Changed s s' i) (hs : s.SlotsDistinct) (hm : s.Indexes m P)
    (hlt : ∀ j, s.Open j → s.slot j < MAX_SIMULTANEOUS_ORACLE_QUERIES)
    {m' : UnsortedMultiset Nat}
    (hu : Updated m (s.slot i) (P (s.queries i) (s.reply i)) (P (s'.queries i) (s'.reply i)) m') :
    s'.Indexes m' P := by
  obtain ⟨S, hm, hS⟩ := hm
  cases hu with
  | same hiff =>
    refine ⟨S, hm, fun k => ?_⟩
    rw [hS, h.slots_iff hs]
    split_ifs with hk
    · rw [hk, hiff, slots_of_open hs h.isOpen]
    · rfl
  | add hold hnew =>
    have hnot : s.slot i ∉ S := by rwa [hS, slots_of_open hs h.isOpen]
    have hcard : S.card < MAX_SIMULTANEOUS_ORACLE_QUERIES := by
      rw [← card_range MAX_SIMULTANEOUS_ORACLE_QUERIES]
      refine card_lt_card ((ssubset_iff_of_subset fun k hk => ?_).2
        ⟨s.slot i, mem_range.2 (hlt i h.isOpen), hnot⟩)
      obtain ⟨j, hj, rfl, -⟩ := (hS k).1 hk
      exact mem_range.2 (hlt j hj)
    refine ⟨_, hm.add hnot hcard, fun k => ?_⟩
    rw [mem_insert, hS, h.slots_iff hs]
    split_ifs with hk
    · exact iff_of_true (.inl hk) hnew
    · rw [or_iff_right hk]
  | remove hr hnew =>
    obtain ⟨m', hm', hholds, -⟩ := hm.removeByValue (s.slot i)
    obtain rfl := Option.some.inj (hm'.symm.trans hr)
    refine ⟨_, hholds, fun k => ?_⟩
    rw [mem_erase, hS, h.slots_iff hs]
    split_ifs with hk
    · exact iff_of_false (fun hne => hne.1 hk) hnew
    · rw [and_iff_right hk]

/-- Query `i` is finished, and its reply slot is free. -/
structure Finished (s s' : OracleEngine D) (i : Nat) : Prop where
  isOpen : s.Open i
  closed : ¬s'.Open i
  oracleQueryCount : s'.oracleQueryCount = s.oracleQueryCount
  queryIdToIndex : s'.queryIdToIndex = s.queryIdToIndex
  replyStatesIndex : s'.replyStatesIndex = s.replyStatesIndex
  others : ∀ j ≠ i, s'.queries j = s.queries j
  otherReplies : ∀ k ≠ s.slot i, s'.replyStates k = s.replyStates k
  freed : (s'.replyStates (s.slot i)).queryId = 0
  queryId : (s'.queries i).queryId = (s.queries i).queryId
  interfaceIndex : (s'.queries i).interfaceIndex = (s.queries i).interfaceIndex

section

variable (h : Finished s s' i)
include h

lemma Finished.slot_other (hne : j ≠ i) : s'.slot j = s.slot j := by rw [slot, h.others j hne, slot]

lemma Finished.open_iff (j : Nat) : s'.Open j ↔ s.Open j ∧ j ≠ i := by
  obtain rfl | hj := Decidable.eq_or_ne j i
  · exact iff_of_false h.closed fun hne => hne.2 rfl
  · rw [Open, Open, h.oracleQueryCount, h.others j hj]
    exact (and_iff_left hj).symm

lemma Finished.reply_other (hs : s.SlotsDistinct) (hj : s.Open j)
    (hne : j ≠ i) : s'.reply j = s.reply j := by
  rw [reply, h.slot_other hne]
  exact h.otherReplies _ fun he => hne (hs j i hj h.isOpen he)

lemma Finished.slots_iff (hs : s.SlotsDistinct) (k : Nat) :
    s'.Slots P k ↔ s.Slots P k ∧ k ≠ s.slot i := by
  constructor
  · rintro ⟨j, hj, rfl, hP⟩
    obtain ⟨hj, hne⟩ := (h.open_iff j).1 hj
    rw [h.others j hne, h.reply_other hs hj hne] at hP
    rw [h.slot_other hne]
    exact ⟨⟨j, hj, rfl, hP⟩, fun he => hne (hs j i hj h.isOpen he)⟩
  · rintro ⟨⟨j, hj, rfl, hP⟩, hk⟩
    have hne : j ≠ i := by
      rintro rfl
      exact hk rfl
    refine ⟨j, (h.open_iff j).2 ⟨hj, hne⟩, h.slot_other hne, ?_⟩
    rwa [h.others j hne, h.reply_other hs hj hne]

lemma Finished.indexes (hs : s.SlotsDistinct) (hm : s.Indexes m P)
    (hP : ¬P (s.queries i) (s.reply i)) : s'.Indexes m P := by
  obtain ⟨S, hm, hS⟩ := hm
  refine ⟨S, hm, fun k => ?_⟩
  rw [hS, h.slots_iff hs]
  refine (and_iff_left_of_imp fun hk he => ?_).symm
  rw [he, slots_of_open hs h.isOpen] at hk
  exact hP hk

lemma Finished.indexes_remove (hs : s.SlotsDistinct)
    (hm : s.Indexes m P) : ∃ r, m.removeByValue (s.slot i) = some r ∧ s'.Indexes r.2 P := by
  obtain ⟨S, hm, hS⟩ := hm
  obtain ⟨m', hm', hholds, -⟩ := hm.removeByValue (s.slot i)
  refine ⟨_, hm', _, hholds, fun k => ?_⟩
  rw [mem_erase, hS, h.slots_iff hs, and_comm]

end

/-- A query is started in slot `k`. -/
structure Started (s s' : OracleEngine D) (k : Nat) : Prop where
  oracleQueryCount : s'.oracleQueryCount = s.oracleQueryCount + 1
  isOpen : s'.Open s.oracleQueryCount
  slot : s'.slot s.oracleQueryCount = k
  free : ∀ j, s.Open j → s.slot j ≠ k
  others : ∀ j ≠ s.oracleQueryCount, s'.queries j = s.queries j
  otherReplies : ∀ x ≠ k, s'.replyStates x = s.replyStates x

section

variable (h : Started s s' k)
include h

lemma Started.slot_other (hj : s.Open j) : s'.slot j = s.slot j := by
  rw [OracleEngine.slot, h.others j (Nat.ne_of_lt hj.1), OracleEngine.slot]

lemma Started.open_iff (j : Nat) : s'.Open j ↔ s.Open j ∨ j = s.oracleQueryCount := by
  obtain rfl | hj := Decidable.eq_or_ne j s.oracleQueryCount
  · exact iff_of_true h.isOpen (Or.inr rfl)
  · rw [Open, Open, h.oracleQueryCount, h.others j hj]
    have hlt : j < s.oracleQueryCount + 1 ↔ j < s.oracleQueryCount := by omega
    rw [hlt, or_iff_left hj]

lemma Started.reply_other (hj : s.Open j) : s'.reply j = s.reply j := by
  rw [reply, h.slot_other hj]
  exact h.otherReplies _ (h.free j hj)

lemma Started.slots_iff (x : Nat) :
    s'.Slots P x ↔ s.Slots P x ∨
      x = k ∧ P (s'.queries s.oracleQueryCount) (s'.reply s.oracleQueryCount) := by
  constructor
  · rintro ⟨j, hj, rfl, hP⟩
    obtain hj | rfl := (h.open_iff j).1 hj
    · rw [h.others j (Nat.ne_of_lt hj.1), h.reply_other hj] at hP
      exact .inl ⟨j, hj, (h.slot_other hj).symm, hP⟩
    · exact .inr ⟨h.slot, hP⟩
  · rintro (⟨j, hj, rfl, hP⟩ | ⟨rfl, hP⟩)
    · refine ⟨j, (h.open_iff j).2 (.inl hj), h.slot_other hj, ?_⟩
      rwa [h.others j (Nat.ne_of_lt hj.1), h.reply_other hj]
    · exact ⟨_, h.isOpen, h.slot, hP⟩

lemma Started.indexes (hm : s.Indexes m P)
    (hP : ¬P (s'.queries s.oracleQueryCount) (s'.reply s.oracleQueryCount)) :
    s'.Indexes m P := by
  obtain ⟨S, hm, hS⟩ := hm
  refine ⟨S, hm, fun x => ?_⟩
  rw [hS, h.slots_iff, or_iff_left fun hx => hP hx.2]

end

end

variable [DecidableEq D]

/-- The commits allow no decision yet. -/
def Undecided (rs : OracleReplyState D) : Prop :=
  rs.mostCommitsCount < QUORUM ∧
    rs.totalCommits - rs.mostCommitsCount ≤ NUMBER_OF_COMPUTORS - QUORUM

def AwaitsCommit (oqm : OracleQueryMetadata) (rs : OracleReplyState D) : Prop :=
  oqm.status = .pending ∧ rs.ownReplySize ≠ 0

def AwaitsReveal (oqm : OracleQueryMetadata) (_ : OracleReplyState D) : Prop :=
  oqm.status = .committed

variable [Zero D]

structure Agrees (oqm : OracleQueryMetadata) (rs : OracleReplyState D) : Prop where
  queryId : rs.queryId = oqm.queryId
  counted : rs.Counted
  undecided : oqm.status = .pending → Undecided rs
  quorum : oqm.status = .committed → QUORUM ≤ rs.mostCommitsCount
  replied : rs.ownReplySize ≠ 0 ↔ oqm.statusFlags.testBit 8

structure Sound (env : Env D) (s : OracleEngine D) : Prop where
  map : ∃ f, HashMap.Models 21 env.hash s.queryIdToIndex f ∧
    ∀ id i, f.lookup id = some i ↔ i < s.oracleQueryCount ∧ (s.queries i).queryId = id
  id_pos : ∀ i < s.oracleQueryCount, 0 < (s.queries i).queryId
  interface_lt : ∀ i < s.oracleQueryCount, (s.queries i).interfaceIndex < oracleInterfacesCount
  pending : ∃ S, s.pendingQueryIndices.Holds S ∧ ∀ i, i ∈ S ↔ s.Open i
  slot_lt : ∀ i, s.Open i → s.slot i < MAX_SIMULTANEOUS_ORACLE_QUERIES
  agrees : ∀ i, s.Open i → Agrees (s.queries i) (s.reply i)
  owner : ∀ k < MAX_SIMULTANEOUS_ORACLE_QUERIES, 0 < (s.replyStates k).queryId →
    ∃ i, s.Open i ∧ s.slot i = k
  commits : s.Indexes s.pendingCommitReplyStateIndices AwaitsCommit
  reveals : s.Indexes s.pendingRevealReplyStateIndices AwaitsReveal
  cursor : s.replyStatesIndex < MAX_SIMULTANEOUS_ORACLE_QUERIES

variable {env : Env D} {s s' : OracleEngine D} {i j : Nat}

lemma Sound.lookup_iff (h : Sound env s) {id : Int} :
    HashMap.get MAX_ORACLE_QUERIES env.hash s.queryIdToIndex id = some i ↔
      i < s.oracleQueryCount ∧ (s.queries i).queryId = id := by
  obtain ⟨f, hmodels, hf⟩ := h.map
  rw [← hf id i, ← hmodels.refines.get id]
  rfl

lemma Sound.findQuery_iff (h : Sound env s) {id : Int} :
    s.findQuery env id = some i ↔ i < s.oracleQueryCount ∧ (s.queries i).queryId = id := by
  rw [findQuery, Option.filter_eq_some_iff, h.lookup_iff]
  simp only [decide_eq_true_eq]
  tauto

lemma Sound.index_unique (h : Sound env s) (hi : i < s.oracleQueryCount)
    (hj : j < s.oracleQueryCount) (he : (s.queries i).queryId = (s.queries j).queryId) : i = j := by
  obtain ⟨f, -, hf⟩ := h.map
  exact Option.some.inj (((hf _ i).2 ⟨hi, rfl⟩).symm.trans ((hf _ j).2 ⟨hj, he.symm⟩))

lemma Sound.distinct (h : Sound env s) : s.SlotsDistinct := by
  intro i j hi hj he
  refine h.index_unique hi.1 hj.1 ?_
  rw [← (h.agrees i hi).queryId, ← (h.agrees j hj).queryId, reply, reply, he]

lemma Sound.reset : Sound env (OracleEngine.reset : OracleEngine D) where
  map := ⟨∅, HashTable.Represents.reset 21 env.hash HashMap.Element.key,
    by simp [OracleEngine.reset]⟩
  id_pos i hi := absurd hi (Nat.not_lt_zero i)
  interface_lt i hi := absurd hi (Nat.not_lt_zero i)
  pending := ⟨∅, .empty, by simp [Open, OracleEngine.reset]⟩
  slot_lt i hi := absurd hi.1 (Nat.not_lt_zero i)
  agrees i hi := absurd hi.1 (Nat.not_lt_zero i)
  owner k _ hk := absurd hk (by simp [OracleEngine.reset, OracleReplyState.zero])
  commits := ⟨∅, .empty, by simp [Slots, Open, OracleEngine.reset]⟩
  reveals := ⟨∅, .empty, by simp [Slots, Open, OracleEngine.reset]⟩
  cursor := (by decide : 0 < MAX_SIMULTANEOUS_ORACLE_QUERIES)

/-! ## Changes outside the indices -/

structure SameIndices (s s' : OracleEngine D) : Prop where
  queries : s'.queries = s.queries
  oracleQueryCount : s'.oracleQueryCount = s.oracleQueryCount
  replyStates : s'.replyStates = s.replyStates
  replyStatesIndex : s'.replyStatesIndex = s.replyStatesIndex
  pendingQueryIndices : s'.pendingQueryIndices = s.pendingQueryIndices
  pendingCommits : s'.pendingCommitReplyStateIndices = s.pendingCommitReplyStateIndices
  pendingReveals : s'.pendingRevealReplyStateIndices = s.pendingRevealReplyStateIndices
  queryIdToIndex : s'.queryIdToIndex = s.queryIdToIndex

omit [DecidableEq D] [Zero D] in
lemma SameIndices.trans {s'' : OracleEngine D} (h : SameIndices s s') (h' : SameIndices s' s'') :
    SameIndices s s'' :=
  ⟨h'.1.trans h.1, h'.2.trans h.2, h'.3.trans h.3, h'.4.trans h.4, h'.5.trans h.5, h'.6.trans h.6,
    h'.7.trans h.7, h'.8.trans h.8⟩

lemma Sound.congr (h : Sound env s) (he : SameIndices s s') : Sound env s' := by
  obtain ⟨h1, h2, h3, h4, h5, h6, h7, h8⟩ := he
  cases s
  cases s'
  subst h1 h2 h3 h4 h5 h6 h7 h8
  exact { h with }

/-! ## The kinds of change -/

lemma Sound.change (h : Sound env s) (hc : Changed s s' i)
    (hagrees : Agrees (s'.queries i) (s'.reply i))
    (hcommits : s'.Indexes s'.pendingCommitReplyStateIndices AwaitsCommit)
    (hreveals : s'.Indexes s'.pendingRevealReplyStateIndices AwaitsReveal) : Sound env s' := by
  have hid : ∀ j, (s'.queries j).queryId = (s.queries j).queryId := fun j => by
    obtain rfl | hj := Decidable.eq_or_ne j i
    exacts [hc.queryId, by rw [hc.others j hj]]
  constructor
  · obtain ⟨f, hmodels, hf⟩ := h.map
    refine ⟨f, by rwa [hc.queryIdToIndex], fun id j => ?_⟩
    rw [hf, hc.oracleQueryCount, hid]
  · intro j hj
    rw [hc.oracleQueryCount] at hj
    rw [hid]
    exact h.id_pos j hj
  · intro j hj
    rw [hc.oracleQueryCount] at hj
    obtain rfl | hne := Decidable.eq_or_ne j i
    · rw [hc.interfaceIndex]
      exact h.interface_lt j hj
    · rw [hc.others j hne]
      exact h.interface_lt j hj
  · obtain ⟨S, hholds, hS⟩ := h.pending
    refine ⟨S, by rwa [hc.pendingQueryIndices], fun j => ?_⟩
    rw [hS, hc.open_iff]
  · intro j hj
    rw [hc.slot_all]
    exact h.slot_lt j ((hc.open_iff j).1 hj)
  · intro j hj
    obtain rfl | hne := Decidable.eq_or_ne j i
    · exact hagrees
    · have hj := (hc.open_iff j).1 hj
      rw [hc.others j hne, hc.reply_other h.distinct hj hne]
      exact h.agrees j hj
  · intro k hk hpos
    obtain rfl | hne := Decidable.eq_or_ne k (s.slot i)
    · exact ⟨i, hc.stays, hc.slot⟩
    · rw [hc.otherReplies k hne] at hpos
      obtain ⟨j, hj, rfl⟩ := h.owner k hk hpos
      exact ⟨j, (hc.open_iff j).2 hj, hc.slot_all j⟩
  · exact hcommits
  · exact hreveals
  · rw [hc.replyStatesIndex]
    exact h.cursor

lemma Sound.finish (h : Sound env s) (hf : Finished s s' i)
    (hpending : ∃ S, s'.pendingQueryIndices.Holds S ∧ ∀ j, j ∈ S ↔ s'.Open j)
    (hcommits : s'.Indexes s'.pendingCommitReplyStateIndices AwaitsCommit)
    (hreveals : s'.Indexes s'.pendingRevealReplyStateIndices AwaitsReveal) : Sound env s' := by
  have hid : ∀ j, (s'.queries j).queryId = (s.queries j).queryId := fun j => by
    obtain rfl | hj := Decidable.eq_or_ne j i
    exacts [hf.queryId, by rw [hf.others j hj]]
  constructor
  · obtain ⟨f, hmodels, hlookup⟩ := h.map
    refine ⟨f, by rwa [hf.queryIdToIndex], fun id j => ?_⟩
    rw [hlookup, hf.oracleQueryCount, hid]
  · intro j hj
    rw [hf.oracleQueryCount] at hj
    rw [hid]
    exact h.id_pos j hj
  · intro j hj
    rw [hf.oracleQueryCount] at hj
    obtain rfl | hne := Decidable.eq_or_ne j i
    · rw [hf.interfaceIndex]
      exact h.interface_lt j hj
    · rw [hf.others j hne]
      exact h.interface_lt j hj
  · exact hpending
  · intro j hj
    obtain ⟨hj, hne⟩ := (hf.open_iff j).1 hj
    rw [hf.slot_other hne]
    exact h.slot_lt j hj
  · intro j hj
    obtain ⟨hj, hne⟩ := (hf.open_iff j).1 hj
    rw [hf.others j hne, hf.reply_other h.distinct hj hne]
    exact h.agrees j hj
  · intro k hk hpos
    have hne : k ≠ s.slot i := fun he => by
      rw [he, hf.freed] at hpos
      exact lt_irrefl _ hpos
    rw [hf.otherReplies k hne] at hpos
    obtain ⟨j, hj, rfl⟩ := h.owner k hk hpos
    have hji : j ≠ i := fun he => hne (by rw [he])
    exact ⟨j, (hf.open_iff j).2 ⟨hj, hji⟩, hf.slot_other hji⟩
  · exact hcommits
  · exact hreveals
  · rw [hf.replyStatesIndex]
    exact h.cursor

/-- A query with a new ID is started in slot `k`. -/
lemma Sound.start {k : Nat} (h : Sound env s) (hst : Started s s' k)
    (hk : k < MAX_SIMULTANEOUS_ORACLE_QUERIES) {oqm : OracleQueryMetadata}
    (hoqm : s'.queries s.oracleQueryCount = oqm) (hpending : oqm.status = .pending)
    (hpos : 0 < oqm.queryId) (hinterface : oqm.interfaceIndex < oracleInterfacesCount)
    (hagrees : Agrees oqm (s'.reply s.oracleQueryCount))
    (hblank : (s'.reply s.oracleQueryCount).ownReplySize = 0)
    (hmap : ∃ f, HashMap.Models 21 env.hash s'.queryIdToIndex f ∧
      ∀ id i, f.lookup id = some i ↔ i < s'.oracleQueryCount ∧ (s'.queries i).queryId = id)
    (hset : ∃ S, s'.pendingQueryIndices.Holds S ∧ ∀ i, i ∈ S ↔ s'.Open i)
    (hcommits : s'.pendingCommitReplyStateIndices = s.pendingCommitReplyStateIndices)
    (hreveals : s'.pendingRevealReplyStateIndices = s.pendingRevealReplyStateIndices)
    (hcursor : s'.replyStatesIndex < MAX_SIMULTANEOUS_ORACLE_QUERIES) : Sound env s' := by
  have hlt : ∀ j < s'.oracleQueryCount, j < s.oracleQueryCount ∨ j = s.oracleQueryCount :=
    fun j hj => Nat.lt_succ_iff_lt_or_eq.1 (hj.trans_eq hst.oracleQueryCount)
  constructor
  · exact hmap
  · intro j hj
    obtain hj | rfl := hlt j hj
    · rw [hst.others j (Nat.ne_of_lt hj)]
      exact h.id_pos j hj
    · rwa [hoqm]
  · intro j hj
    obtain hj | rfl := hlt j hj
    · rw [hst.others j (Nat.ne_of_lt hj)]
      exact h.interface_lt j hj
    · rwa [hoqm]
  · exact hset
  · intro j hj
    obtain hj | rfl := (hst.open_iff j).1 hj
    · rw [hst.slot_other hj]
      exact h.slot_lt j hj
    · rwa [hst.slot]
  · intro j hj
    obtain hj | rfl := (hst.open_iff j).1 hj
    · rw [hst.others j (Nat.ne_of_lt hj.1), hst.reply_other hj]
      exact h.agrees j hj
    · rwa [hoqm]
  · intro x hx hpos
    obtain rfl | hne := Decidable.eq_or_ne x k
    · exact ⟨_, hst.isOpen, hst.slot⟩
    · rw [hst.otherReplies x hne] at hpos
      obtain ⟨j, hj, rfl⟩ := h.owner x hx hpos
      exact ⟨j, (hst.open_iff j).2 (.inl hj), hst.slot_other hj⟩
  · rw [hcommits]
    exact hst.indexes h.commits fun hP => hP.2 hblank
  · rw [hreveals]
    refine hst.indexes h.reveals fun hP => ?_
    rw [AwaitsReveal, hoqm, hpending] at hP
    cases hP
  · exact hcursor

end OracleEngine

end QubicCore.Oracle
