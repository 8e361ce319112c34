import QubicCore.Oracle.Indices

/-!
# Transitions of the oracle engine

Timeouts, replies of the oracle machine and starts of queries keep the indices sound. `Kept s s' i`
says that nothing happens to query `i`; what happens to the other queries is part of the statement
about each operation.
-/

namespace QubicCore.Oracle

open Library.Probing Qpi Function OracleReplyState

namespace OracleEngine

variable {D : Type}

/-- Nothing happens to query `i`. -/
def Kept (s s' : OracleEngine D) (i : Nat) : Prop :=
  s'.queries i = s.queries i ∧ (s.Open i → s'.reply i = s.reply i)

structure SameSchedule (s s' : OracleEngine D) : Prop where
  queryStorage : s'.queryStorage = s.queryStorage
  queryStorageBytesUsed : s'.queryStorageBytesUsed = s.queryStorageBytesUsed
  contractQueryIdState : s'.contractQueryIdState = s.contractQueryIdState
  subscriptions : ∀ k, ∃ id,
    s'.subscriptions k = { s.subscriptions k with lastRevealedQueryId := id }
  usedSubscriptionSlots : s'.usedSubscriptionSlots = s.usedSubscriptionSlots
  subscribers : s'.subscribers = s.subscribers
  usedSubscriberSlots : s'.usedSubscriberSlots = s.usedSubscriberSlots
  nextSubscriptionIdQueue : s'.nextSubscriptionIdQueue = s.nextSubscriptionIdQueue

/-- What no reply changes. -/
structure Frame (s s' : OracleEngine D) : Prop extends SameSchedule s s' where
  oracleQueryCount : s'.oracleQueryCount = s.oracleQueryCount
  queryId : ∀ j, (s'.queries j).queryId = (s.queries j).queryId
  type : ∀ j, (s'.queries j).type = (s.queries j).type
  interfaceIndex : ∀ j, (s'.queries j).interfaceIndex = (s.queries j).interfaceIndex

/-- The status and the commits of query `i` stay. -/
structure Steady (s s' : OracleEngine D) (i : Nat) : Prop where
  status : (s'.queries i).status = (s.queries i).status
  digests : s.Open i → (s'.reply i).replyCommitDigests = (s.reply i).replyCommitDigests
  proofs : s.Open i →
    (s'.reply i).replyCommitKnowledgeProofs = (s.reply i).replyCommitKnowledgeProofs
  ticks : s.Open i → (s'.reply i).replyCommitTicks = (s.reply i).replyCommitTicks

section

variable {s s' s'' : OracleEngine D} {i j k : Nat}

lemma Kept.refl (s : OracleEngine D) (i : Nat) : Kept s s i := ⟨rfl, fun _ => rfl⟩

lemma Kept.open_iff (h : Kept s s' i) (hi : i < s.oracleQueryCount)
    (hle : s.oracleQueryCount ≤ s'.oracleQueryCount) : s'.Open i ↔ s.Open i := by
  rw [Open, Open, h.1, and_iff_right hi, and_iff_right (hi.trans_le hle)]

lemma Kept.trans (h : Kept s s' i) (h' : Kept s' s'' i)
    (hle : s.oracleQueryCount ≤ s'.oracleQueryCount) : Kept s s'' i :=
  ⟨h'.1.trans h.1, fun hi => (h'.2 ((h.open_iff hi.1 hle).2 hi)).trans (h.2 hi)⟩

lemma Kept.steady (h : Kept s s' i) : Steady s s' i :=
  ⟨by rw [h.1], fun hi => by rw [h.2 hi], fun hi => by rw [h.2 hi], fun hi => by rw [h.2 hi]⟩

lemma Changed.kept (h : Changed s s' i) (hs : s.SlotsDistinct) (hne : j ≠ i) : Kept s s' j :=
  ⟨h.others j hne, fun hj => h.reply_other hs hj hne⟩

lemma Finished.kept (h : Finished s s' i) (hs : s.SlotsDistinct) (hne : j ≠ i) : Kept s s' j :=
  ⟨h.others j hne, fun hj => h.reply_other hs hj hne⟩

lemma Started.kept (h : Started s s' k) (hj : j < s.oracleQueryCount) : Kept s s' j :=
  ⟨h.others j (Nat.ne_of_lt hj), h.reply_other⟩

lemma SameSchedule.refl (s : OracleEngine D) : SameSchedule s s :=
  ⟨rfl, rfl, rfl, fun _ => ⟨_, rfl⟩, rfl, rfl, rfl, rfl⟩

lemma SameSchedule.trans (h : SameSchedule s s') (h' : SameSchedule s' s'') :
    SameSchedule s s'' := by
  refine ⟨h'.1.trans h.1, h'.2.trans h.2, h'.3.trans h.3, fun k => ?_, h'.5.trans h.5,
    h'.6.trans h.6, h'.7.trans h.7, h'.8.trans h.8⟩
  obtain ⟨id, hid⟩ := h.subscriptions k
  obtain ⟨id', hid'⟩ := h'.subscriptions k
  exact ⟨id', by rw [hid', hid]⟩

lemma Frame.refl (s : OracleEngine D) : Frame s s :=
  ⟨.refl s, rfl, fun _ => rfl, fun _ => rfl, fun _ => rfl⟩

lemma Frame.trans (h : Frame s s') (h' : Frame s' s'') : Frame s s'' :=
  ⟨h.1.trans h'.1, h'.2.trans h.2, fun j => (h'.3 j).trans (h.3 j),
    fun j => (h'.4 j).trans (h.4 j), fun j => (h'.5 j).trans (h.5 j)⟩

lemma Frame.write {oqm : OracleQueryMetadata} (hid : oqm.queryId = (s.queries i).queryId)
    (htype : oqm.type = (s.queries i).type)
    (hinterface : oqm.interfaceIndex = (s.queries i).interfaceIndex) :
    Frame s { s with queries := update s.queries i oqm } := by
  refine { Frame.refl s with
    queryId := fun j => ?_
    type := fun j => ?_
    interfaceIndex := fun j => ?_ } <;>
  · obtain rfl | hj := Decidable.eq_or_ne j i
    · simpa
    · simp [hj]

end

/-! ## End of a query -/

section

variable {s s' : OracleEngine D} {i j : Nat}

lemma scheduleNotification_same (s : OracleEngine D) (i : Nat) :
    SameIndices s (s.scheduleNotification i) ∧ Frame s (s.scheduleNotification i) := by
  unfold scheduleNotification
  split <;> exact ⟨⟨rfl, rfl, rfl, rfl, rfl, rfl, rfl, rfl⟩, { Frame.refl s with }⟩

lemma Finished.removeSlot {m : UnsortedMultiset Nat}
    {P : OracleQueryMetadata → OracleReplyState D → Prop} {drop : Bool} (h : Finished s s' i)
    (hs : s.SlotsDistinct) (hm : s.Indexes m P)
    (hdrop : P (s.queries i) (s.reply i) → drop) :
    ∃ m', OracleEngine.removeSlot drop m (s.slot i) = some m' ∧ s'.Indexes m' P := by
  cases drop
  · exact ⟨m, rfl, h.indexes hs hm fun hP => Bool.noConfusion (hdrop hP)⟩
  · obtain ⟨r, hr, hindexes⟩ := h.indexes_remove hs hm
    exact ⟨r.2, by rw [OracleEngine.removeSlot, if_pos rfl, hr, Option.map_some], hindexes⟩

lemma Finished.congr {s'' : OracleEngine D} (h : Finished s s' i) (he : SameIndices s' s'') :
    Finished s s'' i := by
  obtain ⟨h1, h2, h3, h4, -, -, -, h8⟩ := he
  refine ⟨h.isOpen, ?_, h2.trans h.oracleQueryCount, h8.trans h.queryIdToIndex,
    h4.trans h.replyStatesIndex, ?_, ?_, ?_, ?_, ?_⟩
  · rw [Open, h1, h2]
    exact h.closed
  · rw [h1]
    exact h.others
  · rw [h3]
    exact h.otherReplies
  · rw [h3]
    exact h.freed
  · rw [h1]
    exact h.queryId
  · rw [h1]
    exact h.interfaceIndex

end

variable [DecidableEq D] [Zero D] {env : Env D} {s s' : OracleEngine D} {i j : Nat}

/-- An open query ends with the metadata `oqm`. Its slot is in no set that is not searched for
it. -/
lemma Sound.finishQuery (h : Sound env s) (hi : s.Open i) (oqm : OracleQueryMetadata)
    (hid : oqm.queryId = (s.queries i).queryId) (htype : oqm.type = (s.queries i).type)
    (hinterface : oqm.interfaceIndex = (s.queries i).interfaceIndex)
    (hclosed : oqm.status ≠ .pending ∧ oqm.status ≠ .committed) {dropCommit dropReveal : Bool}
    (hcommit : (s.queries i).status = .pending → dropCommit)
    (hreveal : (s.queries i).status = .committed → dropReveal) :
    ∃ s', s.finishQuery i oqm dropCommit dropReveal = some s' ∧ Sound env s' ∧ Finished s s' i ∧
      s'.queries i = oqm ∧ Frame s s' ∧
      ∀ j, (j < s.pendingQueryIndices.numValues → s.pendingQueryIndices.values j ≠ i) →
        s'.pendingQueryIndices.values j = s.pendingQueryIndices.values j := by
  let s₁ := { s with
    queries := update s.queries i oqm
    replyStates := update s.replyStates (s.slot i) .zero }
  have hqi : s₁.queries i = oqm := update_self ..
  have hf : Finished s s₁ i := by
    refine ⟨hi, ?_, rfl, rfl, rfl, fun j hj => update_of_ne hj ..,
      fun k hk => update_of_ne hk .., ?_, by rw [hqi, hid], by rw [hqi, hinterface]⟩
    · rw [Open, hqi]
      tauto
    · simp [s₁, zero]
  obtain ⟨S, hS, hopen⟩ := h.pending
  obtain ⟨m, hm, hmem, hvalues⟩ := hS.removeByValue i
  obtain ⟨c, hc, hcommits⟩ := hf.removeSlot h.distinct h.commits fun hP => hcommit hP.1
  obtain ⟨r, hr, hreveals⟩ := hf.removeSlot h.distinct h.reveals hreveal
  let s₂ := { s₁ with
    pendingQueryIndices := m
    pendingCommitReplyStateIndices := c
    pendingRevealReplyStateIndices := r }
  have hf₂ : Finished s s₂ i := { hf with }
  have hsound : Sound env s₂ := h.finish hf₂
    ⟨_, hmem, fun j => by rw [Finset.mem_erase, hopen, hf₂.open_iff, and_comm]⟩ hcommits hreveals
  obtain ⟨hindices, hframe⟩ := scheduleNotification_same s₂ i
  refine ⟨s₂.scheduleNotification i, ?_, hsound.congr hindices, ?_, ?_, ?_, ?_⟩
  · unfold OracleEngine.finishQuery
    rw [hm]
    change (removeSlot dropCommit s.pendingCommitReplyStateIndices (s.slot i)).bind _ = _
    rw [hc]
    change (removeSlot dropReveal s.pendingRevealReplyStateIndices (s.slot i)).bind _ = _
    rw [hr]
    rfl
  · exact hf₂.congr hindices
  · rw [hindices.queries]
    exact hqi
  · have hwrite : Frame s s₂ := { Frame.write hid htype hinterface with }
    exact hwrite.trans hframe
  · intro j hj
    rw [hindices.pendingQueryIndices]
    exact hvalues j hj

/-! ## Timeouts -/

/-- The queries before position `k` of the pending queries of `s` have been checked. Nothing was
written behind `k`: a removal from the cells before moves a query of the tail there and leaves
the tail as it was, so that every query of `s` is met once. -/
structure Checked (env : Env D) (now : DateAndTime) (s : OracleEngine D) (k : Nat)
    (t : OracleEngine D) : Prop where
  sound : Sound env t
  frame : Frame s t
  tail : ∀ j, k ≤ j → t.pendingQueryIndices.values j = s.pendingQueryIndices.values j
  isOpen : ∀ q, t.Open q → s.Open q
  expired : ∀ p < k, (s.queries (s.pendingQueryIndices.values p)).timeout ≤ now →
    (t.queries (s.pendingQueryIndices.values p)) =
      { s.queries (s.pendingQueryIndices.values p) with
        status := .timeout
        statusVar := (t.queries (s.pendingQueryIndices.values p)).statusVar }
  kept : ∀ q, (∀ p < k, s.pendingQueryIndices.values p = q → ¬(s.queries q).timeout ≤ now) →
    Kept s t q

lemma Checked.step {now : DateAndTime} {t : OracleEngine D} {k : Nat} (hs : Sound env s)
    (hk : k < s.pendingQueryIndices.numValues) (h : Checked env now s k t) :
    ∃ t', t.processTimeout now k = some t' ∧ Checked env now s (k + 1) t' := by
  obtain ⟨S, hS, hopen⟩ := hs.pending
  obtain ⟨T, hT, hTopen⟩ := h.sound.pending
  obtain ⟨q, hq⟩ : ∃ q, s.pendingQueryIndices.values k = q := ⟨_, rfl⟩
  have hqs : s.Open q := (hopen q).1 ((hS.mem q).2 ⟨k, hk, hq⟩)
  have hfirst : ∀ p < k, s.pendingQueryIndices.values p ≠ q := fun p hp he =>
    Nat.ne_of_lt hp (hS.injOn p (hp.trans hk) k hk (he.trans hq.symm))
  obtain ⟨hqt, hreply⟩ := h.kept q fun p hp he => absurd he (hfirst p hp)
  have htail : ∀ j, k < j → (j < t.pendingQueryIndices.numValues →
      t.pendingQueryIndices.values j ≠ q) := by
    intro j hj hlt he
    have hle : t.pendingQueryIndices.numValues ≤ s.pendingQueryIndices.numValues := by
      rw [← hT.card, ← hS.card]
      exact Finset.card_le_card fun x hx => (hopen x).2 (h.isOpen x ((hTopen x).1 hx))
    rw [h.tail j hj.le] at he
    exact Nat.ne_of_lt hj (hS.injOn k hk j (by omega) (hq.trans he.symm))
  have hposition : t.pendingQueryIndices.values k = q := (h.tail k le_rfl).trans hq
  unfold processTimeout
  rw [hposition]
  dsimp only
  rw [hqt]
  split_ifs with hexpired
  · have hqo : t.Open q := by
      rw [Open, h.frame.oracleQueryCount, hqt]
      exact hqs
    obtain ⟨t', ht', hsound, hfinished, hqueries, hframe, hvalues⟩ := h.sound.finishQuery hqo
      { s.queries q with
        status := .timeout
        statusVar := .failure (t.replyStates (s.queries q).statusVar.replyStateIndex).totalCommits
          (t.replyStates (s.queries q).statusVar.replyStateIndex).mostCommitsCount }
      (by rw [hqt]) (by rw [hqt]) (by rw [hqt]) ⟨by simp, by simp⟩ (fun _ => rfl) (fun _ => rfl)
    refine ⟨t', ht', hsound, h.frame.trans hframe, fun j hj => ?_, fun x hx => ?_,
      fun p hp hx => ?_, fun x hx => ?_⟩
    · rw [hvalues j (htail j hj), h.tail j (by omega)]
    · exact h.isOpen x ((hfinished.open_iff x).1 hx).1
    · obtain hp | rfl := Nat.lt_succ_iff_lt_or_eq.1 hp
      · rw [hfinished.others _ (hfirst p hp)]
        exact h.expired p hp hx
      · rw [hq, hqueries]
    · have hne : x ≠ q := fun he => hx k (Nat.lt_succ_self k) (hq.trans he.symm) (he ▸ hexpired)
      exact (h.kept x fun p hp => hx p (Nat.lt_succ_of_lt hp)).trans
        (hfinished.kept h.sound.distinct hne) h.frame.oracleQueryCount.ge
  · refine ⟨t, rfl, h.sound, h.frame, fun j hj => h.tail j (by omega), h.isOpen,
      fun p hp hx => ?_, fun x hx => h.kept x fun p hp => hx p (Nat.lt_succ_of_lt hp)⟩
    obtain hp | rfl := Nat.lt_succ_iff_lt_or_eq.1 hp
    · exact h.expired p hp hx
    · rw [hq] at hx
      exact absurd hx hexpired

lemma Sound.processTimeouts (hs : Sound env s) (now : DateAndTime) :
    ∃ t, s.processTimeouts now = some t ∧ Sound env t ∧ Frame s t ∧
      (∀ i, s.Open i → (s.queries i).timeout ≤ now → t.queries i =
        { s.queries i with status := .timeout, statusVar := (t.queries i).statusVar }) ∧
      ∀ i, ¬(s.Open i ∧ (s.queries i).timeout ≤ now) → Kept s t i := by
  obtain ⟨S, hS, hopen⟩ := hs.pending
  obtain ⟨t, ht, hchecked⟩ := Library.Cells.foldlM_range (Checked env now s)
    ⟨hs, .refl s, fun _ _ => rfl, fun _ h => h, fun p hp => absurd hp (Nat.not_lt_zero p),
      fun _ _ => .refl ..⟩
    fun k hk t h => h.step hs hk
  refine ⟨t, ht, hchecked.sound, hchecked.frame, ?_, ?_⟩
  · intro i hi hexpired
    obtain ⟨p, hp, rfl⟩ := (hS.mem i).1 ((hopen i).2 hi)
    exact hchecked.expired p hp hexpired
  · intro i hi
    refine hchecked.kept i fun p hp he hexpired => hi ⟨?_, hexpired⟩
    exact (hopen i).1 ((hS.mem i).2 ⟨p, hp, he⟩)

/-! ## Replies of the oracle machine -/

def write (s : OracleEngine D) (i : Nat) (oqm : OracleQueryMetadata) (rs : OracleReplyState D)
    (commits reveals : UnsortedMultiset Nat) : OracleEngine D :=
  { s with
    queries := update s.queries i oqm
    replyStates := update s.replyStates (s.slot i) rs
    pendingCommitReplyStateIndices := commits
    pendingRevealReplyStateIndices := reveals }

/-- What a write leaves and what the query has after it. -/
structure Written (s s' : OracleEngine D) (i : Nat) (oqm : OracleQueryMetadata)
    (rs : OracleReplyState D) : Prop where
  frame : Frame s s'
  queries : s'.queries i = oqm
  reply : s'.reply i = rs
  kept : ∀ j ≠ i, Kept s s' j

lemma Sound.write (h : Sound env s) (hi : s.Open i) {oqm : OracleQueryMetadata}
    {rs : OracleReplyState D} {commits reveals : UnsortedMultiset Nat} (hagrees : Agrees oqm rs)
    (hoqm : oqm = { s.queries i with status := oqm.status, statusFlags := oqm.statusFlags })
    (hopen : oqm.status = .pending ∨ oqm.status = .committed)
    (hcommits : Updated s.pendingCommitReplyStateIndices (s.slot i)
      (AwaitsCommit (s.queries i) (s.reply i)) (AwaitsCommit oqm rs) commits)
    (hreveals : Updated s.pendingRevealReplyStateIndices (s.slot i)
      (AwaitsReveal (s.queries i) (s.reply i)) (AwaitsReveal oqm rs) reveals) :
    Sound env (s.write i oqm rs commits reveals) ∧
      Written s (s.write i oqm rs commits reveals) i oqm rs := by
  have hq : (s.write i oqm rs commits reveals).queries i = oqm := update_self ..
  have hslot : (s.write i oqm rs commits reveals).slot i = s.slot i := by rw [slot, hq, hoqm, slot]
  have hreply : (s.write i oqm rs commits reveals).reply i = rs := by
    rw [reply, hslot]
    exact update_self ..
  have hid : oqm.queryId = (s.queries i).queryId := by rw [hoqm]
  have htype : oqm.type = (s.queries i).type := by rw [hoqm]
  have hinterface : oqm.interfaceIndex = (s.queries i).interfaceIndex := by rw [hoqm]
  have hc : Changed s (s.write i oqm rs commits reveals) i :=
    ⟨hi, ⟨hi.1, by rwa [hq]⟩, rfl, rfl, rfl, rfl, fun j hj => update_of_ne hj ..,
      fun k hk => update_of_ne hk .., by rwa [hq], hslot, by rwa [hq]⟩
  refine ⟨h.change hc ?_ ?_ ?_, { Frame.write hid htype hinterface with }, hq, hreply,
    fun j hj => hc.kept h.distinct hj⟩
  · rwa [hq, hreply]
  · refine hc.indexes h.distinct h.commits h.slot_lt ?_
    rwa [hq, hreply]
  · refine hc.indexes h.distinct h.reveals h.slot_lt ?_
    rwa [hq, hreply]

omit [DecidableEq D] [Zero D] in
lemma setFlags_eq (s : OracleEngine D) (i flags : Nat) : s.setFlags i flags =
    s.write i { s.queries i with statusFlags := (s.queries i).statusFlags ||| flags }
      (s.reply i) s.pendingCommitReplyStateIndices s.pendingRevealReplyStateIndices := by
  simp [setFlags, OracleEngine.write, reply]

lemma Sound.writeReply (h : Sound env s) (hi : s.Open i) {flags size : Nat}
    {replyData : List UInt8} {digest : D} {commits : UnsortedMultiset Nat}
    (hreplied : size ≠ 0 ↔ flags.testBit 8)
    (hcommits : Updated s.pendingCommitReplyStateIndices (s.slot i)
      (AwaitsCommit (s.queries i) (s.reply i)) ((s.queries i).status = .pending ∧ size ≠ 0)
      commits) (hs' : s' = s.write i { s.queries i with statusFlags := flags }
      { s.reply i with
        ownReplyData := replyData, ownReplyDigest := digest, ownReplySize := size }
      commits s.pendingRevealReplyStateIndices) :
    Sound env s' ∧ Frame s s' ∧ ∀ j, Steady s s' j := by
  subst hs'
  obtain ⟨hid, hcounted, hundecided, hquorum, -⟩ := h.agrees i hi
  have hagrees : Agrees { s.queries i with statusFlags := flags }
      { s.reply i with
        ownReplyData := replyData, ownReplyDigest := digest, ownReplySize := size } :=
    ⟨hid, hcounted.withReply replyData digest size, hundecided, hquorum, hreplied⟩
  obtain ⟨hsound, hw⟩ := h.write hi hagrees rfl hi.2 hcommits (.same Iff.rfl)
  refine ⟨hsound, hw.frame, fun j => ?_⟩
  obtain rfl | hj := Decidable.eq_or_ne j i
  · exact ⟨by rw [hw.queries], fun _ => by rw [hw.reply], fun _ => by rw [hw.reply],
      fun _ => by rw [hw.reply]⟩
  · exact (hw.kept j hj).steady

lemma Sound.setFlags (h : Sound env s) (hi : s.Open i) {flags : Nat}
    (hflags : flags.testBit 8 = false) :
    Sound env (s.setFlags i flags) ∧ Frame s (s.setFlags i flags) ∧
      ∀ j, Steady s (s.setFlags i flags) j := by
  refine h.writeReply hi ?_ (.same Iff.rfl) (setFlags_eq s i flags)
  rw [Nat.testBit_or, hflags, Bool.or_false]
  exact (h.agrees i hi).replied

omit [DecidableEq D] [Zero D] in
lemma replySize_pos (hi : i < oracleInterfacesCount) : 0 < (oracleInterface i).replySize := by
  have hall : ∀ i < oracleInterfacesCount, 0 < (oracleInterface i).replySize := by decide
  exact hall i hi

lemma Sound.processOracleMachineReply (h : Sound env s) (replyMessage : MachineReply) :
    Sound env (s.processOracleMachineReply env replyMessage) ∧
      Frame s (s.processOracleMachineReply env replyMessage) ∧
      ∀ j, Steady s (s.processOracleMachineReply env replyMessage) j := by
  have hsame : Sound env s ∧ Frame s s ∧ ∀ j, Steady s s j :=
    ⟨h, .refl s, fun j => (Kept.refl s j).steady⟩
  unfold OracleEngine.processOracleMachineReply
  split
  · exact hsame
  · next i hfind =>
    obtain ⟨hlt, -⟩ := h.findQuery_iff.1 hfind
    dsimp only
    split_ifs with hstatus herror hsize hstate hown hdigest
    · exact hsame
    · refine h.setFlags ⟨hlt, .inl (not_not.1 hstatus)⟩ ?_
      rw [Nat.testBit_and, ORACLE_FLAG_OM_ERROR_FLAGS, (by decide : Nat.testBit 0xff 8 = false),
        Bool.and_false]
    · exact h.setFlags ⟨hlt, .inl (not_not.1 hstatus)⟩ (by decide)
    · exact hsame
    · exact h.setFlags ⟨hlt, .inl (not_not.1 hstatus)⟩ (by decide)
    · exact hsame
    · have hpending := not_not.1 hstatus
      have hpos := replySize_pos (h.interface_lt i hlt)
      have hne : replyMessage.replyData.length ≠ 0 := by
        omega
      refine h.writeReply ⟨hlt, .inl hpending⟩ ?_
        (.add (fun hold => hold.2 (not_not.1 hown)) ⟨hpending, hne⟩) rfl
      rw [Nat.testBit_or, ORACLE_FLAG_REPLY_RECEIVED, (by decide : Nat.testBit 0x100 8),
        Bool.or_true]
      exact iff_of_true hne rfl

/-! ## Start of a query -/

/-- Queries are started, the others are left alone. -/
structure Extends (s s' : OracleEngine D) : Prop where
  count_le : s.oracleQueryCount ≤ s'.oracleQueryCount
  kept : ∀ j < s.oracleQueryCount, Kept s s' j
  pending : ∀ j, s.oracleQueryCount ≤ j → j < s'.oracleQueryCount → (s'.queries j).status = .pending
  blank : ∀ j, s.oracleQueryCount ≤ j → j < s'.oracleQueryCount →
    ∀ c, (s'.reply j).replyCommitTicks c = 0

section

omit [DecidableEq D] [Zero D]

lemma Extends.of_count (hcount : s'.oracleQueryCount = s.oracleQueryCount)
    (hkept : ∀ j, Kept s s' j) : Extends s s' :=
  ⟨hcount.ge, fun j _ => hkept j, fun j hj hlt => absurd hlt (by omega),
    fun j hj hlt => absurd hlt (by omega)⟩

lemma Extends.refl (s : OracleEngine D) : Extends s s := .of_count rfl fun j => .refl s j

lemma Extends.trans {s'' : OracleEngine D} (h : Extends s s') (h' : Extends s' s'') :
    Extends s s'' := by
  refine ⟨h.count_le.trans h'.count_le, fun j hj => ?_, fun j hj hlt => ?_, fun j hj hlt => ?_⟩
  · exact (h.kept j hj).trans (h'.kept j (hj.trans_le h.count_le)) h.count_le
  · by_cases hj' : j < s'.oracleQueryCount
    · rw [(h'.kept j hj').1]
      exact h.pending j hj hj'
    · exact h'.pending j (not_lt.1 hj') hlt
  · by_cases hj' : j < s'.oracleQueryCount
    · rw [(h'.kept j hj').2 ⟨hj', .inl (h.pending j hj hj')⟩]
      exact h.blank j hj hj'
    · exact h'.blank j (not_lt.1 hj') hlt

lemma getEmptyReplyStateSlot_eq (hs : s.replyStatesIndex < MAX_SIMULTANEOUS_ORACLE_QUERIES) :
    s.getEmptyReplyStateSlot = (none, s) ∨
      ∃ k < MAX_SIMULTANEOUS_ORACLE_QUERIES, (s.replyStates k).queryId ≤ 0 ∧
        s.getEmptyReplyStateSlot = (some k, { s with replyStatesIndex := k }) := by
  unfold getEmptyReplyStateSlot
  split
  · next k hk => exact .inr ⟨k, probe_lt hs hk, by simpa using probe_stop hs hk, rfl⟩
  · exact .inl rfl

end

/-- The query that `startQuery` has put at the end of the array. -/
structure Appended (s s' : OracleEngine D) (queryId : Int) (type : QueryType)
    (interfaceIndex : Nat) : Prop where
  oracleQueryCount : s'.oracleQueryCount = s.oracleQueryCount + 1
  queryId : (s'.queries s.oracleQueryCount).queryId = queryId
  type : (s'.queries s.oracleQueryCount).type = type
  interfaceIndex : (s'.queries s.oracleQueryCount).interfaceIndex = interfaceIndex

/-- The metadata `oqm` is put at the end of the array, and slot `k` is given to the query. -/
def append (s : OracleEngine D) (oqm : OracleQueryMetadata) (k : Nat)
    (queryIdToIndex : HashMap Int Nat) : OracleEngine D :=
  { s with
    replyStatesIndex := k
    queryIdToIndex
    pendingQueryIndices :=
      (s.pendingQueryIndices.add MAX_SIMULTANEOUS_ORACLE_QUERIES s.oracleQueryCount).2
    replyStates := update s.replyStates k
      { zero with queryId := oqm.queryId }
    queries := update s.queries s.oracleQueryCount oqm
    oracleQueryCount := s.oracleQueryCount + 1 }

lemma Sound.append (h : Sound env s) (oqm : OracleQueryMetadata) {k : Nat}
    {m : HashMap Int Nat} (hk : k < MAX_SIMULTANEOUS_ORACLE_QUERIES)
    (hfree : (s.replyStates k).queryId ≤ 0)
    (hcard : s.pendingQueryIndices.numValues < MAX_SIMULTANEOUS_ORACLE_QUERIES)
    (hslot : oqm.statusVar = .pending k) (hpending : oqm.status = .pending)
    (hflags : oqm.statusFlags = ORACLE_FLAG_REPLY_PENDING) (hpos : 0 < oqm.queryId)
    (hinterface : oqm.interfaceIndex < oracleInterfacesCount)
    (hmap : ∃ f, HashMap.Models 21 env.hash m f ∧ ∀ id i, f.lookup id = some i ↔
      i < (s.append oqm k m).oracleQueryCount ∧ ((s.append oqm k m).queries i).queryId = id) :
    Sound env (s.append oqm k m) ∧ Extends s (s.append oqm k m) := by
  have hq : (s.append oqm k m).queries s.oracleQueryCount = oqm := update_self ..
  have hk' : (s.append oqm k m).slot s.oracleQueryCount = k := by
    rw [slot, hq, hslot, StatusVar.replyStateIndex]
  have hreply : (s.append oqm k m).reply s.oracleQueryCount =
      { zero with queryId := oqm.queryId } := by
    rw [reply, hk']
    exact update_self ..
  have hst : Started s (s.append oqm k m) k := by
    refine ⟨rfl, ⟨Nat.lt_succ_self _, .inl (by rw [hq, hpending])⟩, hk', fun j hj he => ?_,
      fun j hj => update_of_ne hj .., fun x hx => update_of_ne hx ..⟩
    have hid := h.id_pos j hj.1
    rw [← (h.agrees j hj).queryId, reply, he] at hid
    omega
  obtain ⟨S, hS, hopen⟩ := h.pending
  have hnot : s.oracleQueryCount ∉ S := fun hmem => lt_irrefl _ ((hopen _).1 hmem).1
  refine ⟨h.start hst hk hq hpending hpos hinterface ?_ ?_ hmap
    ⟨_, hS.add hnot (hS.card.trans_lt hcard), fun j => ?_⟩ rfl rfl hk,
    Nat.le_succ _, fun j hj => hst.kept hj, fun j hj hlt => ?_, fun j hj hlt c => ?_⟩
  · rw [hreply]
    refine ⟨rfl, counted_zero _, fun _ => ?_, fun hc => ?_, ?_⟩
    · exact ⟨(by decide : 0 < QUORUM), Nat.zero_le _⟩
    · rw [hpending] at hc
      cases hc
    · rw [hflags]
      exact (by decide : (0 : Nat) ≠ 0 ↔ ORACLE_FLAG_REPLY_PENDING.testBit 8)
  · rw [hreply]
    rfl
  · rw [Finset.mem_insert, hopen, hst.open_iff, or_comm]
  · obtain rfl : j = s.oracleQueryCount := le_antisymm (Nat.lt_succ_iff.1 hlt) hj
    rw [hq, hpending]
  · obtain rfl : j = s.oracleQueryCount := le_antisymm (Nat.lt_succ_iff.1 hlt) hj
    rw [hreply]
    rfl

lemma Sound.startQuery (h : Sound env s) (tick : Nat) {queryId : Int} (type : QueryType)
    {interfaceIndex : Nat} (timeout : DateAndTime) (bytes : Nat) (hpos : 0 < queryId)
    (hfresh : ∀ j < s.oracleQueryCount, (s.queries j).queryId ≠ queryId)
    (hinterface : interfaceIndex < oracleInterfacesCount) :
    ∃ result s', s.startQuery env tick queryId type interfaceIndex timeout bytes = (result, s') ∧
      Sound env s' ∧ SameSchedule s s' ∧ Extends s s' ∧
      (result = none → s'.oracleQueryCount = s.oracleQueryCount) ∧
      (result ≠ none → Appended s s' queryId type interfaceIndex ∧
        s.queryStorageBytesUsed + bytes ≤ ORACLE_QUERY_STORAGE_SIZE) := by
  obtain ⟨f, hmodels, hlookup⟩ := h.map
  obtain ⟨S, hS, hopen⟩ := h.pending
  have hnew : queryId ∉ f := by
    rw [← Finmap.lookup_eq_none, Option.eq_none_iff_forall_ne_some]
    intro j hj
    obtain ⟨hlt, hid⟩ := (hlookup queryId j).1 hj
    exact hfresh j hlt hid
  obtain ⟨hfull, hset⟩ := hmodels.set queryId s.oracleQueryCount
  unfold OracleEngine.startQuery
  split_ifs with hlimits
  · exact ⟨none, s, rfl, h, .refl s, .refl s, fun _ => rfl, fun hne => absurd rfl hne⟩
  push Not at hlimits
  obtain ⟨-, hcard, hbytes⟩ := hlimits
  obtain hslot | ⟨k, hk, hfree, hslot⟩ := getEmptyReplyStateSlot_eq h.cursor
  · rw [hslot]
    exact ⟨none, s, rfl, h, .refl s, .refl s, fun _ => rfl, fun hne => absurd rfl hne⟩
  rw [hslot]
  dsimp only
  obtain ⟨⟨result, m⟩, hm⟩ : ∃ r, HashMap.set MAX_ORACLE_QUERIES env.hash s.queryIdToIndex queryId
      s.oracleQueryCount = r := ⟨_, rfl⟩
  have hm' : HashMap.set (2 ^ 21) env.hash s.queryIdToIndex queryId s.oracleQueryCount =
      (result, m) := hm
  rw [hm'] at hfull hset
  rw [hm]
  cases result with
  | none =>
    rw [if_pos (hfull.1 rfl)] at hset
    refine ⟨none, _, rfl, { h with map := ⟨f, hset, hlookup⟩, cursor := hk },
      { SameSchedule.refl s with }, .of_count rfl fun j => ⟨rfl, fun _ => rfl⟩, fun _ => rfl,
      fun hne => absurd rfl hne⟩
  | some idx =>
    rw [if_neg (mt hfull.2 (by simp))] at hset
    have hmap : ∀ id i, (f.insert queryId s.oracleQueryCount).lookup id = some i ↔
        i < s.oracleQueryCount + 1 ∧ (update s.queries s.oracleQueryCount
          { queryId, type, status := .pending, statusFlags := ORACLE_FLAG_REPLY_PENDING
            interfaceIndex, queryTick := tick, timeout, statusVar := .pending k } i).queryId =
          id := by
      intro id i
      have hlast : i < s.oracleQueryCount + 1 ↔ i < s.oracleQueryCount ∨ i = s.oracleQueryCount :=
        Nat.lt_succ_iff_lt_or_eq
      obtain rfl | hid := Decidable.eq_or_ne id queryId
      · rw [Finmap.lookup_insert, Option.some.injEq]
        constructor
        · rintro rfl
          simp
        · rintro ⟨hi, he⟩
          obtain hi | rfl := hlast.1 hi
          · rw [update_of_ne (Nat.ne_of_lt hi)] at he
            exact absurd he (hfresh i hi)
          · rfl
      · rw [Finmap.lookup_insert_of_ne _ hid, hlookup, hlast]
        constructor
        · rintro ⟨hi, he⟩
          rw [update_of_ne (Nat.ne_of_lt hi)]
          exact ⟨.inl hi, he⟩
        · rintro ⟨hi | rfl, he⟩
          · rw [update_of_ne (Nat.ne_of_lt hi)] at he
            exact ⟨hi, he⟩
          · rw [update_self] at he
            exact absurd he.symm hid
    obtain ⟨hsound, hextends⟩ := h.append _ hk hfree hcard rfl rfl rfl hpos hinterface
      ⟨_, hset, hmap⟩
    refine ⟨_, _, rfl, hsound, { SameSchedule.refl s with }, hextends, by simp, fun _ =>
      ⟨⟨rfl, ?_, ?_, ?_⟩, hbytes⟩⟩ <;> exact congrArg _ (update_self ..)

end OracleEngine

end QubicCore.Oracle
