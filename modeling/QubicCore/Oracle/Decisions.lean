import QubicCore.Oracle.Transitions

/-!
# Commits and reveals

A commit counts once for each computor and query: the first one that reaches the engine while the
query is open. `Voted s s' i l` says what the commits `l` do to query `i`, and `Revealed` what a
reveal does to it.
-/

namespace QubicCore.Oracle

open Library.Tally Function OracleEngine OracleReplyState

variable {D : Type} (rs : OracleReplyState D)

def OracleReplyState.commit (c : Nat) : Option (D × D) :=
  if rs.replyCommitTicks c = 0 then none
  else some (rs.replyCommitDigests c, rs.replyCommitKnowledgeProofs c)

def firstCommit (commits : List (Nat × CommitItem D)) (queryId : Int) (c : Nat) : Option (D × D) :=
  (commits.find? fun x => x.1 = c ∧ x.2.queryId = queryId).map fun x =>
    (x.2.replyDigest, x.2.replyKnowledgeProof)

def digests (commits : Nat → Option (D × D)) (c : Nat) : Option D := (commits c).map Prod.fst

lemma OracleReplyState.votes_eq : rs.votes = digests rs.commit := by
  funext c
  unfold votes digests commit
  split_ifs <;> rfl

lemma firstCommit_append (l l' : List (Nat × CommitItem D)) (queryId : Int) (c : Nat) :
    firstCommit (l ++ l') queryId c = (firstCommit l queryId c).or (firstCommit l' queryId c) := by
  simp [firstCommit, List.find?_append, Option.map_or]

lemma firstCommit_single (c c' : Nat) (item : CommitItem D) (queryId : Int) :
    firstCommit [(c, item)] queryId c' =
      if c = c' ∧ item.queryId = queryId then some (item.replyDigest, item.replyKnowledgeProof)
      else none := by
  by_cases h : c = c' ∧ item.queryId = queryId <;> simp [firstCommit, h]

def joined (l : List (Nat × CommitItem D)) (queryId : Int) (c : Nat) : Option (D × D) :=
  (rs.commit c).or (firstCommit l queryId c)

lemma joined_append (l l' : List (Nat × CommitItem D)) (queryId : Int)
    (c : Nat) : joined rs (l ++ l') queryId c =
      (joined rs l queryId c).or (firstCommit l' queryId c) := by
  rw [joined, firstCommit_append, ← Option.or_assoc, joined]

lemma view_digests_append {rs : OracleReplyState D} (n : Nat)
    (l l' : List (Nat × CommitItem D)) (queryId : Int) :
    View n (digests (joined rs l queryId)) (digests (joined rs (l ++ l') queryId)) := by
  intro c _ d hd
  obtain ⟨x, hx, rfl⟩ := Option.map_eq_some_iff.1 hd
  rw [digests, joined_append, hx]
  rfl

lemma OracleReplyState.Saved.commit {rs rs' : OracleReplyState D} {c tick : Nat}
    {item : CommitItem D}
    (h : rs.Saved rs' c tick item) (hblank : rs.replyCommitTicks c = 0) (htick : tick ≠ 0) :
    rs'.commit = joined rs [(c, item)] item.queryId := by
  funext x
  rw [joined, firstCommit_single]
  obtain rfl | hx := Decidable.eq_or_ne c x
  · simp [OracleReplyState.commit, h.ticks, h.digests, h.proofs, hblank, htick]
  · simp [OracleReplyState.commit, h.ticks, h.digests, h.proofs, hx, hx.symm]

/-- The computors that committed to the revealed reply and to the proof that they know it. -/
def correctCommitters [DecidableEq D] (env : Env D) (rs : OracleReplyState D)
    (replyData : List UInt8) : List Nat :=
  (List.range NUMBER_OF_COMPUTORS).filter fun c =>
    rs.commit c = some (env.K12 replyData, env.K12 (replyData ++ computorIndexBytes c))

/-- A computor without a commit has no right one. -/
lemma correctCommits_eq [DecidableEq D] [Zero D] {env : Env D} (hK : Injective env.K12)
    {rs : OracleReplyState D} (hcounted : rs.Counted) {data : List UInt8}
    (hdigest : env.K12 data = rs.quorumCommitDigest) :
    correctCommits env rs data =
      (correctCommitters env rs data).map fun c => ⟨rs.replyCommitTicks c, c⟩ := by
  obtain ⟨m, hbins⟩ := hcounted
  refine congrArg (List.map _) (List.filter_congr fun c _ => decide_eq_decide.2 ?_)
  rw [commit, ← hdigest]
  split_ifs with hblank
  · refine iff_of_false (fun hc => ?_) (by simp)
    obtain ⟨hzero, hproof⟩ := hbins.blank c hblank
    have heq : env.K12 data = env.K12 (data ++ computorIndexBytes c) := by
      rw [← hc.1, hzero, ← hproof, hc.2]
    simpa [computorIndexBytes] using congrArg List.length (hK heq)
  · simp

namespace OracleEngine

section

variable {s s' s'' : OracleEngine D} {i : Nat} {l l' : List (Nat × CommitItem D)}

/-- What the commits `l` do to query `i`. -/
inductive Voted [DecidableEq D] (s s' : OracleEngine D) (i : Nat)
    (l : List (Nat × CommitItem D)) : Prop
  | closed : ¬s.Open i → (s'.queries i).status = (s.queries i).status → Voted s s' i l
  | counted : s.Open i → s'.Open i →
    ((s.queries i).status = .committed → (s'.queries i).status = .committed) →
    (∀ c, (s'.reply i).commit c = joined (s.reply i) l (s.queries i).queryId c) → Voted s s' i l
  | hopeless : s.Open i → (s.queries i).status = .pending →
    (s'.queries i).status = .unresolvable →
    Hopeless NUMBER_OF_COMPUTORS QUORUM (digests (joined (s.reply i) l (s.queries i).queryId)) →
    Voted s s' i l

lemma Voted.trans [DecidableEq D] (h : Voted s s' i l) (h' : Voted s' s'' i l')
    (hframe : Frame s s') : Voted s s'' i (l ++ l') := by
  have hclosed : ¬s'.Open i → (s''.queries i).status = (s'.queries i).status := fun hno => by
    cases h' with
    | closed _ hstatus => exact hstatus
    | counted hopen | hopeless hopen => exact absurd hopen hno
  cases h with
  | closed hno hstatus =>
    refine .closed hno ((hclosed ?_).trans hstatus)
    rwa [Open, hstatus, hframe.oracleQueryCount]
  | counted hopen hopen' hcommitted hcommits =>
    have hjoined : joined (s'.reply i) l' (s'.queries i).queryId =
        joined (s.reply i) (l ++ l') (s.queries i).queryId := by
      funext c
      rw [joined, hcommits, hframe.queryId, joined_append]
    cases h' with
    | closed hno => exact absurd hopen' hno
    | counted _ hopen'' hcommitted' hcommits' =>
      exact .counted hopen hopen'' (hcommitted' ∘ hcommitted) fun c => by rw [hcommits', hjoined]
    | hopeless _ hpending hstatus hhopeless =>
      refine .hopeless hopen (hopen.2.resolve_right fun hc => ?_) hstatus (hjoined ▸ hhopeless)
      rw [hcommitted hc] at hpending
      cases hpending
  | hopeless hopen hpending hstatus hhopeless =>
    refine .hopeless hopen hpending ((hclosed ?_).trans hstatus)
      (hhopeless.mono (view_digests_append _ l l' _))
    rw [Open, hstatus]
    simp

lemma SameIndices.kept (h : SameIndices s s') (i : Nat) : Kept s s' i := by
  refine ⟨by rw [h.queries], fun _ => ?_⟩
  rw [reply, reply, slot, slot, h.queries, h.replyStates]

lemma Steady.commit (h : Steady s s' i) (hi : s.Open i) :
    (s'.reply i).commit = (s.reply i).commit := by
  funext c
  rw [OracleReplyState.commit, h.digests hi, h.proofs hi, h.ticks hi, OracleReplyState.commit]

lemma Steady.voted [DecidableEq D] (h : Steady s s' i)
    (hcount : s.oracleQueryCount ≤ s'.oracleQueryCount)
    (hl : s.Open i → ∀ c, joined (s.reply i) l (s.queries i).queryId c = (s.reply i).commit c) :
    Voted s s' i l := by
  by_cases hi : s.Open i
  · refine .counted hi ⟨hi.1.trans_le hcount, by rw [h.status]; exact hi.2⟩
      (fun hc => by rw [h.status, hc]) fun c => ?_
    rw [h.commit hi, hl hi]
  · exact .closed hi h.status

end

/-! ## Commits -/

variable [DecidableEq D] [Zero D] {env : Env D} {s s' : OracleEngine D} {i c tick : Nat}
  {item : CommitItem D}

omit [DecidableEq D] in
lemma finishQuery_write (s : OracleEngine D) (i : Nat) (oqm : OracleQueryMetadata)
    (rs : OracleReplyState D) (dropCommit dropReveal : Bool) :
    finishQuery i oqm dropCommit dropReveal
      { s with replyStates := update s.replyStates (s.slot i) rs } =
    s.finishQuery i oqm dropCommit dropReveal := by
  simp only [finishQuery, slot, update_idem]

omit [Zero D] in
lemma Written.voted {oqm : OracleQueryMetadata} {rs : OracleReplyState D}
    {l : List (Nat × CommitItem D)} (hw : Written s s' i oqm rs) (hi : s.Open i)
    (hopen : oqm.status = .pending ∨ oqm.status = .committed)
    (hcommitted : (s.queries i).status = .committed → oqm.status = .committed)
    (hjoined : rs.commit = joined (s.reply i) l (s.queries i).queryId) : Voted s s' i l := by
  refine .counted hi ⟨hi.1.trans_eq hw.frame.oracleQueryCount.symm, ?_⟩ ?_ fun x => ?_
  · rwa [hw.queries]
  · rwa [hw.queries]
  · rw [hw.reply, hjoined]

lemma Sound.decideCommit (h : Sound env s) (hi : s.Open i) (hc : c < NUMBER_OF_COMPUTORS)
    (htick : tick ≠ 0) (hid : (s.queries i).queryId = item.queryId)
    (hblank : (s.reply i).replyCommitTicks c = 0) {rs : OracleReplyState D}
    (hcounted : rs.Counted) (hsaved : (s.reply i).Saved rs c tick item) :
    ∃ s', OracleEngine.decideCommit i
        { s with replyStates := update s.replyStates (s.slot i) rs } = some s' ∧
      Sound env s' ∧ Frame s s' ∧ Voted s s' i [(c, item)] ∧ ∀ j ≠ i, Kept s s' j := by
  obtain ⟨hqid, hold, -, hquorum, hreplied⟩ := h.agrees i hi
  have hjoined : rs.commit = joined (s.reply i) [(c, item)] (s.queries i).queryId := by
    rw [hsaved.commit hblank htick, hid]
  -- a quorum lasts
  have hmono : (s.queries i).status = .committed → QUORUM ≤ rs.mostCommitsCount := by
    intro hcommitted
    obtain ⟨d, hd⟩ := (hold.quorum_iff _).1 (hquorum hcommitted)
    refine (hcounted.quorum_iff _).2 ⟨d, hd.trans ?_⟩
    rw [hsaved.votes htick, tally_update hc (by simp [votes, hblank])]
    exact Nat.le_add_right ..
  have hagrees : ∀ status, (status = .pending → Undecided rs) →
      (status = .committed → QUORUM ≤ rs.mostCommitsCount) →
      Agrees { s.queries i with status := status } rs := fun status hu hq =>
    ⟨hsaved.queryId.trans hqid, hcounted, hu, hq, by rw [hsaved.ownReplySize]; exact hreplied⟩
  have hsame : AwaitsCommit (s.queries i) rs ↔ AwaitsCommit (s.queries i) (s.reply i) := by
    rw [AwaitsCommit, AwaitsCommit, hsaved.ownReplySize]
  have hreply : update s.replyStates (s.slot i) rs
      (s.queries i).statusVar.replyStateIndex = rs := update_self ..
  have hstay : Agrees (s.queries i) rs →
      ∃ s', some { s with replyStates := update s.replyStates (s.slot i) rs } = some s' ∧
        Sound env s' ∧ Frame s s' ∧ Voted s s' i [(c, item)] ∧ ∀ j ≠ i, Kept s s' j := by
    intro hagrees
    obtain ⟨hsound, hw⟩ := h.write hi hagrees rfl hi.2 (.same hsame) (.same Iff.rfl)
    refine ⟨_, ?_, hsound, hw.frame, hw.voted hi hi.2 id hjoined, hw.kept⟩
    rw [OracleEngine.write, update_eq_self]
  unfold OracleEngine.decideCommit
  dsimp only
  rw [hreply]
  split_ifs with hmost hstatus hgap
  · -- the quorum is reached
    have hpending := hi.2.resolve_right hstatus
    obtain ⟨r, hr⟩ := h.commits.removeByValue (s.slot i)
    obtain ⟨hsound, hw⟩ := h.write hi (hagrees .committed (by simp) fun _ => hmost) rfl (.inr rfl)
      (.remove hr fun hawaits => by cases hawaits.1)
      (.add (fun hold => by rw [AwaitsReveal, hpending] at hold; cases hold) rfl)
    refine ⟨_, ?_, hsound, hw.frame, hw.voted hi (.inr rfl) (fun _ => rfl) hjoined, hw.kept⟩
    change (s.pendingCommitReplyStateIndices.removeByValue (s.slot i)).bind _ = _
    rw [hr]
    rfl
  · exact hstay (hagrees _ (fun hp => absurd hp (by simp_all)) fun _ => hmost)
  · -- no digest can reach the quorum
    have hnot : (s.queries i).status ≠ .committed := fun hc => hmost (hmono hc)
    have hpending := hi.2.resolve_right hnot
    obtain ⟨s', hs', hsound, hfinished, hqueries, hframe, -⟩ := h.finishQuery hi
      { s.queries i with
        status := .unresolvable
        statusVar := .failure rs.totalCommits rs.mostCommitsCount }
      rfl rfl rfl ⟨by simp, by simp⟩ (fun _ => rfl) (fun hc => absurd hc hnot : _ → false)
    refine ⟨s', ?_, hsound, hframe, .hopeless hi hpending (by rw [hqueries]) ?_,
      fun j hj => hfinished.kept h.distinct hj⟩
    · rw [finishQuery_write, hs']
    · rw [← hjoined, ← votes_eq]
      exact (hcounted.hopeless_iff (by decide)).1 hgap
  · exact hstay (hagrees _ (fun _ => ⟨not_le.1 hmost, not_lt.1 hgap⟩) hmono)

lemma Sound.processCommitItem (h : Sound env s) (hc : c < NUMBER_OF_COMPUTORS)
    (htick : tick ≠ 0) (item : CommitItem D) :
    ∃ s', s.processCommitItem env c tick item = some s' ∧ Sound env s' ∧ Frame s s' ∧
      ∀ i, Voted s s' i [(c, item)] := by
  have hother : ∀ i, (s.queries i).queryId ≠ item.queryId →
      ∀ x, joined (s.reply i) [(c, item)] (s.queries i).queryId x = (s.reply i).commit x := by
    intro i hne x
    rw [joined, firstCommit_single, if_neg fun hx => hne hx.2.symm, Option.or_none]
  -- the commit does not count for any query
  have hskip : (∀ i, s.Open i → (s.queries i).queryId = item.queryId →
      (s.reply i).replyCommitTicks c ≠ 0) →
      ∃ s', some s = some s' ∧ Sound env s' ∧ Frame s s' ∧ ∀ i, Voted s s' i [(c, item)] := by
    intro hall
    refine ⟨s, rfl, h, .refl s, fun i => (Kept.refl s i).steady.voted le_rfl fun hi x => ?_⟩
    by_cases hid : (s.queries i).queryId = item.queryId
    · rw [joined, firstCommit_single]
      obtain rfl | hx := Decidable.eq_or_ne c x
      · rw [commit, if_neg (hall i hi hid), Option.some_or]
      · rw [if_neg fun he => hx he.1, Option.or_none]
    · exact hother i hid x
  unfold OracleEngine.processCommitItem
  split
  · next hnone =>
    refine hskip fun i hi hid => ?_
    rw [h.findQuery_iff.2 ⟨hi.1, hid⟩] at hnone
    cases hnone
  · next q hfind =>
    obtain ⟨hlt, hid⟩ := h.findQuery_iff.1 hfind
    have hunique : ∀ i, s.Open i → (s.queries i).queryId = item.queryId → i = q := fun i hi he =>
      h.index_unique hi.1 hlt (he.trans hid.symm)
    dsimp only
    split_ifs with hstatus hslot hticks
    · refine hskip fun i hi he => ?_
      obtain rfl := hunique i hi he
      have := hi.2
      tauto
    · have hq : s.Open q := ⟨hlt, by tauto⟩
      exact absurd ((h.agrees q hq).queryId.trans hid) hslot
    · refine hskip fun i hi he => ?_
      obtain rfl := hunique i hi he
      exact hticks
    · have hq : s.Open q := ⟨hlt, by tauto⟩
      have hblank : (s.reply q).replyCommitTicks c = 0 := not_not.1 hticks
      obtain ⟨rs, hrs, hcounted, hsaved⟩ := (h.agrees q hq).counted.saveCommit hc hblank htick item
      obtain ⟨s', hs', hsound, hframe, hvoted, hkept⟩ :=
        h.decideCommit hq hc htick hid hblank hcounted hsaved
      refine ⟨s', ?_, hsound, hframe, fun i => ?_⟩
      · change ((s.reply q).saveCommit c tick item).bind _ = _
        rw [hrs]
        exact hs'
      · obtain rfl | hne := Decidable.eq_or_ne i q
        · exact hvoted
        · refine (hkept i hne).steady.voted hframe.oracleQueryCount.ge fun hi => hother i ?_
          exact fun he => hne (hunique i hi he)

lemma Sound.processCommitItems (hc : c < NUMBER_OF_COMPUTORS) (htick : tick ≠ 0)
    (items : List (CommitItem D)) (h : Sound env s) :
    ∃ s', items.foldlM (OracleEngine.processCommitItem env c tick) s = some s' ∧ Sound env s' ∧
      Frame s s' ∧ ∀ i, Voted s s' i (items.map (c, ·)) := by
  induction items generalizing s with
  | nil =>
    exact ⟨s, rfl, h, .refl s, fun i => (Kept.refl s i).steady.voted le_rfl fun _ x => by
      simp [joined, firstCommit]⟩
  | cons item items ih =>
    obtain ⟨s₁, hs₁, hsound, hframe, hvoted⟩ := h.processCommitItem hc htick item
    obtain ⟨s₂, hs₂, hsound₂, hframe₂, hvoted₂⟩ := ih hsound
    refine ⟨s₂, ?_, hsound₂, hframe.trans hframe₂, fun i => (hvoted i).trans (hvoted₂ i) hframe⟩
    rw [List.foldlM_cons, hs₁]
    exact hs₂

def commitsOf (env : Env D) (tx : CommitTransaction D) : List (Nat × CommitItem D) :=
  match env.computorIndex tx.sourcePublicKey with
  | none => []
  | some c => tx.items.map (c, ·)

omit [DecidableEq D] [Zero D] in
lemma computorIndex_lt {computor : M256i} (h : env.computorIndex computor = some c) :
    c < NUMBER_OF_COMPUTORS := by
  rw [Env.computorIndex, List.find?_range_eq_some] at h
  exact List.mem_range.1 h.2.1

lemma Sound.processOracleReplyCommitTransaction (h : Sound env s) {tx : CommitTransaction D}
    (htick : tx.tick ≠ 0) :
    ∃ r s', s.processOracleReplyCommitTransaction env tx = some (r, s') ∧ Sound env s' ∧
      Frame s s' ∧ ∀ i, Voted s s' i (commitsOf env tx) := by
  have hnone : ∀ l : List (Nat × CommitItem D), l = [] → ∀ i, Voted s s i l := by
    rintro l rfl i
    exact (Kept.refl s i).steady.voted le_rfl fun _ x => by simp [joined, firstCommit]
  unfold OracleEngine.processOracleReplyCommitTransaction commitsOf
  cases hcomp : env.computorIndex tx.sourcePublicKey with
  | none => exact ⟨false, s, by rw [ite_self], h, .refl s, hnone _ rfl⟩
  | some c =>
    split_ifs with hitems
    · exact ⟨false, s, rfl, h, .refl s, hnone _ (by simp [hitems])⟩
    · obtain ⟨s', hs', hsound, hframe, hvoted⟩ :=
        h.processCommitItems (computorIndex_lt hcomp) htick tx.items
      refine ⟨true, s', ?_, hsound, hframe, hvoted⟩
      dsimp only
      rw [hs']
      rfl

/-! ## Reveals -/

/-- The revealed reply is that of the quorum digest of query `i`. -/
structure Reveals (env : Env D) (s : OracleEngine D) (i : Nat) (tx : RevealTransaction) : Prop where
  isOpen : s.Open i
  committed : (s.queries i).status = .committed
  queryId : (s.queries i).queryId = tx.queryId
  digest : env.K12 tx.replyData = (s.reply i).quorumCommitDigest

lemma Sound.checkReplyRevealTransaction (h : Sound env s) (tx : RevealTransaction) :
    ∃ r s', s.checkReplyRevealTransaction env tx = (r, s') ∧ Sound env s' ∧ Frame s s' ∧
      (∀ i, Steady s s' i) ∧ ∀ i, r = some i → s' = s ∧ Reveals env s i tx := by
  have hrefuse : ∃ r s', (none, s) = (r, s') ∧ Sound env s' ∧ Frame s s' ∧
      (∀ i, Steady s s' i) ∧ ∀ i, r = some i → s' = s ∧ Reveals env s i tx :=
    ⟨none, s, rfl, h, .refl s, fun i => (Kept.refl s i).steady, by simp⟩
  unfold OracleEngine.checkReplyRevealTransaction
  split_ifs with hcomp
  · exact hrefuse
  cases hfind : s.findQuery env tx.queryId with
  | none => exact hrefuse
  | some q =>
    obtain ⟨hlt, hid⟩ := h.findQuery_iff.1 hfind
    dsimp only
    split_ifs with hstatus hsize hslot hdigest
    · exact hrefuse
    · have hq : s.Open q := ⟨hlt, .inr (not_not.1 hstatus)⟩
      obtain ⟨hsound, hframe, hsteady⟩ := h.setFlags hq
        (by decide : ORACLE_FLAG_BAD_SIZE_REVEAL.testBit 8 = false)
      exact ⟨none, _, rfl, hsound, hframe, hsteady, by simp⟩
    · exact hrefuse
    · exact hrefuse
    · have hcommitted := not_not.1 hstatus
      refine ⟨some q, s, rfl, h, .refl s, fun i => (Kept.refl s i).steady, ?_⟩
      rintro _ ⟨⟩
      exact ⟨rfl, ⟨hlt, .inr hcommitted⟩, hcommitted, hid, not_not.1 hdigest⟩

omit [DecidableEq D] [Zero D] in
lemma setLastRevealed_same (s : OracleEngine D) (oqm : OracleQueryMetadata) :
    SameIndices s (s.setLastRevealed oqm) ∧ Frame s (s.setLastRevealed oqm) := by
  unfold setLastRevealed
  split
  · next subscriptionId _ _ _ =>
    refine ⟨⟨rfl, rfl, rfl, rfl, rfl, rfl, rfl, rfl⟩, { Frame.refl s with
      subscriptions := fun k => ?_ }⟩
    obtain rfl | hk := Decidable.eq_or_ne k subscriptionId
    · exact ⟨oqm.queryId, by simp⟩
    · exact ⟨(s.subscriptions k).lastRevealedQueryId, by simp [hk]⟩
  · exact ⟨⟨rfl, rfl, rfl, rfl, rfl, rfl, rfl, rfl⟩, .refl s⟩

/-- A reveal ends query `i`: with success if enough commits turn out to be right. -/
structure Revealed (env : Env D) (s s' : OracleEngine D) (i : Nat) (tx : RevealTransaction) :
    Prop where
  reveals : Reveals env s i tx
  outcome : (s'.queries i).status =
    if QUORUM ≤ (correctCommits env (s.reply i) tx.replyData).length then .success
    else .unresolvable

/-- The end of a revealed query, after changes outside the indices. -/
lemma Sound.finishRevealed {t : OracleEngine D} {tx : RevealTransaction} (h : Sound env s)
    (hreveals : Reveals env s i tx) (hsame : SameIndices s t) (hframe : Frame s t)
    {status : QueryStatus} (hstatus : status = .success ∨ status = .unresolvable)
    (flags : Nat) (statusVar : StatusVar) :
    ∃ s', t.finishQuery i { s.queries i with status, statusFlags := flags, statusVar } false true =
        some s' ∧ Sound env s' ∧ Frame s s' ∧ (s'.queries i).status = status ∧
      ∀ j ≠ i, Kept s s' j := by
  have hi : t.Open i := by
    rw [Open, hsame.queries, hsame.oracleQueryCount]
    exact hreveals.isOpen
  have hqueries : t.queries i = s.queries i := by rw [hsame.queries]
  have hnot : (t.queries i).status ≠ .pending := by
    rw [hqueries, hreveals.committed]
    simp
  obtain ⟨s', hs', hsound, hfinished, hq, hframe', -⟩ := (h.congr hsame).finishQuery hi
    { s.queries i with status, statusFlags := flags, statusVar }
    (by rw [hqueries]) (by rw [hqueries]) (by rw [hqueries])
    (by obtain rfl | rfl := hstatus <;> simp)
    (fun hp => absurd hp hnot : _ → false) (fun _ => rfl)
  refine ⟨s', hs', hsound, hframe.trans hframe', by rw [hq], fun j hj => ?_⟩
  exact (hsame.kept j).trans (hfinished.kept (h.congr hsame).distinct hj) hsame.oracleQueryCount.ge

-- kept from unfolding to a computation over all computors
attribute [local irreducible] correctCommits

lemma Sound.processOracleReplyRevealTransaction (h : Sound env s) (tx : RevealTransaction)
    (txSlotInTickData : Nat) :
    ∃ r s', s.processOracleReplyRevealTransaction env tx txSlotInTickData = some (r, s') ∧
      Sound env s' ∧ Frame s s' ∧ ∀ i, Steady s s' i ∨ Revealed env s s' i tx := by
  obtain ⟨r, s₁, hcheck, hsound, hframe, hsteady, hreveals⟩ := h.checkReplyRevealTransaction tx
  unfold OracleEngine.processOracleReplyRevealTransaction
  rw [hcheck]
  cases r with
  | none => exact ⟨false, s₁, rfl, hsound, hframe, fun i => .inl (hsteady i)⟩
  | some q =>
    obtain ⟨rfl, hq⟩ := hreveals q rfl
    obtain ⟨points, hpoints⟩ : ∃ points, points = addRevenuePoints
        (correctCommits env (s₁.reply q) tx.replyData) s₁.revenuePoints := ⟨_, rfl⟩
    obtain ⟨t, ht⟩ : ∃ t : OracleEngine D, t = { s₁ with revenuePoints := points } := ⟨_, rfl⟩
    have hsame : SameIndices s₁ t := by
      rw [ht]
      exact ⟨rfl, rfl, rfl, rfl, rfl, rfl, rfl, rfl⟩
    have hframe : Frame s₁ t := by
      rw [ht]
      exact { Frame.refl s₁ with }
    have hend : ∀ {s'} (status : QueryStatus), (∀ j ≠ q, Kept s₁ s' j) →
        (s'.queries q).status = status →
        (status = if QUORUM ≤ (correctCommits env (s₁.reply q) tx.replyData).length
          then .success else .unresolvable) →
        ∀ i, Steady s₁ s' i ∨ Revealed env s₁ s' i tx := by
      intro s' status hkept hstatus houtcome i
      obtain rfl | hne := Decidable.eq_or_ne i q
      · exact .inr ⟨hq, hstatus.trans houtcome⟩
      · exact .inl (hkept i hne).steady
    change ∃ r s', (if (correctCommits env (s₁.reply q) tx.replyData).length < QUORUM then _
      else _) = some (r, s') ∧ _
    split_ifs with hfew
    · obtain ⟨s', hs', hsound', hframe', hstatus, hkept⟩ := hsound.finishRevealed hq hsame hframe
        (.inr rfl) ((s₁.queries q).statusFlags ||| ORACLE_FLAG_FAKE_COMMITS)
        (.failure (s₁.reply q).totalCommits (correctCommits env (s₁.reply q) tx.replyData).length)
      refine ⟨true, s', ?_, hsound', hframe', hend _ hkept hstatus (if_neg (not_le.2 hfew)).symm⟩
      rw [ht, hpoints] at hs'
      exact congrArg (fun x => x.bind fun s => some (true, s)) hs'
    · obtain ⟨hsame', hframe'⟩ := setLastRevealed_same t { s₁.queries q with
        status := .success, statusVar := .success tx.tick txSlotInTickData }
      obtain ⟨s', hs', hsound', hframe', hstatus, hkept⟩ := hsound.finishRevealed hq
        (hsame.trans hsame') (hframe.trans hframe') (.inl rfl) (s₁.queries q).statusFlags
        (.success tx.tick txSlotInTickData)
      refine ⟨true, s', ?_, hsound', hframe', hend _ hkept hstatus (if_pos (not_lt.1 hfew)).symm⟩
      rw [ht, hpoints] at hs'
      exact congrArg (fun x => x.bind fun s => some (true, s)) hs'

end OracleEngine

end QubicCore.Oracle
