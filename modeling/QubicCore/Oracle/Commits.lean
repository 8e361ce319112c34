import QubicCore.Library.Tally
import QubicCore.Oracle.Replies

/-!
# Commits of one query

The histogram of a reply slot counts the commits by digest. A bin refers to the digest through the
first computor that committed to it. `Bins rs n` says that the first `n` bins are in use, one for
each digest, and count the computors that have committed to it.
-/

namespace QubicCore.Oracle

open Library.Tally Function Finset

namespace OracleReplyState

variable {D : Type}

def votes (rs : OracleReplyState D) (c : Nat) : Option D :=
  if rs.replyCommitTicks c = 0 then none else some (rs.replyCommitDigests c)

def binDigest (rs : OracleReplyState D) (h : Nat) : D :=
  rs.replyCommitDigests (rs.replyCommitHistogramIdx h)

variable [DecidableEq D]

structure Bins [Zero D] (rs : OracleReplyState D) (n : Nat) : Prop where
  used : ∀ h, rs.replyCommitHistogramCount h ≠ 0 ↔ h < n
  voter_lt : ∀ h < n, rs.replyCommitHistogramIdx h < NUMBER_OF_COMPUTORS
  voter : ∀ h < n, rs.replyCommitTicks (rs.replyCommitHistogramIdx h) ≠ 0
  distinct : ∀ h < n, ∀ k < n, rs.binDigest h = rs.binDigest k → h = k
  count : ∀ h < n,
    rs.replyCommitHistogramCount h = tally NUMBER_OF_COMPUTORS rs.votes (rs.binDigest h)
  cover : ∀ c < NUMBER_OF_COMPUTORS, ∀ d, rs.votes c = some d → ∃ h < n, rs.binDigest h = d
  total : rs.totalCommits = received NUMBER_OF_COMPUTORS rs.votes
  mostIdx : n = 0 ∧ rs.mostCommitsHistIdx = 0 ∨ rs.mostCommitsHistIdx < n
  most : ∀ h, rs.replyCommitHistogramCount h ≤ rs.mostCommitsCount
  blank : ∀ c, rs.replyCommitTicks c = 0 →
    rs.replyCommitDigests c = 0 ∧ rs.replyCommitKnowledgeProofs c = 0

def Counted [Zero D] (rs : OracleReplyState D) : Prop := ∃ n, rs.Bins n

variable [Zero D] {rs : OracleReplyState D} {n : Nat}

lemma counted_zero (queryId : Int) : Counted { (zero : OracleReplyState D) with queryId } := by
  refine ⟨0, ?_⟩
  constructor <;> simp [zero, votes, mostCommitsCount, received, Library.Cells.count]

lemma Counted.withReply (h : rs.Counted) (replyData : List UInt8) (digest : D) (size : Nat) :
    Counted { rs with
      ownReplyData := replyData, ownReplyDigest := digest, ownReplySize := size } := by
  obtain ⟨n, h⟩ := h
  exact ⟨n, { h with }⟩

lemma Bins.tally_le_most (h : rs.Bins n) (d : D) :
    tally NUMBER_OF_COMPUTORS rs.votes d ≤ rs.mostCommitsCount := by
  obtain hzero | hpos := Nat.eq_zero_or_pos (tally NUMBER_OF_COMPUTORS rs.votes d)
  · omega
  · obtain ⟨c, hc, hvote⟩ := Library.Cells.exists_of_count_pos hpos
    obtain ⟨k, hk, rfl⟩ := h.cover c hc d hvote
    exact (h.count k hk).symm.trans_le (h.most k)

lemma Bins.most_eq_tally (h : rs.Bins n) :
    rs.mostCommitsCount = tally NUMBER_OF_COMPUTORS rs.votes rs.quorumCommitDigest := by
  obtain ⟨rfl, hidx⟩ | hlt := h.mostIdx
  · have hzero : rs.mostCommitsCount = 0 := by
      by_contra hne
      exact absurd ((h.used _).1 hne) (Nat.not_lt_zero _)
    have := h.tally_le_most rs.quorumCommitDigest
    omega
  · exact h.count _ hlt

lemma Counted.most_le_total (h : rs.Counted) : rs.mostCommitsCount ≤ rs.totalCommits := by
  obtain ⟨n, h⟩ := h
  rw [h.most_eq_tally, h.total]
  exact tally_le_received ..

lemma Counted.total_le (h : rs.Counted) : rs.totalCommits ≤ NUMBER_OF_COMPUTORS := by
  obtain ⟨n, h⟩ := h
  exact h.total.trans_le (received_le ..)

lemma Counted.quorum_iff (h : rs.Counted) (q : Nat) :
    q ≤ rs.mostCommitsCount ↔ ∃ d, q ≤ tally NUMBER_OF_COMPUTORS rs.votes d := by
  obtain ⟨n, h⟩ := h
  constructor
  · intro hq
    exact ⟨rs.quorumCommitDigest, hq.trans_eq h.most_eq_tally⟩
  · rintro ⟨d, hd⟩
    exact hd.trans (h.tally_le_most d)

/-- No digest can reach a quorum with the computors that have not committed. -/
lemma Counted.hopeless_iff (h : rs.Counted) {q : Nat} (hq : q ≤ NUMBER_OF_COMPUTORS) :
    rs.totalCommits - rs.mostCommitsCount > NUMBER_OF_COMPUTORS - q ↔
      Hopeless NUMBER_OF_COMPUTORS q rs.votes := by
  have hle := h.most_le_total
  have htotal := h.total_le
  obtain ⟨n, h⟩ := h
  rw [Hopeless, ← h.total]
  constructor
  · intro hgap d
    have := h.tally_le_most d
    omega
  · intro hall
    have := hall rs.quorumCommitDigest
    rw [← h.most_eq_tally] at this
    omega

lemma Bins.lt_of_blank (h : rs.Bins n) {c : Nat} (hc : c < NUMBER_OF_COMPUTORS)
    (hblank : rs.replyCommitTicks c = 0) : n < NUMBER_OF_COMPUTORS := by
  have hsub : (Finset.range n).image rs.replyCommitHistogramIdx ⊆
      (Finset.range NUMBER_OF_COMPUTORS).erase c := by
    intro x hx
    obtain ⟨k, hk, rfl⟩ := mem_image.1 hx
    have hk := mem_range.1 hk
    refine mem_erase.2 ⟨fun he => h.voter k hk (he ▸ hblank), ?_⟩
    exact mem_range.2 (h.voter_lt k hk)
  have hcard := card_le_card hsub
  rw [card_image_of_injOn, card_range, card_erase_of_mem
    (mem_range.2 hc), card_range] at hcard
  · omega
  · intro j hj k hk he
    exact h.distinct j (by simpa using hj) k (by simpa using hk) 
      (congrArg rs.replyCommitDigests he)

omit [Zero D] in
/-- The search for a digest ends at its bin, or at the first free bin if it has none. -/
lemma findHistIdx_spec (hused : ∀ h, rs.replyCommitHistogramCount h ≠ 0 ↔ h < n)
    (hdistinct : ∀ h < n, ∀ k < n, rs.binDigest h = rs.binDigest k → h = k)
    (hn : n < NUMBER_OF_COMPUTORS) (d : D) :
    ∃ k ≤ n, rs.findHistIdx d = some k ∧ (k < n → rs.binDigest k = d) ∧
      ∀ j < n, j ≠ k → rs.binDigest j ≠ d := by
  have hfree : rs.replyCommitHistogramCount n = 0 := by
    by_contra hne
    exact lt_irrefl n ((hused n).1 hne)
  obtain ⟨k, hk⟩ := Option.isSome_iff_exists.1 (List.find?_isSome.2 ⟨n, List.mem_range.2 hn, by
    simpa using Or.inl hfree⟩ : (rs.findHistIdx d).isSome)
  obtain ⟨hstop, -, hbefore⟩ := List.find?_range_eq_some.1 hk
  simp only [decide_eq_true_eq, Bool.not_eq_true', decide_eq_false_iff_not, not_or] at hstop hbefore
  have hle : k ≤ n := by
    by_contra hlt
    exact (hbefore n (by omega)).1 hfree
  have hbin : k < n → rs.binDigest k = d := fun hlt =>
    (hstop.resolve_left ((hused k).2 hlt)).symm
  refine ⟨k, hle, hk, hbin, fun j hj hne he => ?_⟩
  obtain hlt | hlt := Nat.lt_or_gt_of_ne hne
  · exact (hbefore j hlt).2 he.symm
  · exact hne (hdistinct j hj k (by omega) (he.trans (hbin (by omega)).symm))

structure Saved (rs rs' : OracleReplyState D) (c tick : Nat) (item : CommitItem D) : Prop where
  queryId : rs'.queryId = rs.queryId
  ownReplySize : rs'.ownReplySize = rs.ownReplySize
  digests : rs'.replyCommitDigests = update rs.replyCommitDigests c item.replyDigest
  proofs : rs'.replyCommitKnowledgeProofs =
    update rs.replyCommitKnowledgeProofs c item.replyKnowledgeProof
  ticks : rs'.replyCommitTicks = update rs.replyCommitTicks c tick

section

variable {rs' : OracleReplyState D} {c tick : Nat} {item : CommitItem D}

omit [DecidableEq D] [Zero D] in
lemma Saved.votes (h : Saved rs rs' c tick item) (htick : tick ≠ 0) :
    rs'.votes = update rs.votes c (some item.replyDigest) := by
  funext x
  obtain rfl | hx := Decidable.eq_or_ne x c
  · simp [OracleReplyState.votes, h.ticks, h.digests, htick]
  · simp [OracleReplyState.votes, h.ticks, h.digests, hx]

/-- The commit of a computor that had not committed is counted in bin `k`. -/
lemma Bins.save (h : rs.Bins n) (hsaved : Saved rs rs' c tick item)
    (hc : c < NUMBER_OF_COMPUTORS) (hblank : rs.replyCommitTicks c = 0) (htick : tick ≠ 0) {k : Nat}
    (hk : k ≤ n) (hbin : k < n → rs.binDigest k = item.replyDigest)
    (hother : ∀ j < n, j ≠ k → rs.binDigest j ≠ item.replyDigest)
    (hidx : rs'.replyCommitHistogramIdx =
      if rs.replyCommitHistogramCount k = 0 then update rs.replyCommitHistogramIdx k c
      else rs.replyCommitHistogramIdx)
    (hcount : rs'.replyCommitHistogramCount =
      update rs.replyCommitHistogramCount k (rs.replyCommitHistogramCount k + 1))
    (htotal : rs'.totalCommits = rs.totalCommits + 1)
    (hmost : rs'.mostCommitsHistIdx =
      if rs'.replyCommitHistogramCount k > rs'.replyCommitHistogramCount rs.mostCommitsHistIdx
      then k else rs.mostCommitsHistIdx) : rs'.Bins (max n (k + 1)) := by
  have hne : ∀ j < n, rs.replyCommitHistogramIdx j ≠ c := fun j hj he =>
    h.voter j hj (he ▸ hblank)
  have hkeep : ∀ j < n, rs'.replyCommitHistogramIdx j = rs.replyCommitHistogramIdx j := by
    intro j hj
    rw [hidx]
    split_ifs with hzero
    · refine update_of_ne (fun he => ?_) ..
      exact (h.used j).2 hj (he ▸ hzero)
    · rfl
  have hnew : k = n → rs'.replyCommitHistogramIdx k = c := by
    rintro rfl
    rw [hidx, if_pos, update_self]
    by_contra hne
    exact lt_irrefl k ((h.used k).1 hne)
  have hdigest : ∀ j < n, rs'.binDigest j = rs.binDigest j := by
    intro j hj
    rw [binDigest, hkeep j hj, hsaved.digests, update_of_ne (hne j hj)]
    rfl
  have hdigestNew : k = n → rs'.binDigest k = item.replyDigest := by
    intro he
    rw [binDigest, hnew he, hsaved.digests, update_self]
  have hcases : ∀ j < max n (k + 1), j < n ∨ j = n ∧ k = n := fun j hj => by omega
  have hnone : rs.votes c = none := by simp [OracleReplyState.votes, hblank]
  have hvotes := hsaved.votes htick
  have htally := tally_update hc hnone item.replyDigest
  constructor
  · intro j
    have := h.used j
    rw [hcount, update_apply]
    split_ifs with he
    · omega
    · omega
  · intro j hj
    obtain hlt | ⟨rfl, rfl⟩ := hcases j hj
    · rw [hkeep j hlt]
      exact h.voter_lt j hlt
    · rwa [hnew rfl]
  · intro j hj
    rw [hsaved.ticks]
    obtain hlt | ⟨rfl, rfl⟩ := hcases j hj
    · rw [hkeep j hlt, update_of_ne (hne j hlt)]
      exact h.voter j hlt
    · rwa [hnew rfl, update_self]
  · intro i hi j hj he
    obtain hi | ⟨rfl, rfl⟩ := hcases i hi <;> obtain hj | ⟨rfl, hkj⟩ := hcases j hj
    · rw [hdigest i hi, hdigest j hj] at he
      exact h.distinct i hi j hj he
    · subst hkj
      rw [hdigest i hi, hdigestNew rfl] at he
      exact absurd he (hother i hi (by omega))
    · rw [hdigest j hj, hdigestNew rfl] at he
      exact absurd he.symm (hother j hj (by omega))
    · rfl
  · intro j hj
    rw [hcount, hvotes, htally, update_apply]
    obtain hlt | ⟨rfl, rfl⟩ := hcases j hj
    · rw [hdigest j hlt, ← h.count j hlt]
      split_ifs with hjk hd hd
      · rw [hjk]
      · exact absurd (hbin (hjk ▸ hlt)).symm (hjk ▸ hd)
      · exact absurd hd.symm (hother j hlt hjk)
      · rfl
    · rw [hdigestNew rfl, if_pos rfl, if_pos rfl]
      have hfree : rs.replyCommitHistogramCount k = 0 := by
        by_contra hne
        exact lt_irrefl k ((h.used k).1 hne)
      have hzero : tally NUMBER_OF_COMPUTORS rs.votes item.replyDigest = 0 := by
        by_contra hpos
        obtain ⟨x, hx, hvote⟩ := Library.Cells.exists_of_count_pos (Nat.pos_of_ne_zero hpos)
        obtain ⟨i, hi, hd⟩ := h.cover x hx _ hvote
        exact hother i hi (by omega) hd
      rw [hfree, hzero]
  · intro x hx d hd
    rw [hvotes, update_apply] at hd
    split_ifs at hd with hxc
    · obtain rfl := Option.some.inj hd
      obtain hlt | rfl := Nat.lt_or_eq_of_le hk
      · exact ⟨k, by omega, (hdigest k hlt).trans (hbin hlt)⟩
      · exact ⟨k, by omega, hdigestNew rfl⟩
    · obtain ⟨j, hj, rfl⟩ := h.cover x hx d hd
      exact ⟨j, by omega, hdigest j hj⟩
  · rw [htotal, h.total, hvotes, received_update hc hnone]
  · have := h.mostIdx
    rw [hmost]
    split_ifs <;> omega
  · intro j
    have hj := h.most j
    unfold mostCommitsCount at *
    rw [hmost, hcount] at *
    simp only [update_apply] at *
    split_ifs at * <;> simp_all <;> omega
  · intro x hx
    rw [hsaved.ticks, update_apply] at hx
    split_ifs at hx with hxc
    · exact absurd hx htick
    · rw [hsaved.digests, hsaved.proofs, update_of_ne hxc, update_of_ne hxc]
      exact h.blank x hx

end

lemma Counted.saveCommit (h : rs.Counted) {c tick : Nat} (hc : c < NUMBER_OF_COMPUTORS)
    (hblank : rs.replyCommitTicks c = 0) (htick : tick ≠ 0) (item : CommitItem D) :
    ∃ rs', rs.saveCommit c tick item = some rs' ∧ rs'.Counted ∧ Saved rs rs' c tick item := by
  obtain ⟨n, h⟩ := h
  have hkeep : ∀ j < n, (rs.storeCommit c tick item).binDigest j = rs.binDigest j := by
    intro j hj
    have hne : rs.replyCommitHistogramIdx j ≠ c := fun he => h.voter j hj (by rw [he, hblank])
    exact update_of_ne hne ..
  obtain ⟨k, hk, hfind, hbin, hother⟩ := findHistIdx_spec
    (show ∀ j, (rs.storeCommit c tick item).replyCommitHistogramCount j ≠ 0 ↔ j < n from h.used)
    (fun i hi j hj he => h.distinct i hi j hj (by rwa [hkeep i hi, hkeep j hj] at he))
    (h.lt_of_blank hc hblank) item.replyDigest
  have hsaved : Saved rs ((rs.storeCommit c tick item).countCommit c k) c tick item :=
    ⟨rfl, rfl, rfl, rfl, rfl⟩
  refine ⟨_, ?_, ⟨max n (k + 1), ?_⟩, hsaved⟩
  · rw [OracleReplyState.saveCommit, hfind, Option.map_some]
  · exact h.save hsaved hc hblank htick hk (fun hlt => (hkeep k hlt).symm.trans (hbin hlt))
      (fun j hj hne he => hother j hj hne ((hkeep j hj).trans he)) rfl rfl rfl rfl

end OracleReplyState

end QubicCore.Oracle
