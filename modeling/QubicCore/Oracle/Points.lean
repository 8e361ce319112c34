import QubicCore.Oracle.Quorum

/-!
# Revenue points of a reveal

When a reply is revealed, the computors whose commit was right get a point each, if the commit was
included not later than the 451st of the right ones.
-/

namespace QubicCore.Oracle

open Library Sorting Function List

variable {l : List RevealCommitCheckComputorState}

/-- A commit that gets a point when `i` commits, the last one of tick `prevTick`, have got theirs
and `l` are the next ones. -/
def Early (l : List RevealCommitCheckComputorState) (i prevTick : Nat)
    (c : RevealCommitCheckComputorState) : Prop :=
  if QUORUM ≤ i then c.commitTick ≤ prevTick
  else ∀ x ∈ l[QUORUM - i - 1]?, c.commitTick ≤ x.commitTick

open scoped Classical in
lemma countRevenuePoints_eq (hl : l.Pairwise (·.commitTick ≤ ·.commitTick)) {i prevTick : Nat}
    (hprev : QUORUM ≤ i → ∀ c ∈ l, prevTick ≤ c.commitTick) (points : Nat → Nat) (j : Nat) :
    countRevenuePoints i prevTick l points j =
      points j + l.countP fun c => c.computorIndex = j ∧ Early l i prevTick c := by
  induction l generalizing i prevTick points with
  | nil => rfl
  | cons c rest ih =>
    obtain ⟨hc, hrest⟩ := pairwise_cons.mp hl
    replace hprev := fun hi => hprev hi c mem_cons_self
    have hle : ∀ x ∈ c :: rest, c.commitTick ≤ x.commitTick := fun x hx =>
      (mem_cons.mp hx).elim (fun h => h ▸ le_rfl) (hc x)
    unfold countRevenuePoints
    split_ifs with hstop
    · -- the commits from here on are later than the last one with a point
      refine (Nat.add_eq_left.mpr (countP_eq_zero.mpr fun x hx => ?_)).symm
      have := hle x hx
      have := hprev hstop.1
      simp only [Early, if_pos hstop.1, decide_eq_true_eq]
      omega
    · have hsame : ∀ x, Early rest (i + 1) c.commitTick x ↔ Early (c :: rest) i prevTick x := by
        intro x
        unfold Early
        obtain hi | hi | hi : QUORUM ≤ i ∨ i + 1 = QUORUM ∨ i + 1 < QUORUM := by omega
        · have := hprev hi
          rw [if_pos (by omega), if_pos hi]
          omega
        · simp [← hi]
        · rw [if_neg (by omega), if_neg (by omega),
            show QUORUM - i - 1 = QUORUM - (i + 1) - 1 + 1 by omega, getElem?_cons_succ]
      have hfirst : Early (c :: rest) i prevTick c := by
        unfold Early
        split_ifs with hi
        · have := hprev hi
          omega
        · exact fun x hx => hle x (mem_of_getElem? hx)
      rw [ih hrest fun _ => hc, countP_cons]
      obtain rfl | hne := eq_or_ne c.computorIndex j
      · simp only [hsame, hfirst, update_self, true_and, decide_true, if_true]
        omega
      · simp [hsame, hne, update_of_ne hne.symm]

/-- The commits are counted in the order of their ticks. -/
lemma addRevenuePoints_sorted (commits : List RevealCommitCheckComputorState) :
    ∃ l prevTick, l.Perm commits ∧ l.Pairwise (·.commitTick ≤ ·.commitTick) ∧
      addRevenuePoints commits = countRevenuePoints 0 prevTick l := by
  obtain ⟨hperm, hordered⟩ := quickSort_spec (·.commitTick) (fun i => commits.getD i ⟨0, 0⟩)
    (le_refl (commits.length - 0))
  refine ⟨_, _, hperm.map_range_perm.trans (.of_eq ?_), pairwise_map.mp ?_, rfl⟩
  · exact ext_getElem (by simp) fun i _ hi => by simp [hi]
  rw [map_map]
  exact Ordered.pairwise_map hordered

/-! ## The points of a reveal -/

variable {D : Type} [DecidableEq D] {env : Env D} {rs : OracleReplyState D} {replyData : List UInt8}

/-- The computor committed to the reply and to the proof that it knows it, in a tick not later than
that of the 451st of those who did. -/
def Rewarded (env : Env D) (rs : OracleReplyState D) (replyData : List UInt8) (j : Nat) : Prop :=
  j ∈ correctCommitters env rs replyData ∧
    ∀ tick ∈ orderStatistic ((correctCommitters env rs replyData).map rs.replyCommitTicks)
      (QUORUM - 1), rs.replyCommitTicks j ≤ tick

open scoped Classical in
lemma addRevenuePoints_eq (points : Nat → Nat) {j : Nat}
    {commits : List RevealCommitCheckComputorState} (hcommits : commits =
      (correctCommitters env rs replyData).map fun c => ⟨rs.replyCommitTicks c, c⟩) :
    addRevenuePoints commits points j =
      points j + if Rewarded env rs replyData j then 1 else 0 := by
  have hnodup : (commits.map (·.computorIndex)).Nodup := by
    rw [hcommits, map_map]
    exact (nodup_range.filter _).map fun _ _ => id
  have hrewarded : Rewarded env rs replyData j ↔ ∃ c ∈ commits, c.computorIndex = j ∧
      ∀ tick ∈ orderStatistic (commits.map (·.commitTick)) (QUORUM - 1), c.commitTick ≤ tick := by
    rw [hcommits, map_map, Rewarded]
    simp [comp_def]
  rw [hrewarded]
  obtain ⟨l, prevTick, hperm, hsorted, heq⟩ := addRevenuePoints_sorted commits
  rw [heq, countRevenuePoints_eq hsorted (fun h => absurd h (by decide)),
    orderStatistic_of_perm (hperm.map _) (pairwise_map.mpr hsorted), Nat.add_left_cancel_iff]
  have hearly : ∀ c, (∀ tick ∈ (l.map (·.commitTick))[QUORUM - 1]?, c.commitTick ≤ tick) ↔
      Early l 0 prevTick c := fun c => by
    rw [Early, if_neg (by decide)]
    simp
  simp only [hearly, ← hperm.mem_iff]
  have hle : l.countP (fun c => c.computorIndex = j ∧ Early l 0 prevTick c) ≤ 1 := by
    refine le_trans ?_ (nodup_iff_count_le_one.mp ((hperm.map _).nodup_iff.mpr hnodup) j)
    rw [count_eq_countP, countP_map]
    exact countP_mono_left fun c _ hc => by simpa using (of_decide_eq_true hc).1
  split_ifs with h
  · have : 0 < l.countP (fun c => c.computorIndex = j ∧ Early l 0 prevTick c) :=
      countP_pos_iff.mpr (by simpa using h)
    omega
  · exact countP_eq_zero.mpr fun c hc => by simpa using fun hj he => h ⟨c, hc, hj, he⟩

variable {s s' : OracleEngine D}

open OracleEngine

lemma checkReplyRevealTransaction_points (env : Env D) (s : OracleEngine D)
    (tx : RevealTransaction) :
    (s.checkReplyRevealTransaction env tx).2.revenuePoints = s.revenuePoints := by
  unfold OracleEngine.checkReplyRevealTransaction
  split_ifs
  · rfl
  · cases s.findQuery env tx.queryId with
    | none => rfl
    | some q =>
      dsimp only
      split_ifs <;> rfl

omit [DecidableEq D] in
lemma setLastRevealed_points (oqm : OracleQueryMetadata) :
    (s.setLastRevealed oqm).revenuePoints = s.revenuePoints := by
  unfold setLastRevealed
  split <;> rfl

variable [Zero D]

-- kept from unfolding to a computation over all computors
attribute [local irreducible] correctCommits

omit [DecidableEq D] in
lemma finishQuery_points {i : Nat} {oqm : OracleQueryMetadata} {r : Bool}
    (h : (s.finishQuery i oqm false true).bind (fun t => some (true, t)) = some (r, s')) :
    s'.revenuePoints = s.revenuePoints ∧ s'.queries i = oqm := by
  simp only [OracleEngine.finishQuery, Option.bind_eq_bind, Option.bind_eq_some_iff] at h
  obtain ⟨t, ⟨_, _, _, _, _, _, ht⟩, h⟩ := h
  obtain rfl := Option.some.inj ht
  obtain ⟨-, rfl⟩ := Prod.mk.inj (Option.some.inj h)
  unfold scheduleNotification
  split <;> simp

open scoped Classical in
/-- Processing a reveal gives one point to each computor of `Rewarded` and none to any other, and
the query is not revealed again. -/
theorem revealed_points (hK : Injective env.K12) {n : Node D} (h : Reachable env n)
    (tx : RevealTransaction) (slot : Nat) :
    ∃ r s', n.engine.processOracleReplyRevealTransaction env tx slot = some (r, s') ∧
      (∀ q ∈ (n.engine.checkReplyRevealTransaction env tx).1, (s'.queries q).status ≠ .committed) ∧
      ∀ j, s'.revenuePoints j = n.engine.revenuePoints j +
        if ∃ q ∈ (n.engine.checkReplyRevealTransaction env tx).1,
          Rewarded env (n.engine.reply q) tx.replyData j then 1 else 0 := by
  obtain ⟨r, s', hs', -⟩ := h.valid.sound.processOracleReplyRevealTransaction tx slot
  obtain ⟨o, s₁, hcheck, -, -, -, hreveals⟩ := h.valid.sound.checkReplyRevealTransaction tx
  have hpoints := checkReplyRevealTransaction_points env n.engine tx
  refine ⟨r, s', hs', ?_⟩
  unfold OracleEngine.processOracleReplyRevealTransaction at hs'
  rw [hcheck] at hs' hpoints ⊢
  cases o with
  | none =>
    obtain ⟨-, rfl⟩ := Prod.mk.inj (Option.some.inj hs')
    simp [← hpoints]
  | some q =>
    obtain ⟨rfl, hq⟩ := hreveals q rfl
    have hcommits := correctCommits_eq hK (h.valid.sound.agrees q hq.isOpen).counted hq.digest
    simp only [Option.mem_some_iff, forall_eq', exists_eq_left']
    simp only [← addRevenuePoints_eq _ hcommits]
    dsimp only at hs'
    split_ifs at hs'
    · obtain ⟨hp, hq⟩ := finishQuery_points hs'
      rw [hq, hp]
      exact ⟨by simp, fun _ => rfl⟩
    · obtain ⟨hp, hq⟩ := finishQuery_points hs'
      rw [hq, hp, setLastRevealed_points]
      exact ⟨by simp, fun _ => rfl⟩

omit [Zero D] in
/-- The first of the right commits is rewarded. -/
lemma exists_rewarded (hne : correctCommitters env rs replyData ≠ []) :
    ∃ j, Rewarded env rs replyData j := by
  obtain ⟨j, hj, hmin⟩ := (correctCommitters env rs replyData).toFinset.exists_min_image
    rs.replyCommitTicks (toFinset_nonempty_iff _ |>.mpr hne)
  refine ⟨j, mem_toFinset.mp hj, fun tick htick => ?_⟩
  obtain ⟨c, hc, rfl⟩ := mem_map.mp (mem_mergeSort.mp (mem_of_getElem? htick))
  exact hmin c (mem_toFinset.mpr hc)

/-- The reveal of a query to which 451 computors have committed. -/
theorem revealed_points_sample : ∃ n tx r s' j, Reachable sampleEnv n ∧
    n.engine.processOracleReplyRevealTransaction sampleEnv tx 0 = some (r, s') ∧
    s'.revenuePoints j = n.engine.revenuePoints j + 1 := by
  have hk : QUORUM ≤ NUMBER_OF_COMPUTORS := by decide
  obtain ⟨n, n', hn, hinterface, h⟩ := exists_sample hk
  have hkeys := sampleEnv_computorIndex
  have hstart : Run sampleEnv (.start 1) ([] ++ [sampleQuery]) n := .snoc .nil trivial hn
  have hreach : Reachable sampleEnv n' := ⟨1, _, by decide, by decide, hstart.append h.run⟩
  have hsound := hreach.valid.sound
  obtain ⟨tx, htx⟩ : ∃ tx : RevealTransaction, tx = ⟨sampleEnv.computorPublicKeys 0, 1,
    (n.engine.queries 0).queryId, .replicate 16 0⟩ := ⟨_, rfl⟩
  have hcheck : (n'.engine.checkReplyRevealTransaction sampleEnv tx).1 = some 0 := by
    have hfind : n'.engine.findQuery sampleEnv tx.queryId = some 0 := by
      rw [findQuery, hsound.lookup_iff.mpr ⟨h.isOpen.1, htx ▸ h.frame.queryId 0⟩]
      simp [h.isOpen.1]
    have hid := (hsound.agrees 0 h.isOpen).queryId.trans (h.frame.queryId 0)
    have hdigest := h.quorumCommitDigest_eq hkeys le_rfl
    have hstatus := h.status_eq hkeys
    unfold OracleEngine.checkReplyRevealTransaction
    rw [if_neg (by simp [htx, hkeys 0 (by decide)]), hfind]
    dsimp only
    rw [if_neg (by simp [hstatus]), if_neg (by simp [htx, h.frame.interfaceIndex, hinterface,
      oracleInterface, oracleInterfaces]), if_neg (not_not.mpr (by rw [htx]; exact hid)),
      if_neg (not_not.mpr (by rw [htx]; exact hdigest.symm))]
  have hcommit := (h.commit_eq hkeys 0).trans (if_pos (by decide))
  have hmem : 0 ∈ correctCommitters sampleEnv (n'.engine.reply 0) tx.replyData := by
    rw [htx]
    exact mem_filter.mpr ⟨mem_range.mpr (by decide), decide_eq_true hcommit⟩
  obtain ⟨j, hj⟩ := exists_rewarded (ne_nil_of_mem hmem)
  obtain ⟨r, s', hs', -, hpoints⟩ := revealed_points sampleEnv_injective hreach tx 0
  refine ⟨n', tx, r, s', j, hreach, hs', (hpoints j).trans ?_⟩
  rw [if_pos ⟨0, hcheck, hj⟩]

end QubicCore.Oracle
