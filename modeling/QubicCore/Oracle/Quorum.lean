import QubicCore.Oracle.Run

/-!
# Decision of a query by the commits

The commits that count for a query are the first ones of each computor since its start. In every
state of a run the reply slot of an open query holds exactly these (`Tracks`), and every change of
the status follows from them.
-/

namespace QubicCore.Oracle

open Library.Tally Library.Cells OracleEngine

variable {D : Type} [DecidableEq D] [Zero D] {env : Env D} {n n' : Node D} {e : Event D}
  {es : List (Event D)} {i : Nat}

def counted (env : Env D) (es : List (Event D)) (queryId : Int) : Nat → Option (D × D) :=
  firstCommit (es.flatMap (Event.commits env)) queryId

omit [DecidableEq D] [Zero D] in
lemma counted_append (env : Env D) (es : List (Event D)) (e : Event D) (queryId : Int) (c : Nat) :
    counted env (es ++ [e]) queryId c =
      (counted env es queryId c).or (firstCommit (e.commits env) queryId c) := by
  rw [counted, List.flatMap_append, firstCommit_append, List.flatMap_singleton, counted]

/-- The reply slot of query `i` holds the commits of the events `es`. -/
structure Tracks (env : Env D) (n : Node D) (i : Nat) (es : List (Event D)) : Prop where
  lt : i < n.engine.oracleQueryCount
  commits : n.engine.Open i →
    (n.engine.reply i).commit = counted env es (n.engine.queries i).queryId

omit [DecidableEq D] [Zero D] in
lemma Tracks.joined (h : Tracks env n i es) (hi : n.engine.Open i) (e : Event D) :
    Oracle.joined (n.engine.reply i) (e.commits env) (n.engine.queries i).queryId =
      counted env (es ++ [e]) (n.engine.queries i).queryId := by
  funext c
  rw [Oracle.joined, h.commits hi, counted_append]

lemma Tracks.step (h : Tracks env n i es) (hs : Stepped env n n' e) :
    Tracks env n' i (es ++ [e]) := by
  refine ⟨h.lt.trans_le hs.count_le, fun hi' => ?_⟩
  rw [hs.queryId i h.lt]
  have hno : ∀ {status}, (n'.engine.queries i).status = status → status ≠ .pending →
      status ≠ .committed → False := fun he hp hc => by
    obtain hi' | hi' := hi'.2
    · exact hp (he.symm.trans hi')
    · exact hc (he.symm.trans hi')
  cases hs.fate i h.lt with
  | voted hvoted =>
    cases hvoted with
    | closed hno hstatus =>
      refine absurd ⟨h.lt, ?_⟩ hno
      rw [← hstatus]
      exact hi'.2
    | counted hi _ _ hcommits =>
      rw [← h.joined hi e]
      exact funext hcommits
    | hopeless _ _ hstatus => exact (hno hstatus (by simp) (by simp)).elim
  | expired now _ _ hstatus => exact (hno hstatus (by simp) (by simp)).elim
  | revealed tx slot _ hrevealed => refine (hno hrevealed.outcome ?_ ?_).elim <;> split_ifs <;> simp

lemma Tracks.run (h : Tracks env n i []) (hvalid : n.Valid env) (hrun : Run env n es n') :
    Tracks env n' i es := by
  induction hrun with
  | nil => exact h
  | snoc hrun hadm hstep ih => exact ih.step ((hvalid.run hrun).step hadm hstep)

lemma Tracks.start (hs : Stepped env n n' e) (hi : n.engine.oracleQueryCount ≤ i)
    (hi' : i < n'.engine.oracleQueryCount) : Tracks env n' i [] :=
  ⟨hi', fun _ => funext fun c => hs.blank i hi hi' c⟩

/-! ## Reveals -/

lemma count_correct (hK : Function.Injective env.K12) {rs : OracleReplyState D}
    (hcounted : rs.Counted) {data : List UInt8} (hdigest : env.K12 data = rs.quorumCommitDigest) :
    (correctCommits env rs data).length = count NUMBER_OF_COMPUTORS fun c =>
      rs.commit c = some (env.K12 data, env.K12 (data ++ computorIndexBytes c)) := by
  rw [correctCommits_eq hK hcounted hdigest, List.length_map]
  rfl

/-! ## The decision -/

/-- How the status of query `i` follows from the commits `es` that came before an event and from
the event. -/
structure Decided (env : Env D) (s s' : OracleEngine D) (i : Nat) (es : List (Event D))
    (e : Event D) : Prop where
  committed : (s.queries i).status = .pending → ((s'.queries i).status = .committed ↔
    ∃ d, QUORUM ≤ tally NUMBER_OF_COMPUTORS
      (digests (counted env (es ++ [e]) (s.queries i).queryId)) d)
  unresolvable : (s.queries i).status = .pending → ((s'.queries i).status = .unresolvable ↔
    ∀ w, View NUMBER_OF_COMPUTORS (digests (counted env (es ++ [e]) (s.queries i).queryId)) w →
      ∀ d, tally NUMBER_OF_COMPUTORS w d < QUORUM)
  success : (s.queries i).status ≠ .success → (s'.queries i).status = .success →
    ∃ tx slot, e = .reveal tx slot ∧ (s.queries i).status = .committed ∧
      tx.queryId = (s.queries i).queryId ∧
      QUORUM ≤ tally NUMBER_OF_COMPUTORS (digests (counted env es (s.queries i).queryId))
        (env.K12 tx.replyData) ∧
      QUORUM ≤ count NUMBER_OF_COMPUTORS fun c => counted env es (s.queries i).queryId c =
        some (env.K12 tx.replyData, env.K12 (tx.replyData ++ computorIndexBytes c))
  once : s.Open i → (s.reply i).totalCommits =
    received NUMBER_OF_COMPUTORS (digests (counted env es (s.queries i).queryId))
  finished : ¬s.Open i → (s'.queries i).status = (s.queries i).status

lemma Tracks.committed_iff (h : Tracks env n i es) (hvalid : n.Valid env)
    (hi : n.engine.Open i) : (n.engine.queries i).status = .committed ↔
      ∃ d, QUORUM ≤ tally NUMBER_OF_COMPUTORS
        (digests (counted env es (n.engine.queries i).queryId)) d := by
  have hagrees := hvalid.sound.agrees i hi
  rw [← h.commits hi, ← OracleReplyState.votes_eq, ← hagrees.counted.quorum_iff]
  constructor
  · exact hagrees.quorum
  · intro hq
    refine hi.2.resolve_left fun hp => ?_
    have := (hagrees.undecided hp).1
    omega

/-- For an open query some digest can still reach a quorum. -/
lemma Tracks.not_hopeless (h : Tracks env n i es) (hvalid : n.Valid env)
    (hi : n.engine.Open i) : ¬Hopeless NUMBER_OF_COMPUTORS QUORUM
      (digests (counted env es (n.engine.queries i).queryId)) := by
  have hagrees := hvalid.sound.agrees i hi
  rw [← h.commits hi, ← OracleReplyState.votes_eq,
    ← hagrees.counted.hopeless_iff (by decide)]
  obtain hp | hc := hi.2
  · exact not_lt.2 (hagrees.undecided hp).2
  · have hmost := hagrees.quorum hc
    have htotal := hagrees.counted.total_le
    omega

/-- From the start of a query on, its status follows the first commits of the computors. -/
theorem status_follows_commits {n₀ n₁ n₂ n₃ : Node D} {e₀ : Event D}
    (hK : Function.Injective env.K12) (hreach : Reachable env n₀) (hadm₀ : Admissible n₀ e₀)
    (hstep₀ : step env n₀ e₀ = some n₁) (hi : n₀.engine.oracleQueryCount ≤ i)
    (hi' : i < n₁.engine.oracleQueryCount) (hrun : Run env n₁ es n₂) (hadm : Admissible n₂ e)
    (hstep : step env n₂ e = some n₃) : Decided env n₂.engine n₃.engine i es e := by
  have hstepped₀ := hreach.valid.step hadm₀ hstep₀
  have hvalid := hstepped₀.valid.run hrun
  have htracks := (Tracks.start hstepped₀ hi hi').run hstepped₀.valid hrun
  have hstepped := hvalid.step hadm hstep
  have htracks' := htracks.step hstepped
  have hid := hstepped.queryId i htracks.lt
  have hopen : (n₂.engine.queries i).status = .pending → n₂.engine.Open i := fun hp =>
    ⟨htracks.lt, .inl hp⟩
  have honce : n₂.engine.Open i → (n₂.engine.reply i).totalCommits = received NUMBER_OF_COMPUTORS
      (digests (counted env es (n₂.engine.queries i).queryId)) := by
    intro hi
    obtain ⟨m, hbins⟩ := (hvalid.sound.agrees i hi).counted
    rw [← htracks.commits hi, ← OracleReplyState.votes_eq, hbins.total]
  cases hstepped.fate i htracks.lt with
  | voted hvoted =>
    cases hvoted with
    | closed hno hstatus =>
      exact ⟨fun hp => absurd (hopen hp) hno, fun hp => absurd (hopen hp) hno,
        fun hne hs => absurd (hstatus.symm.trans hs) hne, honce, fun _ => hstatus⟩
    | counted hi₂ hi₃ _ _ =>
      have hcommitted := htracks'.committed_iff hstepped.valid hi₃
      have hhope := htracks'.not_hopeless hstepped.valid hi₃
      rw [hid] at hcommitted hhope
      refine ⟨fun _ => hcommitted, fun _ => iff_of_false (fun hs => ?_)
        (fun hall => hhope (hopeless_iff.2 hall)), fun _ hs => ?_, honce, fun hno => absurd hi₂ hno⟩
      all_goals
        have := hi₃.2
        rw [hs] at this
        simp at this
    | hopeless hi₂ hp hstatus hhopeless =>
      rw [htracks.joined hi₂ e] at hhopeless
      have hall := hopeless_iff.1 hhopeless
      refine ⟨fun _ => iff_of_false (by simp [hstatus]) ?_, fun _ => iff_of_true hstatus hall,
        fun _ hs => by simp [hstatus] at hs, honce, fun hno => absurd hi₂ hno⟩
      rintro ⟨d, hd⟩
      exact absurd (hall _ (fun _ _ _ h => h) d) (not_lt.2 hd)
  | expired now he hi₂ hstatus =>
    subst he
    have hsame : counted env (es ++ [.timeouts now]) (n₂.engine.queries i).queryId =
        counted env es (n₂.engine.queries i).queryId := by
      funext c
      rw [counted_append, firstCommit]
      simp [Event.commits]
    refine ⟨fun hp => ?_, fun hp => ?_, fun _ hs => by simp [hstatus] at hs, honce,
      fun hno => absurd hi₂ hno⟩
    · rw [hsame, ← htracks.committed_iff hvalid hi₂, hstatus, hp]
      simp
    · rw [hsame, ← hopeless_iff]
      exact iff_of_false (by simp [hstatus]) (htracks.not_hopeless hvalid hi₂)
  | revealed tx slot he hrevealed =>
    obtain ⟨⟨hi₂, hcommitted, hquery, hdigest⟩, houtcome⟩ := hrevealed
    refine ⟨fun hp => by simp [hcommitted] at hp, fun hp => by simp [hcommitted] at hp,
      fun _ hs => ?_, honce, fun hno => absurd hi₂ hno⟩
    have hagrees := hvalid.sound.agrees i hi₂
    have henough : QUORUM ≤ (correctCommits env (n₂.engine.reply i) tx.replyData).length := by
      by_contra hfew
      rw [if_neg hfew, hs] at houtcome
      cases houtcome
    refine ⟨tx, slot, he, hcommitted, hquery.symm, ?_, ?_⟩
    · obtain ⟨m, hbins⟩ := hagrees.counted
      rw [← htracks.commits hi₂, ← OracleReplyState.votes_eq, hdigest, ← hbins.most_eq_tally]
      exact hagrees.quorum hcommitted
    · rw [← htracks.commits hi₂]
      exact henough.trans_eq (count_correct hK hagrees.counted hdigest)

/-! ## A quorum of commits -/

section

variable (hkeys : ∀ c < NUMBER_OF_COMPUTORS, env.computorIndex (env.computorPublicKeys c) = some c)
  {tick k : Nat} {data : List UInt8} {id : Int}

/-- Computor `c` commits to a reply and to the proof that it knows it. -/
def commitTo (env : Env D) (tick : Nat) (id : Int) (data : List UInt8) (c : Nat) :
    CommitTransaction D :=
  ⟨env.computorPublicKeys c, tick, [⟨id, env.K12 data, env.K12 (data ++ computorIndexBytes c)⟩]⟩

def commitsTo (env : Env D) (tick : Nat) (id : Int) (data : List UInt8) (k : Nat) :
    List (Event D) :=
  (List.range k).map fun c => .commit (commitTo env tick id data c)

omit [DecidableEq D] [Zero D] in
lemma commitsTo_succ : commitsTo env tick id data (k + 1) =
    commitsTo env tick id data k ++ [.commit (commitTo env tick id data k)] := by
  rw [commitsTo, List.range_succ, List.map_append]
  rfl

include hkeys

omit [DecidableEq D] [Zero D] in
lemma counted_commitsTo (hk : k ≤ NUMBER_OF_COMPUTORS) (c : Nat) :
    counted env (commitsTo env tick id data k) id c =
      if c < k then some (env.K12 data, env.K12 (data ++ computorIndexBytes c)) else none := by
  induction k with
  | zero => simp [counted, commitsTo, firstCommit]
  | succ k ih =>
    have hcommits : commitsOf env (commitTo env tick id data k) =
        (commitTo env tick id data k).items.map (k, ·) := by
      unfold commitsOf
      split
      · next hnone => cases hnone.symm.trans (hkeys k hk)
      · next c hc =>
        obtain rfl := Option.some.inj (hc.symm.trans (hkeys k hk))
        rfl
    rw [commitsTo_succ, counted_append, ih (by omega), Event.commits, hcommits, commitTo,
      List.map_singleton, firstCommit_single]
    obtain hlt | rfl | hgt := lt_trichotomy c k
    · simp [hlt, hlt.trans (Nat.lt_succ_self k)]
    · simp
    · simp [hgt.le, show k ≠ c by omega, show ¬c < k + 1 by omega]

omit hkeys in
/-- The first `k` computors have committed to a reply of query `i`. -/
structure CommittedBy (env : Env D) (n : Node D) (i : Nat) (data : List UInt8) (k : Nat)
    (n' : Node D) : Prop where
  valid : n.Valid env
  tracks : Tracks env n i []
  le : k ≤ NUMBER_OF_COMPUTORS
  run : Run env n (commitsTo env n.tick (n.engine.queries i).queryId data k) n'
  tick : n'.tick = n.tick
  frame : Frame n.engine n'.engine
  isOpen : n'.engine.Open i

/-- As all of them agree, the query does not become hopeless. -/
lemma CommittedBy.succ (h : CommittedBy env n i data k n') (hk : k < NUMBER_OF_COMPUTORS) :
    ∃ n'', step env n' (.commit (commitTo env n.tick (n.engine.queries i).queryId data k)) =
        some n'' ∧ CommittedBy env n i data (k + 1) n'' := by
  generalize htx : commitTo env n.tick (n.engine.queries i).queryId data k = tx
  have htick : tx.tick ≠ 0 := htx ▸ h.valid.tick_pos.ne'
  obtain ⟨r, s', hs', -, hframe, hvoted⟩ :=
    (h.valid.run h.run).sound.processOracleReplyCommitTransaction htick
  have hstep : step env n' (.commit tx) = some { n' with engine := s' } := by
    simp [step, Event.engine, hs']
  refine ⟨_, hstep, { h with le := hk, run := ?_, frame := h.frame.trans hframe, isOpen := ?_ }⟩
  · subst htx
    exact commitsTo_succ ▸ h.run.snoc h.tick.symm hstep
  cases hvoted i with
  | closed hno => exact absurd h.isOpen hno
  | counted _ hopen => exact hopen
  | hopeless _ _ _ hhopeless =>
    have hjoined := (h.tracks.run h.valid h.run).joined h.isOpen (.commit tx)
    rw [← htx, ← commitsTo_succ, h.frame.queryId, Event.commits, htx] at hjoined
    rw [h.frame.queryId, hjoined] at hhopeless
    have := hopeless_iff.1 hhopeless (fun _ => some (env.K12 data)) (fun c _ d hd => by
      rw [digests, counted_commitsTo hkeys hk] at hd
      split_ifs at hd
      · exact hd
      · cases hd) (env.K12 data)
    simp [tally, count, NUMBER_OF_COMPUTORS, QUORUM] at this

lemma exists_committedBy (hvalid : n.Valid env) (htracks : Tracks env n i [])
    (hi : n.engine.Open i) (data : List UInt8) (hk : k ≤ NUMBER_OF_COMPUTORS) :
    ∃ n', CommittedBy env n i data k n' := by
  induction k with
  | zero => exact ⟨n, hvalid, htracks, hk, .nil, rfl, .refl _, hi⟩
  | succ k ih =>
    obtain ⟨n', h⟩ := ih (by omega)
    obtain ⟨n'', -, h'⟩ := h.succ hkeys hk
    exact ⟨n'', h'⟩

variable (h : CommittedBy env n i data k n')

include h

lemma CommittedBy.commit_eq (c : Nat) : (n'.engine.reply i).commit c =
    if c < k then some (env.K12 data, env.K12 (data ++ computorIndexBytes c)) else none := by
  rw [(h.tracks.run h.valid h.run).commits h.isOpen, h.frame.queryId, counted_commitsTo hkeys h.le]

lemma CommittedBy.status_eq :
    (n'.engine.queries i).status = if QUORUM ≤ k then .committed else .pending := by
  have htracks := h.tracks.run h.valid h.run
  have hiff := htracks.committed_iff (h.valid.run h.run) h.isOpen
  rw [← htracks.commits h.isOpen] at hiff
  have hcount : count NUMBER_OF_COMPUTORS (· < k) = k := count_lt h.le
  split_ifs with hq
  · refine hiff.2 ⟨env.K12 data, (hq.trans hcount.ge).trans (count_mono fun c _ hc => ?_)⟩
    rw [digests, h.commit_eq hkeys, if_pos hc]
    rfl
  · refine h.isOpen.2.resolve_right fun hcommitted => ?_
    obtain ⟨d, hd⟩ := hiff.1 hcommitted
    refine hq (hd.trans ((count_mono fun c _ hc => ?_).trans hcount.le))
    by_contra hle
    rw [digests, h.commit_eq hkeys, if_neg hle] at hc
    cases hc

lemma CommittedBy.quorumCommitDigest_eq (hq : QUORUM ≤ k) :
    (n'.engine.reply i).quorumCommitDigest = env.K12 data := by
  have hagrees := (h.valid.run h.run).sound.agrees i h.isOpen
  obtain ⟨m, hbins⟩ := hagrees.counted
  have hmost := hagrees.quorum ((h.status_eq hkeys).trans (if_pos hq))
  rw [hbins.most_eq_tally] at hmost
  obtain ⟨c, -, hc⟩ := exists_of_count_pos (Nat.lt_of_lt_of_le (by decide) hmost)
  rw [OracleReplyState.votes_eq, digests, h.commit_eq hkeys] at hc
  split_ifs at hc
  · exact (Option.some.inj hc).symm
  · cases hc

end

lemma sampleEnv_injective : Function.Injective sampleEnv.K12 :=
  Encodable.encode_injective.comp (List.map_injective_iff.2 fun _ _ => UInt8.toNat_inj.1)

lemma sampleEnv_computorIndex (c : Nat) (hc : c < NUMBER_OF_COMPUTORS) :
    sampleEnv.computorIndex (sampleEnv.computorPublicKeys c) = some c := by
  refine List.find?_range_eq_some.2 ⟨by simp, List.mem_range.2 hc, fun j hj => ?_⟩
  have hne : BitVec.ofNat 256 j ≠ BitVec.ofNat 256 c := fun he => by
    have := congrArg BitVec.toNat he
    simp only [BitVec.toNat_ofNat, NUMBER_OF_COMPUTORS] at this hc
    omega
  simpa [sampleEnv] using hne

/-- The query starts, and the first `k` computors commit to a reply of zeros. -/
lemma exists_sample {k : Nat} (hk : k ≤ NUMBER_OF_COMPUTORS) : ∃ n n',
    step sampleEnv (.start 1) sampleQuery = some n ∧ (n.engine.queries 0).interfaceIndex = 1 ∧
    CommittedBy sampleEnv n 0 (.replicate 16 0) k n' := by
  obtain ⟨n, -, hn, -, hcount, hinterface, -⟩ := sampleQuery_expires
  have hadm : Admissible (.start 1) sampleQuery := trivial
  have hstepped := (Node.Valid.start Nat.one_pos).step hadm hn
  have hlt : 0 < n.engine.oracleQueryCount := by omega
  have htracks := Tracks.start hstepped (Nat.le_refl 0) hlt
  obtain ⟨n', h⟩ := exists_committedBy sampleEnv_computorIndex hstepped.valid htracks
    (hstepped.pending 0 (Nat.le_refl 0) hlt) (.replicate 16 0) hk
  exact ⟨n, n', hn, hinterface, h⟩

/-- The commit of the 451st computor decides the query. -/
theorem status_follows_commits_sample : ∃ n n' es e, Run sampleEnv n es n' ∧
    (n'.engine.queries 0).status = .pending ∧ ∃ n'', step sampleEnv n' e = some n'' ∧
    (n''.engine.queries 0).status = .committed ∧
    Decided sampleEnv n'.engine n''.engine 0 es e := by
  have hk : QUORUM - 1 < NUMBER_OF_COMPUTORS := by decide
  have hkeys := sampleEnv_computorIndex
  obtain ⟨n, n', hn, -, h⟩ := exists_sample hk.le
  obtain ⟨n'', hstep, h'⟩ := h.succ hkeys hk
  refine ⟨n, n', _, _, h.run, (h.status_eq hkeys).trans (if_neg (by decide)), n'', hstep,
    (h'.status_eq hkeys).trans (if_pos (by decide)), ?_⟩
  have hadm : Admissible (.start 1) sampleQuery := trivial
  exact status_follows_commits sampleEnv_injective ⟨1, [], by decide, by decide, .nil⟩ hadm hn
    (Nat.le_refl 0) h.tracks.lt h.run h.tick.symm hstep

end QubicCore.Oracle
