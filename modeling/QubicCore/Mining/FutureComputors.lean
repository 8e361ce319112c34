import QubicCore.Mining.Ranking

/-!
# The table over a history, and the computors it selects

The entries of the table stay those of distinct miners with the computors in front, and both
blocks stay in order. The list of future computors is then determined by the order of ranks.
-/

namespace QubicCore.Mining

open Library List Miner Function

-- the numbers of entries are not to be computed with
attribute [local irreducible] NUMBER_OF_COMPUTORS QUORUM contested

namespace Ranking

variable {computors : List M256i} {r : Ranking} {i k : Nat}

def publicKeyAt (r : Ranking) (i : Nat) : M256i := (r.miners i).publicKey

/-- What holds of the entries of the table in whatever order they are. -/
structure Entries (computors : List M256i) (r : Ranking) : Prop where
  lower : NUMBER_OF_COMPUTORS ≤ r.numberOfMiners
  upper : r.numberOfMiners ≤ MAX_NUMBER_OF_MINERS
  distinct : ((range r.numberOfMiners).map r.publicKeyAt).Nodup
  computors : ((range NUMBER_OF_COMPUTORS).map r.publicKeyAt).Perm computors
  unranked : ∀ i < NUMBER_OF_COMPUTORS, (r.miners i).score = NO_MINER_SCORE → (r.miners i).tick = 0

structure Sound (computors : List M256i) (r : Ranking) : Prop extends Entries computors r where
  computorOrder : Ordered rank r.miners 0 NUMBER_OF_COMPUTORS
  candidateOrder : Ordered rank r.miners NUMBER_OF_COMPUTORS r.numberOfMiners

/-- The order after an entry has changed: its block is in order but for this entry. -/
structure Entered (r : Ranking) (i : Nat) : Prop where
  index : i < r.numberOfMiners
  computorOrder : if i < NUMBER_OF_COMPUTORS then
      OrderedExcept rank r.miners 0 NUMBER_OF_COMPUTORS i
    else Ordered rank r.miners 0 NUMBER_OF_COMPUTORS
  candidateOrder : if i < NUMBER_OF_COMPUTORS then
      Ordered rank r.miners NUMBER_OF_COMPUTORS r.numberOfMiners
    else OrderedExcept rank r.miners NUMBER_OF_COMPUTORS r.numberOfMiners i

lemma Entries.publicKeyAt_inj (h : Entries computors r) {j : Nat} (hi : i < r.numberOfMiners)
    (hj : j < r.numberOfMiners) (heq : r.publicKeyAt i = r.publicKeyAt j) : i = j :=
  inj_on_of_nodup_map h.distinct (mem_range.2 hi) (mem_range.2 hj) heq

lemma computors_lt_max : NUMBER_OF_COMPUTORS < MAX_NUMBER_OF_MINERS := by
  norm_num [NUMBER_OF_COMPUTORS, MAX_NUMBER_OF_MINERS]

lemma Entries.improve (h : Entries computors r) {score tick : UInt32}
    (hscore : score < (r.miners i).score) :
    Entries computors (r.setMiner i { r.miners i with score, tick }) := by
  have hkeys : (r.setMiner i { r.miners i with score, tick }).publicKeyAt = r.publicKeyAt := by
    funext j
    simp only [publicKeyAt, setMiner, update_apply]
    split_ifs with hj
    · rw [hj]
    · rfl
  refine ⟨h.lower, h.upper, hkeys ▸ h.distinct, hkeys ▸ h.computors, fun j hj hworst => ?_⟩
  simp only [setMiner, update_apply] at hworst ⊢
  split_ifs at hworst ⊢ with hji
  · -- an improved score is not the worst one
    have hbound := UInt32.toNat_lt (r.miners i).score
    have hmax : score.toNat = 2 ^ 32 - 1 := by rw [show score = NO_MINER_SCORE from hworst]; rfl
    have := UInt32.lt_iff_toNat_lt.1 hscore
    omega
  · exact h.unranked j hj hworst

lemma Entries.place (h : Entries computors r) {r' : Ranking} {m : Miner}
    (hminers : r'.miners = update r.miners i m)
    (hnew : ∀ j < r.numberOfMiners, r.publicKeyAt j ≠ m.publicKey) (hi : NUMBER_OF_COMPUTORS ≤ i)
    (hlower : r.numberOfMiners ≤ r'.numberOfMiners)
    (hupper : r'.numberOfMiners ≤ MAX_NUMBER_OF_MINERS)
    (hold : ∀ j < r'.numberOfMiners, j ≠ i → j < r.numberOfMiners) : Entries computors r' := by
  have hself : r'.publicKeyAt i = m.publicKey := by simp [publicKeyAt, hminers]
  have hother : ∀ j ≠ i, r'.publicKeyAt j = r.publicKeyAt j := fun j hj => by
    simp [publicKeyAt, hminers, hj]
  refine ⟨h.lower.trans hlower, hupper, ?_, ?_, fun j hj => ?_⟩
  · refine List.Nodup.map_on (fun j hj k hk heq => ?_) nodup_range
    rw [mem_range] at hj hk
    by_contra hne
    rcases eq_or_ne j i with rfl | hji
    · rw [hself, hother k (Ne.symm hne)] at heq
      exact hnew k (hold k hk (Ne.symm hne)) heq.symm
    rcases eq_or_ne k i with rfl | hki
    · rw [hself, hother j hji] at heq
      exact hnew j (hold j hj hji) heq
    · rw [hother j hji, hother k hki] at heq
      exact hne (h.publicKeyAt_inj (hold j hj hji) (hold k hk hki) heq)
  · have hsame : (range NUMBER_OF_COMPUTORS).map r'.publicKeyAt =
        (range NUMBER_OF_COMPUTORS).map r.publicKeyAt :=
      map_congr_left fun j hj => hother j (by have := mem_range.1 hj; omega)
    rw [hsame]
    exact h.computors
  · rw [hminers, update_of_ne (by omega)]
    exact h.unranked j hj

lemma Sound.improve (h : Sound computors r) (hi : i < r.numberOfMiners) {score tick : UInt32}
    (hscore : score < (r.miners i).score) :
    Entered (r.setMiner i { r.miners i with score, tick }) i := by
  have hself : (r.setMiner i { r.miners i with score, tick }).miners i =
      { r.miners i with score, tick } := by simp [setMiner]
  have hother : ∀ j ≠ i,
      (r.setMiner i { r.miners i with score, tick }).miners j = r.miners j := fun j hj => by
    simp [setMiner, hj]
  have hrank : ((r.setMiner i { r.miners i with score, tick }).miners i).rank ≤
      (r.miners i).rank := by
    rw [hself, rank, rank, Prod.Lex.toLex_le_toLex]
    exact .inl (UInt32.lt_iff_toNat_lt.1 hscore)
  refine ⟨hi, ?_, ?_⟩ <;> split_ifs with hblock
  · exact h.computorOrder.except_of_le (Nat.zero_le i) hother hrank
  · exact h.computorOrder.congr fun j _ hj => hother j (by omega)
  · exact h.candidateOrder.congr fun j hj _ => hother j (by omega)
  · exact h.candidateOrder.except_of_le (not_lt.1 hblock) hother hrank

/-- Recording a score keeps the entries, and the order but for the entry that changed. -/
lemma Sound.enter (h : Sound computors r) (publicKey : M256i) (score tick : UInt32) :
    Entries computors (r.enter publicKey score tick).1 ∧
      (r.enter publicKey score tick).2.elim (Sound computors (r.enter publicKey score tick).1)
        (Entered (r.enter publicKey score tick).1) := by
  simp only [Ranking.enter]
  split
  · rename_i i hfind
    have hi : i < r.numberOfMiners := mem_range.1 (mem_of_find?_eq_some hfind)
    split_ifs with hscore
    · exact ⟨h.toEntries.improve hscore, h.improve hi hscore⟩
    · exact ⟨h.toEntries, h⟩
  · rename_i hfind
    have hnew : ∀ j < r.numberOfMiners, r.publicKeyAt j ≠ publicKey := by
      simpa [publicKeyAt] using hfind
    have hlower := h.lower
    have hupper := h.upper
    split_ifs with hroom hworst
    · have hother : ∀ j < r.numberOfMiners,
          (r.setMiner r.numberOfMiners ⟨publicKey, score, tick⟩).miners j = r.miners j :=
        fun j hj => by simp [setMiner, hj.ne]
      refine ⟨h.toEntries.place rfl hnew hlower (Nat.le_succ _) hroom
        (fun j hj hne => by simp only at hj; omega), Nat.lt_succ_self _, ?_, ?_⟩
      · rw [if_neg (not_lt.2 hlower)]
        exact h.computorOrder.congr fun j _ hj => hother j (by omega)
      · rw [if_neg (not_lt.2 hlower)]
        exact (h.candidateOrder.congr fun j _ hj => hother j hj).except_last
    · -- the table is full, so its last entry is a candidate
      have hmax := computors_lt_max
      have hlast : NUMBER_OF_COMPUTORS ≤ r.numberOfMiners - 1 := by omega
      have hother : ∀ j ≠ r.numberOfMiners - 1,
          (r.setMiner (r.numberOfMiners - 1) ⟨publicKey, score, tick⟩).miners j = r.miners j :=
        fun j hj => by simp [setMiner, hj]
      refine ⟨h.toEntries.place rfl hnew hlast le_rfl hupper (fun j hj _ => hj),
        by simp only [setMiner]; omega, ?_, ?_⟩
      · rw [if_neg (not_lt.2 hlast)]
        exact h.computorOrder.congr fun j _ hj => hother j (by omega)
      · rw [if_neg (not_lt.2 hlast)]
        refine h.candidateOrder.except_of_le hlast hother ?_
        have hbelow := (below_iff (r.miners (r.numberOfMiners - 1))
          ⟨publicKey, score, tick⟩).1 hworst
        simpa [setMiner] using hbelow.le
    · exact ⟨h.toEntries, h⟩

/-- An entry that moves up in its block puts both blocks in order. -/
lemma Sound.of_entered (h : Entries computors r) (he : Entered r i) :
    Sound computors (r.moveUp i) := by
  have hindex := he.index
  have hstart : ∀ j, blockStart i ≤ j → j ≤ i → blockStart j = blockStart i := by
    intro j hj hji
    simp only [blockStart] at hj ⊢
    split_ifs at hj ⊢ <;> omega
  have hle : blockStart i ≤ i := by
    rw [blockStart]
    split_ifs <;> omega
  have hbelow : ∀ x, below x (r.miners i) ↔ (r.miners i).rank < x.rank := fun x => below_iff x _
  obtain ⟨σ, hσ, hfix⟩ := bubble_perm below r.miners hle hstart
  have hminers : (r.moveUp i).miners = r.miners ∘ σ := hσ
  have hframe : ∀ j, j < blockStart i ∨ i < j → (r.moveUp i).miners j = r.miners j := by
    intro j hj
    rw [hminers, comp_apply, hfix j hj]
  have hkeys : (r.moveUp i).publicKeyAt = r.publicKeyAt ∘ σ := by
    funext j
    simp [publicKeyAt, hminers]
  -- a rearrangement of one block keeps the list of all keys and that of the computors' keys
  have hperm : ∀ n, i < n ∨ n ≤ blockStart i →
      ((range n).map (r.moveUp i).publicKeyAt).Perm ((range n).map r.publicKeyAt) := by
    intro n hn
    rcases hn with hn | hn
    · rw [hkeys]
      exact map_range_perm σ (fun j hj => hfix j (.inr (by omega))) _
    · refine List.Perm.of_eq (map_congr_left fun j hj => ?_)
      rw [publicKeyAt, hframe j (.inl (by have := mem_range.1 hj; omega)), publicKeyAt]
  have hcomputors : i < NUMBER_OF_COMPUTORS ∨ NUMBER_OF_COMPUTORS ≤ blockStart i := by
    rw [blockStart]
    split_ifs <;> omega
  refine ⟨⟨h.lower, h.upper, ?_, ?_, ?_⟩, ?_, ?_⟩
  · exact (hperm r.numberOfMiners (.inl hindex)).nodup_iff.2 h.distinct
  · exact (hperm _ hcomputors).trans h.computors
  · intro j hj
    rw [hminers, comp_apply]
    apply h.unranked
    by_contra hσj
    -- an entry that moves stays in its block
    have := σ.injective (hfix (σ j) ?_)
    · omega
    · rcases hcomputors with hi | hi
      · exact .inr (by omega)
      · have := hfix j (.inl (by omega))
        omega
  · have horder := he.computorOrder
    split_ifs at horder with hi
    · rw [blockStart, if_pos hi] at hstart hle
      exact bubble_ordered hle hi hstart hbelow horder
    · rw [blockStart, if_neg hi] at hframe
      exact horder.congr fun j _ hj => hframe j (.inl hj)
  · have horder := he.candidateOrder
    split_ifs at horder with hi
    · exact horder.congr fun j hj _ => hframe j (.inr (by omega))
    · rw [blockStart, if_neg hi] at hstart hle
      exact bubble_ordered hle hindex hstart hbelow horder

/-! ## Selecting the future computors -/

def challengers (r : Ranking) : Nat := min contested (r.numberOfMiners - NUMBER_OF_COMPUTORS)

/-- The computors that candidates can replace, and the best candidates. -/
def pool (r : Ranking) : List Competitor :=
  (range contested).map (fun k => ⟨r.miners (QUORUM + k), true⟩) ++
    (range r.challengers).map fun k => ⟨r.miners (NUMBER_OF_COMPUTORS + k), false⟩

/-- The first `n` of a pool of competitors listed in the order of selection. -/
def BestOf (n : Nat) (pool chosen : List Competitor) : Prop :=
  chosen.length = n ∧ ∃ rest, (chosen ++ rest).Perm pool ∧
    (chosen ++ rest).Pairwise Competitor.precedes

lemma combine_computor (r : Ranking) (hk : k < contested) :
    r.combine.competitors k = ⟨r.miners (QUORUM + k), true⟩ := by simp [combine, hk]

lemma combine_candidate (r : Ranking) (hk : k < r.challengers) :
    r.combine.competitors (contested + k) = ⟨r.miners (NUMBER_OF_COMPUTORS + k), false⟩ := by
  rw [challengers, lt_min_iff] at hk
  have h₁ : ¬contested + k < contested := by omega
  have h₂ : contested + k < contested * 2 := by omega
  have h₃ : NUMBER_OF_COMPUTORS + k < r.numberOfMiners := by omega
  simp only [combine, if_neg h₁, if_pos h₂, Nat.add_sub_cancel_left, if_pos h₃]

lemma combine_missing (r : Ranking) (hk : r.challengers ≤ k) (hk' : k < contested) :
    (r.combine.competitors (contested + k)).rank = toLex (2 ^ 32 - 1, 0) ∧
      (r.combine.competitors (contested + k)).computorStatus = false := by
  rw [challengers, min_le_iff] at hk
  have h₁ : ¬contested + k < contested := by omega
  have h₂ : contested + k < contested * 2 := by omega
  have h₃ : ¬NUMBER_OF_COMPUTORS + k < r.numberOfMiners := by omega
  simp only [combine, if_neg h₁, if_pos h₂, Nat.add_sub_cancel_left, if_neg h₃]
  exact ⟨rfl, trivial⟩

lemma combine_status (r : Ranking) (hk : k < contested) :
    (r.combine.competitors (contested + k)).computorStatus = false := by
  rcases lt_or_ge k r.challengers with h | h
  · rw [r.combine_candidate h]
  · exact (r.combine_missing h hk).2

lemma map_combine (r : Ranking) :
    (range (contested + r.challengers)).map r.combine.competitors = r.pool := by
  rw [range_add, map_append, map_map, pool]
  apply congrArg₂ (· ++ ·)
  · exact map_congr_left fun k hk => r.combine_computor (mem_range.1 hk)
  · exact map_congr_left fun k hk => r.combine_candidate (mem_range.1 hk)

/-- A computor is before every missing candidate. -/
lemma Sound.place_lt_missing (h : Sound computors r) {m : Nat} (hm : m < contested)
    (hk : r.challengers ≤ k) (hk' : k < contested) :
    (r.combine.competitors m).place < (r.combine.competitors (contested + k)).place := by
  obtain ⟨hrank, hstatus⟩ := r.combine_missing hk hk'
  rw [r.combine_computor hm, Competitor.place, Competitor.place, hrank, hstatus,
    Prod.Lex.toLex_lt_toLex]
  have hindex : QUORUM + m < NUMBER_OF_COMPUTORS := by rw [contested] at hm; omega
  have hbound := UInt32.toNat_lt (r.miners (QUORUM + m)).score
  rcases eq_or_ne (r.miners (QUORUM + m)).score NO_MINER_SCORE with hworst | hscore
  · right
    simp only [rank, hworst, h.unranked _ hindex hworst]
    exact ⟨rfl, by decide⟩
  · left
    have hne : (r.miners (QUORUM + m)).score.toNat ≠ 2 ^ 32 - 1 := fun heq =>
      hscore (UInt32.toNat_inj.1 heq)
    left
    simp only
    omega

lemma Sound.bestOf (h : Sound computors r) :
    BestOf contested r.pool
      ((range contested).map r.combine.sortCompetitors.competitors) := by
  have hfirst : Ordered Competitor.place r.combine.competitors 0 contested := by
    intro j k hj hjk hk
    rw [r.combine_computor (hjk.trans hk), r.combine_computor hk]
    apply Competitor.place_le rfl
    exact h.computorOrder _ _ (Nat.zero_le _) (by omega) (by rw [contested] at hk; omega)
  have hbelow : ∀ k < contested, ∀ x : Competitor, x.below (r.combine.competitors (contested + k)) ↔
        (r.combine.competitors (contested + k)).place < x.place :=
    fun k hk x => Competitor.below_iff _ x (r.combine_status hk)
  have hmissing : ∀ j < contested, ∀ k, r.challengers ≤ k → k < contested →
      (r.combine.competitors j).place < (r.combine.competitors (contested + k)).place :=
    fun j hj k hk hk' => h.place_lt_missing hj hk hk'
  have hchallengers : r.challengers ≤ contested := min_le_left _ _
  obtain ⟨rest, hperm, horder⟩ := insertFrom_best hchallengers hbelow hfirst hmissing
  refine ⟨by rw [length_map, length_range], rest, ?_, horder.imp Competitor.precedes_of_place_le⟩
  rw [← r.map_combine]
  exact hperm

/-! ## Histories -/

lemma Sound.update (h : Sound computors r) (publicKey : M256i) (score tick : UInt32) :
    Sound computors (((r.enter publicKey score tick).2).elim (r.enter publicKey score tick).1
      (r.enter publicKey score tick).1.moveUp) := by
  obtain ⟨hentries, horder⟩ := h.enter publicKey score tick
  cases hchanged : (r.enter publicKey score tick).2 with
  | none => simpa [hchanged] using horder
  | some i =>
    rw [hchanged] at horder
    exact Sound.of_entered hentries horder

/-- The first 451 computors stay, and the best of the pool follow. -/
def Selects (r : Ranking) : Prop :=
  ∃ chosen, BestOf contested r.pool chosen ∧ (range NUMBER_OF_COMPUTORS).map r.futureComputors =
      (range QUORUM).map r.publicKeyAt ++ chosen.map (·.publicKey)

lemma quorum_add_contested : QUORUM + contested = NUMBER_OF_COMPUTORS := by
  norm_num [contested, QUORUM, NUMBER_OF_COMPUTORS]

lemma Sound.selects (h : Sound computors r) :
    Selects r.combine.sortCompetitors.setMinimumScores.setFutureComputors := by
  refine ⟨_, h.bestOf, ?_⟩
  rw [← quorum_add_contested, range_add, map_append, map_map, map_map]
  apply congrArg₂ (· ++ ·)
  · refine map_congr_left fun i hi => ?_
    simp only [setFutureComputors, if_pos (mem_range.1 hi)]
    rfl
  · refine map_congr_left fun k hk => ?_
    have h₁ : ¬QUORUM + k < QUORUM := by omega
    have h₂ : QUORUM + k < NUMBER_OF_COMPUTORS := by
      have := mem_range.1 hk
      have := quorum_add_contested
      omega
    simp only [comp_apply, setFutureComputors, if_neg h₁, if_pos h₂, Nat.add_sub_cancel_left]
    rfl

/-- The keys of the best computors and of the pool are those of the first entries of the table. -/
lemma map_pool (r : Ranking) :
    (range QUORUM).map r.publicKeyAt ++ r.pool.map (·.publicKey) =
      (range (NUMBER_OF_COMPUTORS + r.challengers)).map r.publicKeyAt := by
  rw [range_add, ← quorum_add_contested, range_add]
  simp only [pool, map_append, map_map, append_assoc, quorum_add_contested]
  rfl

lemma Selects.distinct (hs : Selects r) (h : Entries computors r) :
    ((range NUMBER_OF_COMPUTORS).map r.futureComputors).Nodup ∧
      ∀ i < NUMBER_OF_COMPUTORS, ∃ j < r.numberOfMiners, r.publicKeyAt j = r.futureComputors i := by
  obtain ⟨chosen, ⟨-, rest, hperm, -⟩, hfuture⟩ := hs
  have hkeys := (hperm.map (·.publicKey)).append_left ((range QUORUM).map r.publicKeyAt)
  rw [map_pool, map_append, ← append_assoc, ← hfuture] at hkeys
  have hbound : NUMBER_OF_COMPUTORS + r.challengers ≤ r.numberOfMiners := by
    have hlower := h.lower
    have : r.challengers ≤ r.numberOfMiners - NUMBER_OF_COMPUTORS := min_le_right _ _
    omega
  have hfirst : ((range (NUMBER_OF_COMPUTORS + r.challengers)).map r.publicKeyAt).Nodup :=
    h.distinct.sublist ((range_sublist.2 hbound).map _)
  refine ⟨(nodup_append.1 (hkeys.nodup_iff.2 hfirst)).1, fun i hi => ?_⟩
  have hmem : r.futureComputors i ∈
      (range NUMBER_OF_COMPUTORS).map r.futureComputors ++ rest.map (·.publicKey) :=
    mem_append_left _ (mem_map_of_mem (mem_range.2 hi))
  obtain ⟨j, hj, hkey⟩ := mem_map.1 (hkeys.mem_iff.1 hmem)
  exact ⟨j, (mem_range.1 hj).trans_le hbound, hkey⟩

lemma Sound.step (h : Sound computors r) (publicKey : M256i) (score tick : UInt32) :
    Sound computors (r.updateMinerRankingAndFutureComputors publicKey score tick) ∧
      Selects (r.updateMinerRankingAndFutureComputors publicKey score tick) := by
  have hupdate := h.update publicKey score tick
  exact ⟨{ hupdate with }, hupdate.selects⟩

lemma Sound.run (h : Sound computors r) (history : List (M256i × UInt32 × UInt32)) :
    Sound computors (r.run history) ∧ (history ≠ [] → Selects (r.run history)) := by
  induction history generalizing r with
  | nil => exact ⟨h, fun hne => absurd rfl hne⟩
  | cons solution history ih =>
    obtain ⟨hstep, hselects⟩ := h.step solution.1 solution.2.1 solution.2.2
    obtain ⟨hrun, hlast⟩ := ih hstep
    refine ⟨hrun, fun _ => ?_⟩
    rcases eq_or_ne history [] with rfl | hne
    · exact hselects
    · exact hlast hne

end Ranking

end QubicCore.Mining
