import QubicCore.Proposals.Basic

/-!
# Whose votes a multi-vote changes

The number of votes sent is a 32-bit sum. If it wraps, the writing loop runs past the slots of the
voter until a value is invalid or the slots end. `vote_isolated_iff` says exactly when a call
leaves the votes of all others alone.
-/

namespace QubicCore.Proposals

open Library List

variable {σ : Type} {S : VoteStorage σ} {p : ProposalData} {groups : List (Int × Nat)}
  {k first i : Nat} {voter : M256i} {pv : ProposalVoting σ}

/-- The value sent for the slot `k` after the voter's first one. -/
def sentValue : List (Int × Nat) → Nat → Option Int
  | [], _ => none
  | group :: groups, k => if k < group.2 then some group.1 else sentValue groups (k - group.2)

/-- A value was sent for slot `k`, there is such a slot, and the proposal accepts the value. -/
def Writable (S : VoteStorage σ) (p : ProposalData) (groups : List (Int × Nat)) (first k : Nat) :
    Prop :=
  first + k < maxVotes ∧ ∃ value, sentValue groups k = some value ∧ S.accepts p value

lemma lt_or_exists_add (k n : Nat) : k < n ∨ ∃ j, k = n + j := by
  obtain hlt | hge := Nat.lt_or_ge k n
  · exact .inl hlt
  · exact .inr (Nat.exists_eq_add_of_le hge)

lemma sentValue_of_lt {group : Int × Nat} (hk : k < group.2) :
    sentValue (group :: groups) k = some group.1 := if_pos hk

lemma sentValue_add (group : Int × Nat) (groups : List (Int × Nat)) (k : Nat) :
    sentValue (group :: groups) (group.2 + k) = sentValue groups k := by
  simp [sentValue]

lemma lt_sum_of_sentValue {value : Int} (h : sentValue groups k = some value) :
    k < (groups.map Prod.snd).sum := by
  induction groups generalizing k with
  | nil => cases h
  | cons group groups ih =>
    rw [map_cons, sum_cons]
    obtain hlt | ⟨j, rfl⟩ := lt_or_exists_add k group.2
    · omega
    · rw [sentValue_add] at h
      have := ih h
      omega

lemma writable_add {group : Int × Nat} :
    Writable S p (group :: groups) first (group.2 + k) ↔
      Writable S p groups (first + group.2) k := by
  rw [Writable, Writable, sentValue_add, Nat.add_assoc]

/-- The writing loop from slot `first` on wrote `m` slots, and stopped because the next one could
not be written. -/
structure Written (S : VoteStorage σ) (p : ProposalData) (groups : List (Int × Nat)) (first : Nat)
    (votes votes' : σ) (m : Nat) : Prop where
  writable : ∀ k < m, Writable S p groups first k
  value : ∀ k < m, ∀ value, sentValue groups k = some value →
    S.getVoteValue votes' (first + k) = value
  other : ∀ i, (∀ k < m, i ≠ first + k) → S.getVoteValue votes' i = S.getVoteValue votes i
  stopped : ¬Writable S p groups first m

/-- Writing one group: all of it, or up to a slot that cannot be written. -/
lemma setVotes_spec (hfits : S.fits p) (value : Int) (count : Nat) (votes : σ) (first : Nat) :
    ∃ m ≤ count, (∀ k < m, first + k < maxVotes ∧ S.accepts p value) ∧
      (∀ i, S.getVoteValue (setVotes S p value count votes first).2.1 i =
        if first ≤ i ∧ i < first + m then value else S.getVoteValue votes i) ∧
      (((setVotes S p value count votes first).1 ∧ m = count ∧
          (setVotes S p value count votes first).2.2 = first + count) ∨
        ((setVotes S p value count votes first).1 = false ∧ m < count ∧
          ¬(first + m < maxVotes ∧ S.accepts p value))) := by
  induction count generalizing votes first with
  | zero => exact ⟨0, le_refl 0, by simp, fun i => by simp [setVotes], by simp [setVotes]⟩
  | succ count ih =>
    by_cases hok : first < maxVotes ∧ S.accepts p value
    · obtain ⟨votes', hset, hget⟩ := S.set_of_accepts votes hfits hok.1 hok.2
      obtain ⟨m, hm, hwritable, hvalue, hend⟩ := ih votes' (first + 1)
      simp only [setVotes, hset]
      refine ⟨m + 1, by omega, fun k hk => ?_, fun i => ?_, ?_⟩
      · rcases k with _ | k
        · exact hok
        · exact ⟨by have := (hwritable k (by omega)).1; omega, hok.2⟩
      · rw [hvalue, hget]
        split_ifs <;> first | rfl | omega
      · rcases hend with ⟨h1, h2, h3⟩ | ⟨h1, h2, h3⟩
        · exact .inl ⟨h1, by omega, by omega⟩
        · exact .inr ⟨h1, by omega, by rwa [show first + (m + 1) = first + 1 + m by omega]⟩
    · have hset := S.set_of_not votes hok
      simp only [setVotes, hset]
      exact ⟨0, by omega, by simp, fun i => by simp, Or.inr ⟨trivial, by omega, by simpa using hok⟩⟩

lemma setVoteGroups_spec (hfits : S.fits p) (groups : List (Int × Nat)) (votes : σ) (first : Nat) :
    ∃ m, Written S p groups first votes (setVoteGroups S p groups votes first).2.1 m ∧
      ((setVoteGroups S p groups votes first).1 →
        (setVoteGroups S p groups votes first).2.2 = first + m) := by
  induction groups generalizing votes first with
  | nil =>
    refine ⟨0, ⟨by simp, by simp, fun i _ => rfl, ?_⟩, fun _ => rfl⟩
    simp [Writable, sentValue]
  | cons group groups ih =>
    obtain ⟨m₁, hm₁, hwritable₁, hvalue₁, hend⟩ := setVotes_spec hfits group.1 group.2 votes first
    rcases hrun : setVotes S p group.1 group.2 votes first with ⟨okay, votes₁, next⟩
    rw [hrun] at hvalue₁ hend
    rcases hend with ⟨rfl, rfl, rfl⟩ | ⟨rfl, hlt, hstop⟩
    · -- The whole group was written; the rest begins after it.
      obtain ⟨m₂, hw, hnext⟩ := ih votes₁ (first + group.2)
      simp only [setVoteGroups, hrun]
      refine ⟨group.2 + m₂, ⟨fun k hk => ?_, fun k hk value hv => ?_, fun i hi => ?_,
        fun h => hw.stopped (writable_add.mp h)⟩, fun h => by rw [hnext h]; omega⟩
      · obtain hlt | ⟨j, rfl⟩ := lt_or_exists_add k group.2
        · exact ⟨(hwritable₁ k hlt).1, group.1, sentValue_of_lt hlt, (hwritable₁ k hlt).2⟩
        · exact writable_add.mpr (hw.writable j (by omega))
      · obtain hlt | ⟨j, rfl⟩ := lt_or_exists_add k group.2
        · rw [sentValue_of_lt hlt, Option.some.injEq] at hv
          rw [hw.other _ fun j _ => by omega, hvalue₁, if_pos (by omega), hv]
        · rw [sentValue_add] at hv
          rw [← Nat.add_assoc]
          exact hw.value j (by omega) value hv
      · have hout : ¬(first ≤ i ∧ i < first + group.2) := fun h =>
          hi (i - first) (by omega) (by omega)
        rw [hw.other i fun j hj => by have := hi (group.2 + j) (by omega); omega, hvalue₁,
          if_neg hout]
    · simp only [setVoteGroups, hrun]
      refine ⟨m₁, ⟨fun k hk => ?_, fun k hk value hv => ?_, fun i hi => ?_, ?_⟩, by simp⟩
      · exact ⟨(hwritable₁ k hk).1, group.1, sentValue_of_lt (by omega), (hwritable₁ k hk).2⟩
      · rw [sentValue_of_lt (by omega), Option.some.injEq] at hv
        rw [hvalue₁, if_pos (by omega), hv]
      · have hout : ¬(first ≤ i ∧ i < first + m₁) := fun h =>
          hi (i - first) (by omega) (by omega)
        rw [hvalue₁, if_neg hout]
      · rintro ⟨hslot, value, hv, haccepts⟩
        rw [sentValue_of_lt hlt, Option.some.injEq] at hv
        exact hstop ⟨hslot, hv ▸ haccepts⟩

lemma Written.lt_iff {m : Nat} {votes votes' : σ} (h : Written S p groups first votes votes' m)
    (k : Nat) :
    k < m ↔ ∀ j ≤ k, Writable S p groups first j := by
  refine ⟨fun hk j hj => h.writable j (by omega), fun hall => ?_⟩
  by_contra hge
  exact h.stopped (hall m (by omega))

lemma getVoteValue_clearVotes (hfits : S.fits p) (count : Nat) (votes : σ)
    (hi : ¬(first ≤ i ∧ i < first + count)) :
    S.getVoteValue (clearVotes S p count votes first) i = S.getVoteValue votes i := by
  induction count generalizing votes first with
  | zero => rfl
  | succ count ih =>
    rw [clearVotes, ih _ (by omega)]
    by_cases hok : first < maxVotes ∧ S.accepts p NO_VOTE_VALUE
    · obtain ⟨votes', hset, hget⟩ := S.set_of_accepts votes hfits hok.1 hok.2
      rw [hset, Option.getD_some, hget, if_neg (by omega)]
    · rw [S.set_of_not votes hok, Option.getD_none]

lemma Voters.voterAt_of_lt {voters : Voters} {maxProposals q : Nat}
    (hfirst : voters.getVoteIndex maxProposals voter q = some first)
    (hk : k < voters.getVoteCount maxProposals first q) :
    voters.voterAt q (first + k) = voter := by
  cases voters with
  | computors computor =>
    simp only [getVoteIndex, getVoteCount, voterAt] at *
    split_ifs at hfirst hk
    · omega
    · obtain rfl : k = 0 := by omega
      simpa using List.find?_some hfirst
  | shareholders owner =>
    simp only [getVoteIndex, getVoteCount, voterAt] at *
    split_ifs at hfirst hk
    · omega
    · have hown : owner q first = voter := by simpa using List.find?_some hfirst
      obtain _ | j := k
      · exact hown
      · have hj : j < ((List.range' (first + 1) (maxVotes - (first + 1))).takeWhile fun idx =>
            owner q idx = owner q first).length := by omega
        have hmem := mem_takeWhile_imp (getElem_mem hj)
        rw [( takeWhile_prefix _).getElem hj, getElem_range', Nat.one_mul] at hmem
        rw [← hown, show first + (j + 1) = first + 1 + j by omega]
        simpa using hmem

lemma Written.ne_iff {m : Nat} {votes votes' : σ} (h : Written S p groups first votes votes' m)
    (i : Nat) :
    S.getVoteValue votes' i ≠ S.getVoteValue votes i ↔
      ∃ k, i = first + k ∧ (∀ j ≤ k, Writable S p groups first j) ∧
        sentValue groups k ≠ some (S.getVoteValue votes i) := by
  constructor
  · intro hne
    have hwritten : ∃ k < m, i = first + k := by
      by_contra hnone
      push Not at hnone
      exact hne (h.other i hnone)
    obtain ⟨k, hk, rfl⟩ := hwritten
    refine ⟨k, rfl, (h.lt_iff k).mp hk, fun hsame => hne ?_⟩
    exact h.value k hk _ hsame
  · rintro ⟨k, rfl, hall, hdiffer⟩ hsame
    have hk := (h.lt_iff k).mpr hall
    obtain ⟨_, value, hv, _⟩ := h.writable k hk
    rw [hv, ← hsame, h.value k hk value hv] at hdiffer
    exact hdiffer rfl

/-- A slot after the voter's own is changed when the sum of the counts passes the check and the
writing loop gets there. -/
lemma castVotes_ne_iff (hfits : S.fits p) (votes : σ) (first total : Nat)
    (vote : ProposalMultiVoteData) (hi : ∀ k < total, i ≠ first + k) :
    S.getVoteValue (castVotes S p votes first total vote).2 i ≠ S.getVoteValue votes i ↔
      0 < vote.voteCountSent ∧ vote.voteCountSent ≤ total ∧
        ∃ k, i = first + k ∧ (∀ j ≤ k, Writable S p vote.groups first j) ∧
          sentValue vote.groups k ≠ some (S.getVoteValue votes i) := by
  have hout : ¬(first ≤ i ∧ i < first + total) := fun h => hi (i - first) (by omega) (by omega)
  unfold castVotes
  by_cases hmany : vote.voteCountSent > total
  · simp [hmany, not_le.mpr hmany]
  · rw [if_neg hmany]
    by_cases hzero : vote.voteCountSent = 0
    · rw [if_pos hzero]
      refine iff_of_false (not_not.mpr ?_) (by omega)
      obtain ⟨m, hm, _, hvalue, _⟩ := setVotes_spec hfits (vote.voteValues 0) total votes first
      generalize setVotes S p (vote.voteValues 0) total votes first = result at hvalue ⊢
      obtain ⟨_ | _, votes', _⟩ := result
      · rw [getVoteValue_clearVotes hfits total votes' hout, hvalue i, if_neg (by omega)]
      · exact (hvalue i).trans (if_neg (by omega))
    · rw [if_neg hzero]
      obtain ⟨m, hw, hnext⟩ := setVoteGroups_spec hfits vote.groups votes first
      have hpass : 0 < vote.voteCountSent ∧ vote.voteCountSent ≤ total := by omega
      rw [← and_assoc, and_iff_right hpass, ← hw.ne_iff]
      generalize setVoteGroups S p vote.groups votes first = result at hnext ⊢
      obtain ⟨_ | _, votes', next⟩ := result
      · rw [getVoteValue_clearVotes hfits total votes' hout]
      · obtain rfl := hnext rfl
        rw [getVoteValue_clearVotes hfits _ votes' (by omega)]

lemma ProposalMultiVoteData.voteCountSent_eq (vote : ProposalMultiVoteData) :
    vote.voteCountSent = (∑ i, (vote.voteCounts i).toNat) % 2 ^ 32 := by
  have hsum : ∀ (l : List (Fin 8)) (a : Nat), a < 2 ^ 32 →
      l.foldl (fun sum i => (sum + (vote.voteCounts i).toNat) % 2 ^ 32) a =
        (a + (l.map fun i => (vote.voteCounts i).toNat).sum) % 2 ^ 32 := by
    intro l
    induction l with
    | nil => exact fun a ha => (Nat.mod_eq_of_lt ha).symm
    | cons i l ih =>
      intro a _
      rw [foldl_cons, ih _ (Nat.mod_lt _ (by norm_num)), Nat.mod_add_mod, map_cons,
        sum_cons, Nat.add_assoc]
  rw [voteCountSent, hsum _ 0 (by norm_num), Nat.zero_add, Fin.sum_univ_def]

lemma ProposalVoting.vote_of_first {epoch : Nat} {vote : ProposalMultiVoteData}
    (hopen : pv.isOpenFor epoch vote)
    (hfirst : pv.voters.getVoteIndex pv.maxProposals voter vote.proposalIndex = some first) :
    (pv.vote S epoch voter vote).2 = { pv with
      proposals := Function.update pv.proposals vote.proposalIndex
        { pv.proposals vote.proposalIndex with
          votes := (castVotes S (pv.proposals vote.proposalIndex).data
            (pv.proposals vote.proposalIndex).votes first
            (pv.voters.getVoteCount pv.maxProposals first vote.proposalIndex) vote).2 } } := by
  simp [ProposalVoting.vote, hopen, hfirst]

/-- What a call may change: votes of the addressed proposal whose slot belongs to the voter. -/
structure Isolated (S : VoteStorage σ) (before after : ProposalVoting σ) (proposalIndex : Nat)
    (voter : M256i) : Prop where
  maxProposals : after.maxProposals = before.maxProposals
  voters : after.voters = before.voters
  otherProposals : ∀ q ≠ proposalIndex, after.proposals q = before.proposals q
  data : (after.proposals proposalIndex).data = (before.proposals proposalIndex).data
  otherVotes : ∀ i, before.voters.voterAt proposalIndex i ≠ voter →
    S.getVoteValue (after.proposals proposalIndex).votes i =
      S.getVoteValue (before.proposals proposalIndex).votes i

lemma ne_ownSlot_of_first {q : Nat}
    (hfirst : pv.voters.getVoteIndex pv.maxProposals voter q = some first)
    (hother : pv.voters.voterAt q i ≠ voter) :
    ∀ k < pv.voters.getVoteCount pv.maxProposals first q, i ≠ first + k := by
  rintro k hk rfl
  exact hother (Voters.voterAt_of_lt hfirst hk)

/-- The writing loop gets to the slot `first + k` of another voter. -/
structure Overrun (S : VoteStorage σ) (pv : ProposalVoting σ) (epoch : Nat) (voter : M256i)
    (vote : ProposalMultiVoteData) (first k : Nat) : Prop where
  isOpen : pv.isOpenFor epoch vote
  voteIndex : pv.voters.getVoteIndex pv.maxProposals voter vote.proposalIndex = some first
  sent_pos : 0 < (∑ i, (vote.voteCounts i).toNat) % 2 ^ 32
  sent_le : (∑ i, (vote.voteCounts i).toNat) % 2 ^ 32 ≤
    pv.voters.getVoteCount pv.maxProposals first vote.proposalIndex
  writable : ∀ j ≤ k, Writable S (pv.proposals vote.proposalIndex).data vote.groups first j
  other : pv.voters.voterAt vote.proposalIndex (first + k) ≠ voter
  differs : sentValue vote.groups k ≠
    some (S.getVoteValue (pv.proposals vote.proposalIndex).votes (first + k))

lemma Overrun.not_isolated {epoch : Nat} {vote : ProposalMultiVoteData}
    (h : Overrun S pv epoch voter vote first k)
    (hfits : S.fits (pv.proposals vote.proposalIndex).data) :
    ¬Isolated S pv (pv.vote S epoch voter vote).2 vote.proposalIndex voter := by
  intro hiso
  have hsame := hiso.otherVotes (first + k) h.other
  rw [ProposalVoting.vote_of_first h.isOpen h.voteIndex] at hsame
  refine (castVotes_ne_iff hfits _ first _ vote (ne_ownSlot_of_first h.voteIndex h.other)).mpr
    ⟨?_, ?_, k, rfl, h.writable, h.differs⟩ (by simpa using hsame)
  · rw [vote.voteCountSent_eq]
    exact h.sent_pos
  · rw [vote.voteCountSent_eq]
    exact h.sent_le

/-- Counts that add up to less than `2^32` reach no slot of another voter. -/
lemma Overrun.wraps {epoch : Nat} {vote : ProposalMultiVoteData}
    (h : Overrun S pv epoch voter vote first k) : 2 ^ 32 ≤ ∑ i, (vote.voteCounts i).toNat := by
  by_contra hlt
  obtain ⟨-, value, hvalue, -⟩ := h.writable k le_rfl
  have hk := lt_sum_of_sentValue hvalue
  have hle := h.sent_le
  rw [Nat.mod_eq_of_lt (not_le.mp hlt), Fin.sum_univ_def] at hle
  rw [ProposalMultiVoteData.groups, map_map] at hk
  exact h.other (Voters.voterAt_of_lt h.voteIndex (hk.trans_le hle))

/-- A multi-vote leaves all other voters alone, unless the sum of its counts, taken modulo `2^32`,
passes the check, and the values sent reach a slot of another voter that holds another value. -/
theorem vote_isolated_iff (S : VoteStorage σ) (pv : ProposalVoting σ) (epoch : Nat) (voter : M256i)
    (vote : ProposalMultiVoteData) (hfits : S.fits (pv.proposals vote.proposalIndex).data) :
    Isolated S pv (pv.vote S epoch voter vote).2 vote.proposalIndex voter ↔
      ¬∃ first k, Overrun S pv epoch voter vote first k := by
  refine ⟨fun hiso ⟨first, k, h⟩ => h.not_isolated hfits hiso, fun hnone => ?_⟩
  have hrefl : Isolated S pv pv vote.proposalIndex voter :=
    ⟨rfl, rfl, fun _ _ => rfl, rfl, fun _ _ => rfl⟩
  cases hopen : pv.isOpenFor epoch vote with
  | false => simp [ProposalVoting.vote, hopen, hrefl]
  | true =>
    cases hfirst : pv.voters.getVoteIndex pv.maxProposals voter vote.proposalIndex with
    | none => simp [ProposalVoting.vote, hopen, hfirst, hrefl]
    | some first =>
      rw [ProposalVoting.vote_of_first hopen hfirst]
      refine ⟨rfl, rfl, fun q hq => by simp [hq], by simp, fun i hother => ?_⟩
      by_contra hne
      obtain ⟨hpos, hle, k, rfl, hall, hdiffers⟩ := (castVotes_ne_iff hfits _ first _ vote
        (ne_ownSlot_of_first hfirst hother)).mp (by simpa using hne)
      rw [vote.voteCountSent_eq] at hpos hle
      exact hnone ⟨first, k, hopen, hfirst, hpos, hle, hall, hother, hdiffers⟩

/-! ## A sum that wraps

Computor 0 sends the value 1 with the counts `2^32 - 1` and 2, whose 32-bit sum is 1.
-/

def computorVoting {σ : Type} (votes : σ) : ProposalVoting σ where
  maxProposals := 1
  voters := .computors fun i => ⟨BitVec.ofNat 256 (i + 1)⟩
  proposals _ := ⟨⟨200, 2, 1000, 0, 0⟩, votes⟩

def firstComputor : M256i := ⟨1⟩

def wrappingVote : ProposalMultiVoteData where
  proposalIndex := 0
  proposalType := 2
  proposalTick := 1000
  voteValues _ := 1
  voteCounts i := if i.val = 0 then 0xffffffff else if i.val = 1 then 2 else 0

lemma computorVoting_first {σ : Type} (votes : σ) :
    (computorVoting votes).voters.getVoteIndex 1 firstComputor 0 = some 0 := by
  have hzero : isZero firstComputor = false := by decide
  simp only [computorVoting, Voters.getVoteIndex, hzero, Bool.false_eq_true, if_false,
    List.find?_range_eq_some]
  exact ⟨by decide, by simp [maxVotes, NUMBER_OF_COMPUTORS], by simp⟩

lemma wrappingVote_writable (hk : k < maxVotes) :
    Writable (wholeVotes false) ⟨200, 2, 1000, 0, 0⟩ wrappingVote.groups 0 k := by
  refine ⟨by omega, 1, sentValue_of_lt ?_, by decide⟩
  exact hk.trans (by decide)

/-- The votes of all other computors are overwritten. -/
theorem wrapping_vote_not_isolated :
    ¬Isolated (wholeVotes false) (computorVoting fun _ => 0xff)
      ((computorVoting fun _ => 0xff).vote (wholeVotes false) 200 firstComputor wrappingVote).2
      wrappingVote.proposalIndex firstComputor := by
  have hoverrun : Overrun (wholeVotes false) (computorVoting fun _ => 0xff) 200 firstComputor
      wrappingVote 0 1 := by
    refine ⟨by decide, computorVoting_first _, by decide, by decide, fun j hj => ?_, by decide,
      by decide⟩
    exact wrappingVote_writable (Nat.lt_of_le_of_lt hj (by decide))
  exact hoverrun.not_isolated rfl

def singleVote : ProposalMultiVoteData :=
  { wrappingVote with voteCounts := fun i => if i.val = 0 then 1 else 0 }

theorem vote_isolated_singleVote :
    Isolated yesNoVotes (computorVoting fun _ => 0xff)
      ((computorVoting fun _ => 0xff).vote yesNoVotes 200 firstComputor singleVote).2
      singleVote.proposalIndex firstComputor := by
  refine (vote_isolated_iff yesNoVotes (computorVoting fun _ => 0xff) 200 firstComputor singleVote
    (by decide)).mpr ?_
  rintro ⟨first, k, h⟩
  exact absurd h.wraps (by decide)

end QubicCore.Proposals
