import QubicCore.Library.TwoBit
import QubicCore.Platform

/-!
# Proposals and the multi-vote form of `vote`

A proposal keeps one stored vote for each of the 676 vote slots. There are three kinds of storage:
one byte a vote, one `sint64` a vote if scalar votes are supported, and two bits a vote for yes/no
proposals.

Voters are the computors, with one slot each, or the shareholders of a contract, with as many
neighbouring slots as they had shares when the proposal was set.
-/

namespace QubicCore.Proposals

open Library Function

def NO_VOTE_VALUE : Int := -2 ^ 63

def maxVotes : Nat := NUMBER_OF_COMPUTORS

/-- The type `Class::Variable | 0`, the only one with scalar votes. -/
def VariableScalarMean : Nat := 0x200

def optionCount (proposalType : Nat) : Nat := proposalType &&& 0xff

structure ProposalData where
  (epoch type tick : Nat)
  (minValue maxValue : Int)

/-- A vote storage: how a vote is set and read, which values a proposal accepts, and for which
proposals the storage is made. A failing `setVoteValue` returns `none` and writes nothing. -/
structure VoteStorage (σ : Type) where
  setVoteValue : ProposalData → σ → Nat → Int → Option σ
  getVoteValue : σ → Nat → Int
  accepts : ProposalData → Int → Bool
  fits : ProposalData → Bool
  set_of_not : ∀ {p : ProposalData} (votes : σ) {i : Nat} {value : Int},
    ¬(i < maxVotes ∧ accepts p value) → setVoteValue p votes i value = none
  set_of_accepts : ∀ {p : ProposalData} (votes : σ) {i : Nat} {value : Int}, fits p →
    i < maxVotes → accepts p value → ∃ votes', setVoteValue p votes i value = some votes' ∧
      ∀ j, getVoteValue votes' j = if j = i then value else getVoteValue votes j

/-! ## Storage of whole votes -/

variable (supportScalarVotes : Bool) (p : ProposalData) (voteValue : Int)

/-- The vote values of a proposal: none, a scalar in range, or an option. -/
def acceptsVote : Bool :=
  if voteValue = NO_VOTE_VALUE then true
  else if p.type = VariableScalarMean then
    supportScalarVotes && decide (voteValue ≥ p.minValue ∧ voteValue ≤ p.maxValue)
  else decide (voteValue ≥ 0 ∧ voteValue < optionCount p.type)

/-- The stored form of no vote. -/
def noVote : Int := if supportScalarVotes then NO_VOTE_VALUE else 0xff

/-- The cast to the storage type, `sint64` or `uint8`. -/
def storeVote : Int := if supportScalarVotes then voteValue else voteValue % 2 ^ 8

def setVoteValue (votes : Nat → Int) (voteIndex : Nat) (voteValue : Int) : Option (Nat → Int) :=
  if voteIndex < maxVotes then
    if voteValue = NO_VOTE_VALUE then
      some (update votes voteIndex (noVote supportScalarVotes))
    else if p.type = VariableScalarMean then
      if supportScalarVotes ∧ voteValue ≥ p.minValue ∧ voteValue ≤ p.maxValue then
        some (update votes voteIndex (storeVote supportScalarVotes voteValue))
      else none
    else if voteValue ≥ 0 ∧ voteValue < optionCount p.type then
      some (update votes voteIndex (storeVote supportScalarVotes voteValue))
    else none
  else none

def getVoteValue (votes : Nat → Int) (voteIndex : Nat) : Int :=
  if voteIndex < maxVotes then
    if supportScalarVotes then votes voteIndex
    else if votes voteIndex ≠ 0xff then votes voteIndex else NO_VOTE_VALUE
  else NO_VOTE_VALUE

lemma optionCount_lt (proposalType : Nat) : optionCount proposalType < 256 := by
  rw [optionCount, show 0xff = 2 ^ 8 - 1 from rfl, Nat.and_two_pow_sub_one_eq_mod]
  exact Nat.mod_lt _ (by norm_num)

lemma setVoteValue_of_accepts {supportScalarVotes : Bool} {p : ProposalData} {votes : Nat → Int}
    {i : Nat} {value : Int} (hi : i < maxVotes)
    (h : acceptsVote supportScalarVotes p value) :
    setVoteValue supportScalarVotes p votes i value =
      some (update votes i (if value = NO_VOTE_VALUE then noVote supportScalarVotes
        else storeVote supportScalarVotes value)) := by
  unfold acceptsVote at h
  unfold setVoteValue
  split_ifs at h ⊢ <;> simp_all

/-- An accepted value is read back as it was sent. -/
lemma getVoteValue_stored {supportScalarVotes : Bool} {p : ProposalData} {votes : Nat → Int}
    {i : Nat} {value : Int} (hi : i < maxVotes) (h : acceptsVote supportScalarVotes p value)
    (hv : votes i = if value = NO_VOTE_VALUE then noVote supportScalarVotes
      else storeVote supportScalarVotes value) :
    getVoteValue supportScalarVotes votes i = value := by
  have := optionCount_lt p.type
  unfold getVoteValue
  rw [if_pos hi, hv]
  cases supportScalarVotes with
  | true =>
    rw [if_pos rfl]
    split_ifs with hno
    · exact hno.symm
    · rfl
  | false =>
    unfold acceptsVote at h
    split_ifs at h ⊢ with hno htype <;> simp_all [noVote, storeVote]
    all_goals omega

/-- One `sint64` a vote, or one byte a vote if scalar votes are not supported. -/
def wholeVotes : VoteStorage (Nat → Int) where
  setVoteValue := setVoteValue supportScalarVotes
  getVoteValue := getVoteValue supportScalarVotes
  accepts := acceptsVote supportScalarVotes
  fits _ := true
  set_of_not {p} votes {i value} h := by
    unfold setVoteValue acceptsVote at *
    split_ifs at h ⊢ <;> simp_all
  set_of_accepts {p} votes {i value} _ hi h := by
    refine ⟨_, setVoteValue_of_accepts hi h, fun j => ?_⟩
    by_cases hji : j = i
    · rw [if_pos hji, hji]
      exact getVoteValue_stored hi h (update_self ..)
    · simp [getVoteValue, hji]

/-! ## Two bits a vote -/

/-- Yes/no proposals have at most three options, which two bits can hold beside no vote. -/
def yesNoFits : Bool := optionCount p.type ≤ 3

def acceptsYesNo : Bool :=
  voteValue = NO_VOTE_VALUE ∨ (voteValue ≥ 0 ∧ voteValue < optionCount p.type)

variable (votes : Nat → BitVec 8)

def setYesNoValue (voteIndex : Nat) (voteValue : Int) : Option (Nat → BitVec 8) :=
  let word := votes (voteIndex / 4)
  let shift := 2 * (voteIndex % 4)
  if voteIndex < maxVotes then
    if voteValue = NO_VOTE_VALUE then
      some (update votes (voteIndex / 4) (word ||| (3#8 <<< shift)))
    else if voteValue ≥ 0 ∧ voteValue < optionCount p.type then
      some (update votes (voteIndex / 4)
        ((word &&& ~~~(3#8 <<< shift)) ||| (BitVec.ofInt 8 voteValue <<< shift)))
    else none
  else none

def getYesNoValue (voteIndex : Nat) : Int :=
  if voteIndex < maxVotes then
    let value := TwoBit.read 4 votes voteIndex
    if value ≠ 3 then value else NO_VOTE_VALUE
  else NO_VOTE_VALUE

lemma read_noVote (i j : Nat) :
    TwoBit.read 4 (update votes (i / 4) (votes (i / 4) ||| (3#8 <<< (2 * (i % 4))))) j =
      if j = i then 3 else TwoBit.read 4 votes j := by
  refine TwoBit.read_update (f := fun _ => 3) votes (by norm_num) (fun s hs => ?_) j
  have hlt := TwoBit.field_lt (votes (i / 4)) (s := s) (by omega)
  rw [TwoBit.field_or _ (by decide) (by omega)]
  split_ifs
  · interval_cases TwoBit.field (votes (i / 4)) s <;> rfl
  · rfl

lemma read_vote (i j : Nat) {v : BitVec 8} (hv : v.toNat < 4) :
    TwoBit.read 4 (update votes (i / 4)
        ((votes (i / 4) &&& ~~~(3#8 <<< (2 * (i % 4)))) ||| (v <<< (2 * (i % 4))))) j =
      if j = i then v.toNat else TwoBit.read 4 votes j := by
  refine TwoBit.read_update (f := fun _ => v.toNat) votes (by norm_num) (fun s hs => ?_) j
  rw [TwoBit.field_or _ hv (by omega), TwoBit.field_clear _ (by omega)]
  split_ifs <;> simp

def yesNoVotes : VoteStorage (Nat → BitVec 8) where
  setVoteValue := setYesNoValue
  getVoteValue := getYesNoValue
  accepts := acceptsYesNo
  fits := yesNoFits
  set_of_not {p} votes {i value} h := by
    unfold setYesNoValue acceptsYesNo at *
    split_ifs at h ⊢ <;> simp_all
  set_of_accepts {p} votes {i value} hfits hi h := by
    simp only [yesNoFits, decide_eq_true_eq] at hfits
    by_cases hno : value = NO_VOTE_VALUE
    · refine ⟨_, by simp only [setYesNoValue, if_pos hi, if_pos hno]; rfl, fun j => ?_⟩
      simp only [getYesNoValue, read_noVote]
      by_cases hji : j = i
      · simp [hji, hi, hno]
      · simp [hji]
    · simp only [acceptsYesNo, hno, false_or, decide_eq_true_eq] at h
      refine ⟨_, by simp only [setYesNoValue, if_pos hi, if_neg hno, if_pos h]; rfl, fun j => ?_⟩
      have hv : ((BitVec.ofInt 8 value).toNat : Int) = value := by
        rw [BitVec.toNat_ofInt]
        omega
      simp only [getYesNoValue, read_vote votes i j (v := BitVec.ofInt 8 value) (by omega)]
      by_cases hji : j = i
      · simp only [hji, if_pos hi, if_true]
        rw [if_pos (by omega), hv]
      · simp [hji]

/-! ## Voters -/

inductive Voters where
  | computors (computor : Nat → M256i)
  | shareholders (currentProposalShareholders : Nat → Nat → M256i)

namespace Voters

variable (voters : Voters)

def voterAt (proposalIndex voteIndex : Nat) : M256i :=
  match voters with
  | computors computor => computor voteIndex
  | shareholders owner => owner proposalIndex voteIndex

/-- The first slot of a voter; `none` is `INVALID_VOTE_INDEX`. -/
def getVoteIndex (maxProposals : Nat) (voterId : M256i) (proposalIndex : Nat) : Option Nat :=
  match voters with
  | computors computor =>
    if isZero voterId then none
    else (List.range maxVotes).find? fun compIdx => computor compIdx = voterId
  | shareholders owner =>
    if isZero voterId ∨ proposalIndex ≥ maxProposals then none
    else (List.range maxVotes).find? fun voteIdx => owner proposalIndex voteIdx = voterId

/-- The number of slots of a voter, given the first: one, or as many as follow with the same id. -/
def getVoteCount (maxProposals voteIndex proposalIndex : Nat) : Nat :=
  match voters with
  | computors _ => if voteIndex ≥ maxVotes then 0 else 1
  | shareholders owner =>
    if voteIndex ≥ maxVotes ∨ proposalIndex ≥ maxProposals then 0
    else 1 + ((List.range' (voteIndex + 1) (maxVotes - (voteIndex + 1))).takeWhile fun idx =>
      owner proposalIndex idx = owner proposalIndex voteIndex).length

end Voters

/-! ## Voting -/

structure Proposal (σ : Type) where
  data : ProposalData
  votes : σ

structure ProposalVoting (σ : Type) where
  maxProposals : Nat
  voters : Voters
  proposals : Nat → Proposal σ

structure ProposalMultiVoteData where
  (proposalIndex proposalType proposalTick : Nat)
  voteValues : Fin 8 → Int
  voteCounts : Fin 8 → BitVec 32

variable {σ : Type} (S : VoteStorage σ) (p : ProposalData)

/-- Set `count` votes from `voteIndex` on to one value, up to the first that fails. Returns whether
all were set, the votes, and the index after the last one tried. -/
def setVotes (value : Int) : Nat → σ → Nat → Bool × σ × Nat
  | 0, votes, voteIndex => (true, votes, voteIndex)
  | count + 1, votes, voteIndex =>
    match S.setVoteValue p votes voteIndex value with
    | some votes => setVotes value count votes (voteIndex + 1)
    | none => (false, votes, voteIndex + 1)

def setVoteGroups : List (Int × Nat) → σ → Nat → Bool × σ × Nat
  | [], votes, voteIndex => (true, votes, voteIndex)
  | group :: groups, votes, voteIndex =>
    match setVotes S p group.1 group.2 votes voteIndex with
    | (true, votes, voteIndex) => setVoteGroups groups votes voteIndex
    | (false, votes, voteIndex) => (false, votes, voteIndex)

def clearVotes : Nat → σ → Nat → σ
  | 0, votes, _ => votes
  | count + 1, votes, voteIndex =>
    clearVotes count ((S.setVoteValue p votes voteIndex NO_VOTE_VALUE).getD votes) (voteIndex + 1)

namespace ProposalMultiVoteData

variable (vote : ProposalMultiVoteData)

def groups : List (Int × Nat) :=
  (List.finRange 8).map fun i => (vote.voteValues i, (vote.voteCounts i).toNat)

/-- The sum of the counts, an `unsigned int`. -/
def voteCountSent : Nat :=
  (List.finRange 8).foldl (fun sum i => (sum + (vote.voteCounts i).toNat) % 2 ^ 32) 0

end ProposalMultiVoteData

/-- The writes of `vote`, given the slots of the voter. -/
def castVotes (votes : σ) (voteIndexBegin voteCountTotal : Nat) (vote : ProposalMultiVoteData) :
    Bool × σ :=
  if vote.voteCountSent > voteCountTotal then (false, votes)
  else if vote.voteCountSent = 0 then
    -- Count 0 means all votes with the same value.
    match setVotes S p (vote.voteValues 0) voteCountTotal votes voteIndexBegin with
    | (true, votes, _) => (true, votes)
    | (false, votes, _) => (false, clearVotes S p voteCountTotal votes voteIndexBegin)
  else
    match setVoteGroups S p vote.groups votes voteIndexBegin with
    | (true, votes, voteIndex) =>
      (true, clearVotes S p (voteIndexBegin + voteCountTotal - voteIndex) votes voteIndex)
    | (false, votes, _) => (false, clearVotes S p voteCountTotal votes voteIndexBegin)

def ProposalVoting.isOpenFor (pv : ProposalVoting σ) (epoch : Nat) (vote : ProposalMultiVoteData) :
    Bool :=
  vote.proposalIndex < pv.maxProposals ∧
    vote.proposalType = (pv.proposals vote.proposalIndex).data.type ∧
    epoch = (pv.proposals vote.proposalIndex).data.epoch ∧
    vote.proposalTick = (pv.proposals vote.proposalIndex).data.tick

def ProposalVoting.vote (pv : ProposalVoting σ) (epoch : Nat) (voter : M256i)
    (vote : ProposalMultiVoteData) : Bool × ProposalVoting σ :=
  if pv.isOpenFor epoch vote then
    match pv.voters.getVoteIndex pv.maxProposals voter vote.proposalIndex with
    | none => (false, pv)
    | some voteIndexBegin =>
      let proposal := pv.proposals vote.proposalIndex
      let voteCountTotal := pv.voters.getVoteCount pv.maxProposals voteIndexBegin vote.proposalIndex
      let (okay, votes) :=
        castVotes S proposal.data proposal.votes voteIndexBegin voteCountTotal vote
      (okay, { pv with
        proposals := update pv.proposals vote.proposalIndex
          { proposal with votes := votes } })
  else (false, pv)

end QubicCore.Proposals
