import QubicCore.Library.Bubble
import QubicCore.Platform

/-!
# The miner ranking of an epoch

The table of miners starts with the block of the epoch's computors; candidates follow in a block of
their own. A ranked solution improves the entry of its miner, adds an entry or replaces the last
one, and the entry moves up in its block. The computors of the next epoch are the best of the
computors, as many as a quorum has, and the best of the other computors and an equal number of
candidates together.
-/

namespace QubicCore.Mining

open Library

def MAX_NUMBER_OF_MINERS : Nat := 8192

def NO_MINER_SCORE : UInt32 := 0xFFFFFFFF

/-- An entry of the arrays `minerPublicKeys`, `minerScores` and `minerBestScoreTicks`. -/
structure Miner where
  publicKey : M256i
  (score tick : UInt32)

structure Competitor extends Miner where
  computorStatus : Bool

structure Ranking where
  miners : Nat → Miner
  numberOfMiners : Nat
  competitors : Nat → Competitor
  (minimumComputorScore minimumCandidateScore : UInt32)
  futureComputors : Nat → M256i

def contested : Nat := NUMBER_OF_COMPUTORS - QUORUM

def ranksBelow (scoreA tickA scoreB tickB : UInt32) : Bool :=
  if scoreA ≠ scoreB then scoreA > scoreB else tickA > tickB

def Miner.below (a b : Miner) : Bool := ranksBelow a.score a.tick b.score b.tick

def Competitor.below (a b : Competitor) : Bool := a.toMiner.below b.toMiner

namespace Ranking

def beginEpoch : Ranking where
  miners := fun _ => ⟨0, NO_MINER_SCORE, 0⟩
  numberOfMiners := NUMBER_OF_COMPUTORS
  competitors := fun _ => ⟨⟨0, NO_MINER_SCORE, 0⟩, false⟩
  minimumComputorScore := NO_MINER_SCORE
  minimumCandidateScore := NO_MINER_SCORE
  futureComputors := fun _ => 0

variable (r : Ranking)

def setMiner (i : Nat) (m : Miner) : Ranking :=
  { r with miners := Function.update r.miners i m }

/-- Record a score in the table, and the index of the entry if one changed. -/
def enter (sourcePublicKey : M256i) (newScore newTick : UInt32) : Ranking × Option Nat :=
  match (List.range r.numberOfMiners).find? fun i => (r.miners i).publicKey = sourcePublicKey with
  | some minerIndex =>
    if newScore < (r.miners minerIndex).score then
      (r.setMiner minerIndex { r.miners minerIndex with score := newScore, tick := newTick },
        some minerIndex)
    else (r, none)
  | none =>
    if r.numberOfMiners < MAX_NUMBER_OF_MINERS then
      ({ r.setMiner r.numberOfMiners ⟨sourcePublicKey, newScore, newTick⟩ with
          numberOfMiners := r.numberOfMiners + 1 }, some r.numberOfMiners)
    else
      let worstIndex := r.numberOfMiners - 1
      if ranksBelow (r.miners worstIndex).score (r.miners worstIndex).tick newScore newTick then
        (r.setMiner worstIndex ⟨sourcePublicKey, newScore, newTick⟩, some worstIndex)
      else (r, none)

def blockStart (minerIndex : Nat) : Nat :=
  if minerIndex < NUMBER_OF_COMPUTORS then 0 else NUMBER_OF_COMPUTORS

def moveUp (minerIndex : Nat) : Ranking :=
  { r with miners := bubble Miner.below blockStart minerIndex r.miners }

/-- The competitors before they are sorted: the worst computors, then the best candidates. The
public key of a missing candidate is left as it was. -/
def combine : Ranking :=
  { r with competitors := fun k =>
      if k < contested then ⟨r.miners (QUORUM + k), true⟩
      else if k < contested * 2 then
        if NUMBER_OF_COMPUTORS + (k - contested) < r.numberOfMiners then
          ⟨r.miners (NUMBER_OF_COMPUTORS + (k - contested)), false⟩
        else ⟨⟨(r.competitors k).publicKey, NO_MINER_SCORE, 0⟩, false⟩
      else r.competitors k }

/-- Insert the candidates among the computors. -/
def sortCompetitors : Ranking :=
  { r with competitors := insertFrom Competitor.below contested contested r.competitors }

def setMinimumScores : Ranking :=
  let minimumComputorScore := (r.competitors (contested - 1)).score
  let (minimumCandidateScore, candidateCounter) := (List.range (contested * 2)).foldl
    (fun (s : UInt32 × UInt8) i =>
      if !(r.competitors i).computorStatus then ((r.competitors i).score, s.2 + 1) else s)
    (r.minimumCandidateScore, 0)
  { r with
    minimumComputorScore
    minimumCandidateScore :=
      if candidateCounter.toNat < contested then minimumComputorScore else minimumCandidateScore }

def setFutureComputors : Ranking :=
  { r with futureComputors := fun i =>
      if i < QUORUM then (r.miners i).publicKey
      else if i < NUMBER_OF_COMPUTORS then (r.competitors (i - QUORUM)).publicKey
      else r.futureComputors i }

def updateMinerRankingAndFutureComputors (sourcePublicKey : M256i)
    (newScore newTick : UInt32) : Ranking :=
  let (r, minerEntryChanged) := r.enter sourcePublicKey newScore newTick
  let r := minerEntryChanged.elim r r.moveUp
  r.combine.sortCompetitors.setMinimumScores.setFutureComputors

def run (history : List (M256i × UInt32 × UInt32)) : Ranking :=
  history.foldl (fun r (publicKey, score, tick) =>
    r.updateMinerRankingAndFutureComputors publicKey score tick) r

end Ranking

/-! ## The ranking order -/

/-- The order of ranks: smaller is better. -/
def Miner.rank (m : Miner) : ℕ ×ₗ ℕ := toLex (m.score.toNat, m.tick.toNat)

def Competitor.place (c : Competitor) : (ℕ ×ₗ ℕ) ×ₗ ℕ :=
  toLex (c.toMiner.rank, if c.computorStatus then 0 else 1)

lemma Miner.below_iff (a b : Miner) : a.below b ↔ b.rank < a.rank := by
  simp only [below, ranksBelow, rank, Prod.Lex.toLex_lt_toLex, ← UInt32.lt_iff_toNat_lt,
    UInt32.toNat_inj]
  split_ifs with hscore
  · simp [Ne.symm hscore]
  · simp [not_not.1 hscore]

lemma Competitor.below_iff (c x : Competitor) (hc : c.computorStatus = false) :
    x.below c ↔ c.place < x.place := by
  simp only [below, Miner.below_iff, place, Prod.Lex.toLex_lt_toLex, hc]
  cases x.computorStatus <;> simp

lemma Competitor.place_le {c x : Competitor} (hc : c.computorStatus)
    (hrank : c.toMiner.rank ≤ x.toMiner.rank) : c.place ≤ x.place := by
  simp only [place, Prod.Lex.toLex_le_toLex, hc]
  rcases hrank.lt_or_eq with h | h
  · exact .inl h
  · exact .inr ⟨h, by simp⟩

/-- The order in which the competitors are selected: `x` does not rank below `y`, and if `x` is a
candidate and `y` a computor then `y` ranks below `x`. -/
def Competitor.precedes (x y : Competitor) : Prop :=
  x.below y = false ∧ (x.computorStatus = false → y.computorStatus → y.below x)

lemma Competitor.precedes_of_place_le {x y : Competitor} (h : x.place ≤ y.place) :
    x.precedes y := by
  simp only [place, Prod.Lex.toLex_le_toLex] at h
  constructor
  · rw [← Bool.not_eq_true, below, Miner.below_iff, not_lt]
    rcases h with h | h
    · exact h.le
    · exact h.1.le
  · intro hx hy
    rw [below, Miner.below_iff]
    simpa [hx, hy] using h

end QubicCore.Mining
