import QubicCore.Library.Bubble
import QubicCore.MathLib

/-!
# Computor revenue

Transactions of a tick are counted by category, one dimension for each computor as sender, each
contract as destination, and one for all others. A tick is compared with the window of
`REVENUE_WINDOW_SIZE` ticks around it, and the score goes to the leader of the tick. Since a window
is complete only `REVENUE_HALF_WINDOW` ticks later, the last ticks stand in a ring buffer and the
first ones in a separate array, from which the windows across the ends of the epoch are completed.

The counts of a tick have 16 bits, sums and scores 64. Tick offsets are below `2^32`.
-/

namespace QubicCore.Revenue

open Library MathLib Function

def REVENUE_HALF_WINDOW : Nat := NUMBER_OF_COMPUTORS - 1
def REVENUE_WINDOW_SIZE : Nat := 2 * REVENUE_HALF_WINDOW + 1
def REVENUE_SCALE : Nat := 1024
def REVENUE_BONUS_CAP : Nat := 256
def REVENUE_W_TX : Nat := 17
def REVENUE_W_ORACLE : Nat := 3
def REVENUE_W_SUM : Nat := REVENUE_W_TX + REVENUE_W_ORACLE
def REVENUE_DIVISOR : Nat := REVENUE_SCALE * (REVENUE_SCALE + REVENUE_BONUS_CAP) * REVENUE_SCALE
def REVENUE_IPC : Nat := ISSUANCE_RATE.toNat / NUMBER_OF_COMPUTORS
def REVENUE_DOGE_K : Nat := 2

/-! ## Factors -/

variable (score : Nat → Nat)

/-- Enter one score into the `quorum` best ones, in descending order. -/
def enterScore (sortedScore : Nat → Nat) (computorIndex : Nat) : Nat → Nat :=
  bubble (fun a b => decide (a < b)) (fun _ => 0) QUORUM
    (update sortedScore QUORUM (score computorIndex))

def getQuorumScore : Nat :=
  let sortedScore := (List.range NUMBER_OF_COMPUTORS).foldl (enterScore score) fun _ => 0
  if sortedScore (QUORUM - 1) = 0 then 1 else sortedScore (QUORUM - 1)

def computeRevFactor (scalingThreshold : Nat) (computorIndex : Nat) : Nat :=
  let quorumScore := getQuorumScore score
  if score computorIndex = 0 then 0
  else if score computorIndex ≥ quorumScore then scalingThreshold
  else scalingThreshold * score computorIndex % 2 ^ 64 / quorumScore

/-- A factor of the epoch; without any activity everyone has the full factor. -/
def activityFactor : Nat → Nat :=
  if (List.range NUMBER_OF_COMPUTORS).any (fun i => score i ≠ 0) then
    computeRevFactor score REVENUE_SCALE
  else fun _ => REVENUE_SCALE

/-! ## Scores in many dimensions -/

def txDim (contractCount : Nat) : Nat := NUMBER_OF_COMPUTORS + contractCount + 1

structure MultiDimRevenue where
  initialTick : Nat
  (revenueRing revenueHead : Nat → Nat → Nat)
  (windowSum txScore : Nat → Nat)
  /-- History of the calls to `finalizeTickScore`: tick offset and score. -/
  finalized : List (Nat × Nat)

/-- The state that `beginEpoch` sets. -/
def beginEpoch (initialTick : Nat) : MultiDimRevenue :=
  ⟨initialTick, fun _ _ => 0, fun _ _ => 0, fun _ => 0, fun _ => 0, []⟩

/-- The multipliers of the categories are all one. -/
def revenueMul (contractCount d : Nat) : Nat :=
  if d < NUMBER_OF_COMPUTORS then 1 else if d < NUMBER_OF_COMPUTORS + contractCount then 1 else 1

def tickScore (contractCount : Nat) (observed windowSum : Nat → Nat) : Nat :=
  let sums := (List.range (txDim contractCount)).foldl (fun (sums : Nat × Nat) d =>
    let ws := windowSum d
    let wo := REVENUE_WINDOW_SIZE * observed d % 2 ^ 64
    let m := revenueMul contractCount d
    let deficit := if wo ≥ ws then 0 else m * (ws - wo) % 2 ^ 64
    let cap := m * ws % 2 ^ 64
    ((sums.1 + deficit * deficit) % 2 ^ 64, (sums.2 + cap * cap) % 2 ^ 64)) (0, 0)
  if sums.2 = 0 then REVENUE_SCALE
  else
    let pen := irootK64 2 sums.1
    let cap := irootK64 2 sums.2
    (REVENUE_SCALE + 2 ^ 64 - REVENUE_SCALE * pen % 2 ^ 64 / cap) % 2 ^ 64

def leader (initialTick tickOffset : Nat) : Nat :=
  (initialTick + tickOffset) % 2 ^ 32 % NUMBER_OF_COMPUTORS

section

variable (contractCount : Nat) (m : MultiDimRevenue) (tickOffset : Nat)

def finalizeTickScore (observed windowSum : Nat → Nat) : MultiDimRevenue :=
  let score := tickScore contractCount observed windowSum
  let j := leader m.initialTick tickOffset
  { m with
    txScore := update m.txScore j ((m.txScore j + score) % 2 ^ 64)
    finalized := m.finalized ++ [(tickOffset, score)] }

def MultiDimRevenue.ringRow (t : Nat) : Nat → Nat := m.revenueRing (t % REVENUE_WINDOW_SIZE)

/-- The first half of `revenueOnTick`: the row of a tick replaces the one a window before it. -/
def recordTick (obs : Nat → Nat) : MultiDimRevenue :=
  let windowSum := if tickOffset ≥ REVENUE_WINDOW_SIZE then
      fun d => (m.windowSum d + 2 ^ 64 - m.ringRow tickOffset d) % 2 ^ 64
    else m.windowSum
  let v := fun d => obs d % 2 ^ 16
  { m with
    revenueRing := update m.revenueRing (tickOffset % REVENUE_WINDOW_SIZE) v
    windowSum := fun d => (windowSum d + v d) % 2 ^ 64
    revenueHead := if tickOffset < 2 * REVENUE_HALF_WINDOW then
        update m.revenueHead tickOffset v
      else m.revenueHead }

def revenueOnTick (obs : Nat → Nat) : MultiDimRevenue :=
  let m := recordTick m tickOffset obs
  if tickOffset ≥ 2 * REVENUE_HALF_WINDOW then
    let c := tickOffset - REVENUE_HALF_WINDOW
    finalizeTickScore contractCount m c (m.ringRow c) m.windowSum
  else m

def MultiDimRevenue.obsAt (x : Nat) : Nat → Nat :=
  if x < 2 * REVENUE_HALF_WINDOW then m.revenueHead x else m.ringRow x

/-- The window around the first of the last `REVENUE_HALF_WINDOW` ticks. -/
def firstEdgeWindow (tickEdge d : Nat) : Nat :=
  ((List.range (2 * REVENUE_HALF_WINDOW)).foldl (fun sum k =>
    (sum + m.ringRow (tickEdge - 2 * REVENUE_HALF_WINDOW + k) d) % 2 ^ 64) 0 +
      m.revenueHead 0 d) % 2 ^ 64

structure EdgeLoop where
  state : MultiDimRevenue
  c : Nat
  edgeWindowSum : Nat → Nat

def edgeStep (tickEdge : Nat) (e : EdgeLoop) (step : Nat) : EdgeLoop :=
  let m := finalizeTickScore contractCount e.state e.c (e.state.obsAt e.c) e.edgeWindowSum
  if step + 1 = 2 * REVENUE_HALF_WINDOW then { e with state := m }
  else
    let leaving := if e.c ≥ REVENUE_HALF_WINDOW then e.c - REVENUE_HALF_WINDOW
      else e.c + tickEdge - REVENUE_HALF_WINDOW
    let entering := if e.c + REVENUE_HALF_WINDOW + 1 < tickEdge then e.c + REVENUE_HALF_WINDOW + 1
      else e.c + REVENUE_HALF_WINDOW + 1 - tickEdge
    ⟨m, if e.c + 1 < tickEdge then e.c + 1 else 0,
      fun d => (e.edgeWindowSum d + 2 ^ 64 - m.obsAt leaving d + m.obsAt entering d) % 2 ^ 64⟩

def scoreEpochEdgeTicks (tickEdge : Nat) : MultiDimRevenue :=
  if tickEdge < REVENUE_WINDOW_SIZE then m
  else
    ((List.range (2 * REVENUE_HALF_WINDOW)).foldl (edgeStep contractCount tickEdge)
      ⟨m, tickEdge - REVENUE_HALF_WINDOW, firstEdgeWindow m tickEdge⟩).state

end

end QubicCore.Revenue
