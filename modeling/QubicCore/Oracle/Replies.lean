import QubicCore.Oracle.Basic

/-!
# Oracle engine: replies, commits, reveals and timeouts

A query is decided in two rounds. Computors first commit to the digest of their reply together
with a proof that they know it. Once `QUORUM` computors have committed to the same digest, the
reply is revealed by a transaction and checked against the digest and against the proofs.

A result `none` stands for a call that does not return or leaves an array.
-/

namespace QubicCore.Oracle

open Qpi Sorting Function

/-! ## Commits of one query -/

/-- One item of a reply commit transaction; the query ID is the 64-bit word read as signed. -/
structure CommitItem (D : Type) where
  queryId : Int
  (replyDigest replyKnowledgeProof : D)

namespace OracleReplyState

variable {D : Type} [DecidableEq D] (rs : OracleReplyState D)

def findHistIdx (digest : D) : Option Nat :=
  (List.range NUMBER_OF_COMPUTORS).find? fun histIdx =>
    rs.replyCommitHistogramCount histIdx = 0 ∨
      digest = rs.replyCommitDigests (rs.replyCommitHistogramIdx histIdx)

def mostCommitsCount : Nat := rs.replyCommitHistogramCount rs.mostCommitsHistIdx

def quorumCommitDigest : D :=
  rs.replyCommitDigests (rs.replyCommitHistogramIdx rs.mostCommitsHistIdx)

def countCommit (compIdx histIdx : Nat) : OracleReplyState D :=
  let rs := { rs with
    replyCommitHistogramIdx :=
      if rs.replyCommitHistogramCount histIdx = 0 then
        update rs.replyCommitHistogramIdx histIdx compIdx
      else rs.replyCommitHistogramIdx
    replyCommitHistogramCount := update rs.replyCommitHistogramCount histIdx
      (rs.replyCommitHistogramCount histIdx + 1)
    totalCommits := rs.totalCommits + 1 }
  { rs with
    mostCommitsHistIdx :=
      if rs.replyCommitHistogramCount histIdx >
          rs.replyCommitHistogramCount rs.mostCommitsHistIdx then histIdx
      else rs.mostCommitsHistIdx }

def storeCommit (compIdx tick : Nat) (item : CommitItem D) : OracleReplyState D :=
  { rs with
    replyCommitDigests := update rs.replyCommitDigests compIdx item.replyDigest
    replyCommitKnowledgeProofs :=
      update rs.replyCommitKnowledgeProofs compIdx item.replyKnowledgeProof
    replyCommitTicks := update rs.replyCommitTicks compIdx tick }

def saveCommit (compIdx tick : Nat) (item : CommitItem D) : Option (OracleReplyState D) :=
  let rs := rs.storeCommit compIdx tick item
  (rs.findHistIdx item.replyDigest).map (rs.countCommit compIdx)

end OracleReplyState

/-- Computor and tick of a commit whose digest and knowledge proof are right. -/
structure RevealCommitCheckComputorState where
  (commitTick computorIndex : Nat)

def computorIndexBytes (computorIdx : Nat) : List UInt8 :=
  [UInt8.ofNat computorIdx, UInt8.ofNat (computorIdx / 256)]

def correctCommits {D : Type} [DecidableEq D] (env : Env D) (rs : OracleReplyState D)
    (replyData : List UInt8) : List RevealCommitCheckComputorState :=
  ((List.range NUMBER_OF_COMPUTORS).filter fun computorIdx =>
    rs.replyCommitDigests computorIdx = rs.quorumCommitDigest ∧
      rs.replyCommitKnowledgeProofs computorIdx =
        env.K12 (replyData ++ computorIndexBytes computorIdx)).map fun computorIdx =>
    ⟨rs.replyCommitTicks computorIdx, computorIdx⟩

/-- One point for each of the first `QUORUM` commits in tick order and for those of the same tick
as the last of them. -/
def countRevenuePoints : Nat → Nat → List RevealCommitCheckComputorState → (Nat → Nat) → (Nat → Nat)
  | _, _, [], points => points
  | i, prevTick, commit :: rest, points =>
    if i ≥ QUORUM ∧ prevTick ≠ commit.commitTick then points
    else
      countRevenuePoints (i + 1) commit.commitTick rest
        (update points commit.computorIndex (points commit.computorIndex + 1))

def addRevenuePoints (commits : List RevealCommitCheckComputorState) (points : Nat → Nat) :
    Nat → Nat :=
  let sorted := quickSort (fun a b => decide (a.commitTick < b.commitTick)) .sortAscending
    commits.length (fun i => commits.getD i ⟨0, 0⟩) 0 commits.length
  countRevenuePoints 0 (sorted 0).commitTick ((List.range commits.length).map sorted) points

/-! ## The engine -/

/-- Message of an oracle machine: `OracleMachineReply` and the reply behind it. -/
structure MachineReply where
  oracleQueryId : Int
  oracleMachineErrorFlags : Nat
  replyData : List UInt8

structure CommitTransaction (D : Type) where
  sourcePublicKey : M256i
  tick : Nat
  items : List (CommitItem D)

structure RevealTransaction where
  sourcePublicKey : M256i
  tick : Nat
  queryId : Int
  replyData : List UInt8

namespace OracleEngine

variable {D : Type} (env : Env D) (s : OracleEngine D)

def findQuery (queryId : Int) : Option Nat :=
  (HashMap.get MAX_ORACLE_QUERIES env.hash s.queryIdToIndex queryId).filter
    fun queryIndex => queryIndex < s.oracleQueryCount

def setFlags (queryIndex flags : Nat) : OracleEngine D :=
  let oqm := s.queries queryIndex
  let oqm := { oqm with statusFlags := oqm.statusFlags ||| flags }
  { s with queries := update s.queries queryIndex oqm }

variable [DecidableEq D]

def processOracleMachineReply (replyMessage : MachineReply) (s : OracleEngine D) : OracleEngine D :=
  match s.findQuery env replyMessage.oracleQueryId with
  | none => s
  | some queryIndex =>
    let oqm := s.queries queryIndex
    if oqm.status ≠ .pending then s
    else
      let errorFlags := replyMessage.oracleMachineErrorFlags &&& ORACLE_FLAG_OM_ERROR_FLAGS
      let replySize := replyMessage.replyData.length
      if errorFlags ≠ 0 then s.setFlags queryIndex errorFlags
      else if replySize > MAX_ORACLE_REPLY_SIZE ∨
          replySize ≠ (oracleInterface oqm.interfaceIndex).replySize then
        s.setFlags queryIndex ORACLE_FLAG_BAD_SIZE_REPLY
      else
        let replyDigest := env.K12 replyMessage.replyData
        let replyStateIdx := oqm.statusVar.replyStateIndex
        let replyState := s.replyStates replyStateIdx
        if replyState.queryId ≠ replyMessage.oracleQueryId then s
        else if replyState.ownReplySize ≠ 0 then
          if replyDigest ≠ replyState.ownReplyDigest then
            s.setFlags queryIndex ORACLE_FLAG_OM_DISAGREE
          else s
        else
          let replyState := { replyState with
            ownReplyData := replyMessage.replyData
            ownReplyDigest := replyDigest
            ownReplySize := replySize }
          { s.setFlags queryIndex ORACLE_FLAG_REPLY_RECEIVED with
            replyStates := update s.replyStates replyStateIdx replyState
            pendingCommitReplyStateIndices := (s.pendingCommitReplyStateIndices.add
              MAX_SIMULTANEOUS_ORACLE_QUERIES replyStateIdx).2 }

variable (queryIndex : Nat)

def scheduleNotification : OracleEngine D :=
  let less := fun a b : Nat => decide (a < b)
  match (s.queries queryIndex).type with
  | .userQuery .. =>
    { s with finishedUserQueryIndexQueue := (s.finishedUserQueryIndexQueue.insert less
        MAX_SIMULTANEOUS_ORACLE_QUERIES queryIndex).2 }
  | _ =>
    { s with notificationQueryIndexQueue := (s.notificationQueryIndexQueue.insert less
        MAX_SIMULTANEOUS_ORACLE_QUERIES queryIndex).2 }

variable [Zero D]

/-- A slot is removed from a set, if the set is one of those that are searched. -/
def removeSlot (drop : Bool) (m : UnsortedMultiset Nat) (replyStateIdx : Nat) :
    Option (UnsortedMultiset Nat) :=
  if drop then (m.removeByValue replyStateIdx).map Prod.snd else some m

/-- The common end of a query: new metadata, out of the pending queries and of the given sets of
reply slots, reply slot freed, notification scheduled. -/
def finishQuery (oqm : OracleQueryMetadata) (dropCommit dropReveal : Bool)
    (s : OracleEngine D) : Option (OracleEngine D) := do
  let replyStateIdx := (s.queries queryIndex).statusVar.replyStateIndex
  let (_, pendingQueryIndices) ← s.pendingQueryIndices.removeByValue queryIndex
  let pendingCommitReplyStateIndices ←
    removeSlot dropCommit s.pendingCommitReplyStateIndices replyStateIdx
  let pendingRevealReplyStateIndices ←
    removeSlot dropReveal s.pendingRevealReplyStateIndices replyStateIdx
  let s := { s with
    queries := update s.queries queryIndex oqm
    pendingQueryIndices
    pendingCommitReplyStateIndices
    pendingRevealReplyStateIndices
    replyStates := update s.replyStates replyStateIdx .zero }
  some (s.scheduleNotification queryIndex)

/-- What follows from the commits of a query once a further one is saved. -/
def decideCommit (s : OracleEngine D) : Option (OracleEngine D) :=
  let oqm := s.queries queryIndex
  let replyStateIdx := oqm.statusVar.replyStateIndex
  let replyState := s.replyStates replyStateIdx
  let mostCommitsCount := replyState.mostCommitsCount
  if mostCommitsCount ≥ QUORUM then
    if oqm.status ≠ .committed then do
      let (_, pendingCommitReplyStateIndices) ←
        s.pendingCommitReplyStateIndices.removeByValue replyStateIdx
      some { s with
        queries := update s.queries queryIndex { oqm with status := .committed }
        pendingCommitReplyStateIndices
        pendingRevealReplyStateIndices := (s.pendingRevealReplyStateIndices.add
          MAX_SIMULTANEOUS_ORACLE_QUERIES replyStateIdx).2 }
    else some s
  else if replyState.totalCommits - mostCommitsCount > NUMBER_OF_COMPUTORS - QUORUM then
    let oqm := { oqm with
      status := .unresolvable
      statusVar := .failure replyState.totalCommits mostCommitsCount }
    s.finishQuery queryIndex oqm true false
  else some s

def processCommitItem (compIdx tick : Nat) (s : OracleEngine D)
    (item : CommitItem D) : Option (OracleEngine D) :=
  match s.findQuery env item.queryId with
  | none => some s
  | some queryIndex =>
    let oqm := s.queries queryIndex
    if oqm.status ≠ .pending ∧ oqm.status ≠ .committed then some s
    else
      let replyStateIdx := oqm.statusVar.replyStateIndex
      let replyState := s.replyStates replyStateIdx
      if replyState.queryId ≠ item.queryId then some s
      else if replyState.replyCommitTicks compIdx ≠ 0 then some s
      else do
        let replyState ← replyState.saveCommit compIdx tick item
        let s := { s with replyStates := update s.replyStates replyStateIdx replyState }
        s.decideCommit queryIndex

def processOracleReplyCommitTransaction (transaction : CommitTransaction D)
    (s : OracleEngine D) : Option (Bool × OracleEngine D) :=
  if transaction.items = [] then some (false, s)
  else
    match env.computorIndex transaction.sourcePublicKey with
    | none => some (false, s)
    | some compIdx => do
      let s ← transaction.items.foldlM (processCommitItem env compIdx transaction.tick) s
      some (true, s)

def checkReplyRevealTransaction (transaction : RevealTransaction)
    (s : OracleEngine D) : Option Nat × OracleEngine D :=
  if env.computorIndex transaction.sourcePublicKey = none then (none, s)
  else
    match s.findQuery env transaction.queryId with
    | none => (none, s)
    | some queryIndex =>
      let oqm := s.queries queryIndex
      if oqm.status ≠ .committed then (none, s)
      else if transaction.replyData.length ≠ (oracleInterface oqm.interfaceIndex).replySize then
        (none, s.setFlags queryIndex ORACLE_FLAG_BAD_SIZE_REVEAL)
      else
        let replyState := s.replyStates oqm.statusVar.replyStateIndex
        if replyState.queryId ≠ transaction.queryId then (none, s)
        else if env.K12 transaction.replyData ≠ replyState.quorumCommitDigest then (none, s)
        else (some queryIndex, s)

def setLastRevealed (oqm : OracleQueryMetadata) : OracleEngine D :=
  match oqm.type with
  | .contractSubscription subscriptionId _ _ =>
    let subscription := { s.subscriptions subscriptionId with lastRevealedQueryId := oqm.queryId }
    { s with subscriptions := update s.subscriptions subscriptionId subscription }
  | _ => s

def processOracleReplyRevealTransaction (transaction : RevealTransaction)
    (txSlotInTickData : Nat) (s : OracleEngine D) : Option (Bool × OracleEngine D) :=
  match s.checkReplyRevealTransaction env transaction with
  | (none, s) => some (false, s)
  | (some queryIndex, s) => do
    let oqm := s.queries queryIndex
    let replyState := s.replyStates oqm.statusVar.replyStateIndex
    let commits := correctCommits env replyState transaction.replyData
    let s := { s with revenuePoints := addRevenuePoints commits s.revenuePoints }
    if commits.length < QUORUM then
      let oqm := { oqm with
        status := .unresolvable
        statusFlags := oqm.statusFlags ||| ORACLE_FLAG_FAKE_COMMITS
        statusVar := .failure replyState.totalCommits commits.length }
      let s ← s.finishQuery queryIndex oqm false true
      some (true, s)
    else
      let oqm := { oqm with
        status := .success
        statusVar := .success transaction.tick txSlotInTickData }
      let s ← (s.setLastRevealed oqm).finishQuery queryIndex oqm false true
      some (true, s)

def processTimeout (now : DateAndTime) (s : OracleEngine D) (i : Nat) : Option (OracleEngine D) :=
  let queryIndex := s.pendingQueryIndices.values i
  let oqm := s.queries queryIndex
  if oqm.timeout ≤ now then
    let replyState := s.replyStates oqm.statusVar.replyStateIndex
    let oqm := { oqm with
      status := .timeout
      statusVar := .failure replyState.totalCommits replyState.mostCommitsCount }
    s.finishQuery queryIndex oqm true true
  else some s

/-- The number of positions is that before the first removal. -/
def processTimeouts (now : DateAndTime) (s : OracleEngine D) : Option (OracleEngine D) :=
  (List.range s.pendingQueryIndices.numValues).foldlM (processTimeout now) s

end OracleEngine

end QubicCore.Oracle
