import QubicCore.Oracle.UnsortedMultiset
import QubicCore.Qpi.DateAndTime
import QubicCore.Qpi.HashMap
import QubicCore.Sorting

/-!
# Oracle engine: state and start of queries

Queries of an epoch are kept in the order in which they start. A query that waits for its reply owns
one of `MAX_SIMULTANEOUS_ORACLE_QUERIES` reply slots, where the commits of the computors are
collected. Digests are of an arbitrary type `D` with a zero.

Left out are the statistics, the log, the debug output and the messages to the oracle machines.
-/

namespace QubicCore.Oracle

open Library.Probing Qpi Sorting

def NUMBER_OF_TRANSACTIONS_PER_TICK : Nat := 4096
def MAX_NUMBER_OF_CONTRACTS : Nat := 1024
def MAX_ORACLE_QUERIES : Nat := 2 ^ 21
def ORACLE_QUERY_STORAGE_SIZE : Nat := MAX_ORACLE_QUERIES * 256
def MAX_SIMULTANEOUS_ORACLE_QUERIES : Nat := 1024
def MAX_ORACLE_SUBSCRIPTIONS : Nat := 2 ^ 13
def MAX_ORACLE_SUBSCRIBERS : Nat := MAX_ORACLE_SUBSCRIPTIONS * 16
def MAX_ORACLE_TIMEOUT_MILLISEC : Nat := 3600 * 1000
def MIN_ORACLE_QUERY_FEE : Int := 10
def MAX_ORACLE_REPLY_SIZE : Nat := 1024 - 16

def ORACLE_FLAG_REPLY_PENDING : Nat := 0x0
def ORACLE_FLAG_OM_ERROR_FLAGS : Nat := 0xff
def ORACLE_FLAG_REPLY_RECEIVED : Nat := 0x100
def ORACLE_FLAG_BAD_SIZE_REPLY : Nat := 0x200
def ORACLE_FLAG_OM_DISAGREE : Nat := 0x400
def ORACLE_FLAG_BAD_SIZE_REVEAL : Nat := 0x800
def ORACLE_FLAG_FAKE_COMMITS : Nat := 0x1000

structure OracleInterface where
  (querySize replySize : Nat)
  queryFee : Int

/-- The interfaces `Price`, `Mock`, `DogeShareValidation`, `EvmLogRead` and `QubicLogRead`. -/
def oracleInterfaces : List OracleInterface :=
  [⟨104, 16, 10⟩, ⟨8, 16, 10⟩, ⟨1008, 8, 1000⟩, ⟨48, 440, 1000⟩, ⟨48, 288, 100⟩]

def oracleInterfacesCount : Nat := oracleInterfaces.length

def oracleInterface (interfaceIndex : Nat) : OracleInterface :=
  oracleInterfaces.getD interfaceIndex ⟨0, 0, 0⟩

inductive QueryType where
  | contractQuery (notificationProcId queryStorageOffset queryingContract : Nat)
  | contractSubscription (subscriptionId queryStorageOffset subscriberCount : Nat)
  | userQuery (queryTxIndex : Nat) (queryingEntity : M256i)

inductive QueryStatus where
  | unknown
  | pending
  | committed
  | success
  | timeout
  | unresolvable
deriving DecidableEq

inductive StatusVar where
  | pending (replyStateIndex : Nat)
  | success (revealTick revealTxIndex : Nat)
  | failure (totalCommits agreeingCommits : Nat)

/-- The member `pending.replyStateIndex`, read from whatever the union holds. -/
def StatusVar.replyStateIndex : StatusVar → Nat
  | .pending replyStateIndex => replyStateIndex
  | .success revealTick _ => revealTick
  | .failure totalCommits agreeingCommits => totalCommits + agreeingCommits * 2 ^ 16

structure OracleQueryMetadata where
  queryId : Int
  type : QueryType
  status : QueryStatus
  (statusFlags queryTick : Nat)
  timeout : DateAndTime
  interfaceIndex : Nat
  statusVar : StatusVar

def OracleQueryMetadata.zero : OracleQueryMetadata :=
  ⟨0, .contractQuery 0 0 0, .unknown, 0, 0, ⟨0⟩, 0, .pending 0⟩

/-- Index `-1` in the subscriber lists is `none`. -/
structure OracleSubscription where
  (initialQueryStorageOffset interfaceIndex queryTimestampOffset subscriberCount : Nat)
  (lastPendingQueryId lastRevealedQueryId : Int)
  nextQueryTimestamp : DateAndTime
  generatedQueriesCount : Nat
  firstSubscriberIndex : Option Nat

structure OracleSubscriber where
  (subscriptionId contractIndex notificationPeriodMinutes : Nat)
  nextQueryTimestamp : DateAndTime
  notificationProcId : Nat
  nextSubscriberIdx : Option Nat

structure OracleReplyState (D : Type) where
  queryId : Int
  ownReplyDigest : D
  ownReplySize : Nat
  ownReplyData : List UInt8
  (replyCommitDigests replyCommitKnowledgeProofs : Nat → D)
  (replyCommitTicks replyCommitHistogramIdx replyCommitHistogramCount : Nat → Nat)
  (mostCommitsHistIdx totalCommits : Nat)

def OracleReplyState.zero {D : Type} [Zero D] : OracleReplyState D :=
  ⟨0, 0, 0, [], fun _ => 0, fun _ => 0, fun _ => 0, fun _ => 0, fun _ => 0, 0, 0⟩

structure ContractQueryIdState where
  (tick queryIndexInTick : Nat)

structure OracleEngine (D : Type) where
  queries : Nat → OracleQueryMetadata
  oracleQueryCount : Nat
  queryStorage : Nat → UInt8
  queryStorageBytesUsed : Nat
  contractQueryIdState : ContractQueryIdState
  replyStates : Nat → OracleReplyState D
  replyStatesIndex : Nat
  (pendingQueryIndices pendingCommitReplyStateIndices : UnsortedMultiset Nat)
  pendingRevealReplyStateIndices : UnsortedMultiset Nat
  (notificationQueryIndexQueue finishedUserQueryIndexQueue : MinHeap Nat)
  revenuePoints : Nat → Nat
  subscriptions : Nat → OracleSubscription
  usedSubscriptionSlots : Nat
  subscribers : Nat → OracleSubscriber
  usedSubscriberSlots : Nat
  queryIdToIndex : HashMap Int Nat
  nextSubscriptionIdQueue : MinHeap Nat

/-- What the engine takes from outside: `KangarooTwelve`, the hash function of `queryIdToIndex` and
the public keys of the computors. -/
structure Env (D : Type) where
  K12 : List UInt8 → D
  hash : Int → Nat
  computorPublicKeys : Nat → M256i

def Env.computorIndex {D : Type} (env : Env D) (computor : M256i) : Option Nat :=
  (List.range NUMBER_OF_COMPUTORS).find? fun i => env.computorPublicKeys i = computor

/-- The identifier `(tick << 31) | index`. -/
def composeQueryId (tick index : Nat) : Int := ((tick <<< 31 ||| index : Nat) : Int)

def getTimeoutTimestamp (baseTime : DateAndTime) (timeoutMilliseconds : Nat) : DateAndTime :=
  let (okay, timeout) := baseTime.addMillisec timeoutMilliseconds
  if timeoutMilliseconds > MAX_ORACLE_TIMEOUT_MILLISEC ∨ !okay then .setInvalid true else timeout

def copyMem (dst : Nat → UInt8) (offset : Nat) (src : List UInt8) : Nat → UInt8 :=
  fun i => if offset ≤ i ∧ i < offset + src.length then src.getD (i - offset) 0 else dst i

namespace OracleEngine

variable {D : Type}

def reset [Zero D] : OracleEngine D where
  queries _ := OracleQueryMetadata.zero
  oracleQueryCount := 0
  queryStorage _ := 0
  queryStorageBytesUsed := 8
  contractQueryIdState := ⟨0, 0⟩
  replyStates _ := OracleReplyState.zero
  replyStatesIndex := 0
  pendingQueryIndices := .empty
  pendingCommitReplyStateIndices := .empty
  pendingRevealReplyStateIndices := .empty
  notificationQueryIndexQueue := .init
  finishedUserQueryIndexQueue := .init
  revenuePoints _ := 0
  subscriptions _ := ⟨0, 0, 0, 0, 0, 0, ⟨0⟩, 0, some 0⟩
  usedSubscriptionSlots := 0
  subscribers _ := ⟨0, 0, 0, ⟨0⟩, 0, some 0⟩
  usedSubscriberSlots := 0
  queryIdToIndex := HashTable.reset
  nextSubscriptionIdQueue := .init

def getEmptyReplyStateSlot (s : OracleEngine D) : Option Nat × OracleEngine D :=
  match probe MAX_SIMULTANEOUS_ORACLE_QUERIES (fun i => decide ((s.replyStates i).queryId ≤ 0))
    MAX_SIMULTANEOUS_ORACLE_QUERIES s.replyStatesIndex with
  | some i => (some i, { s with replyStatesIndex := i })
  -- the index has gone round once
  | none => (none, s)

/-- `none` is the result `-1`. -/
def getNewNonTxQueryId (tick : Nat) (s : OracleEngine D) : Option Int × OracleEngine D :=
  let cs := s.contractQueryIdState
  if cs.tick < tick then
    let cs : ContractQueryIdState := ⟨tick, NUMBER_OF_TRANSACTIONS_PER_TICK⟩
    (some (composeQueryId tick cs.queryIndexInTick), { s with contractQueryIdState := cs })
  else if cs.queryIndexInTick ≥ 0x7FFFFFFF then (none, s)
  else
    let cs := { cs with queryIndexInTick := cs.queryIndexInTick + 1 }
    (some (composeQueryId tick cs.queryIndexInTick), { s with contractQueryIdState := cs })

variable [Zero D]

/-- `startQuery` together with the members that its callers set in the metadata it returns. The
result is the index of the query, `none` for `nullptr`. -/
def startQuery (env : Env D) (tick : Nat) (queryId : Int) (type : QueryType)
    (interfaceIndex : Nat) (timeout : DateAndTime) (queryStorageBytesToAdd : Nat)
    (s : OracleEngine D) : Option Nat × OracleEngine D :=
  if s.oracleQueryCount ≥ MAX_ORACLE_QUERIES ∨
      s.pendingQueryIndices.numValues ≥ MAX_SIMULTANEOUS_ORACLE_QUERIES ∨
      s.queryStorageBytesUsed + queryStorageBytesToAdd > ORACLE_QUERY_STORAGE_SIZE then (none, s)
  else
    match s.getEmptyReplyStateSlot with
    | (none, s) => (none, s)
    | (some replyStateSlotIdx, s) =>
      match HashMap.set MAX_ORACLE_QUERIES env.hash s.queryIdToIndex queryId
        s.oracleQueryCount with
      | (none, queryIdToIndex) => (none, { s with queryIdToIndex })
      | (some _, queryIdToIndex) =>
        let queryMetadata : OracleQueryMetadata :=
          { queryId, type, status := .pending, statusFlags := ORACLE_FLAG_REPLY_PENDING
            interfaceIndex, queryTick := tick, timeout
            statusVar := .pending replyStateSlotIdx }
        (some s.oracleQueryCount, { s with
          queryIdToIndex
          pendingQueryIndices :=
            (s.pendingQueryIndices.add MAX_SIMULTANEOUS_ORACLE_QUERIES s.oracleQueryCount).2
          replyStates := Function.update s.replyStates replyStateSlotIdx
            { OracleReplyState.zero with queryId }
          queries := Function.update s.queries s.oracleQueryCount queryMetadata
          oracleQueryCount := s.oracleQueryCount + 1 })

/-- The transaction prefix `OracleUserQueryTransactionPrefix`. -/
structure UserQueryTransaction where
  sourcePublicKey : M256i
  amount : Int
  (inputSize oracleInterfaceIndex timeoutMilliseconds : Nat)

/-- The query ID and the amount paid back, `none` for the result `-1`. -/
def startUserQuery (env : Env D) (tick : Nat) (now : DateAndTime) (tx : UserQueryTransaction)
    (txIndex : Nat) (forceZeroFee : Bool) (s : OracleEngine D) :
    Option (Int × Int) × OracleEngine D :=
  let interface := oracleInterface tx.oracleInterfaceIndex
  if tx.inputSize < 8 ∨ tx.oracleInterfaceIndex ≥ oracleInterfacesCount ∨
      tx.inputSize - 8 ≠ interface.querySize then (none, s)
  else
    let fee := if forceZeroFee then 0 else interface.queryFee
    if !forceZeroFee ∧ (tx.amount < fee ∨ fee < MIN_ORACLE_QUERY_FEE) then (none, s)
    else
      let timeout := getTimeoutTimestamp now tx.timeoutMilliseconds
      if !timeout.isValid then (none, s)
      else
        let queryId := composeQueryId tick txIndex
        match s.startQuery env tick queryId (.userQuery txIndex tx.sourcePublicKey)
          tx.oracleInterfaceIndex timeout 0 with
        | (none, s) => (none, s)
        | (some _, s) => (some (queryId, if tx.amount > fee then tx.amount - fee else 0), s)

/-- `none` is the result `-1`. -/
def startContractQuery (env : Env D) (tick : Nat) (now : DateAndTime)
    (contractIndex interfaceIndex : Nat) (queryData : List UInt8)
    (timeoutMillisec notificationProcId : Nat) (s : OracleEngine D) :
    Option Int × OracleEngine D :=
  if contractIndex ≥ MAX_NUMBER_OF_CONTRACTS ∨ interfaceIndex ≥ oracleInterfacesCount ∨
      queryData.length ≠ (oracleInterface interfaceIndex).querySize then (none, s)
  else
    let timeout := getTimeoutTimestamp now timeoutMillisec
    if !timeout.isValid then (none, s)
    else
      match s.getNewNonTxQueryId tick with
      | (none, s) => (none, s)
      | (some queryId, s) =>
        let type := .contractQuery notificationProcId s.queryStorageBytesUsed contractIndex
        match s.startQuery env tick queryId type interfaceIndex timeout queryData.length with
        | (none, s) => (none, s)
        | (some _, s) =>
          (some queryId, { s with
            queryStorage := copyMem s.queryStorage s.queryStorageBytesUsed queryData
            queryStorageBytesUsed := s.queryStorageBytesUsed + queryData.length })

end OracleEngine

end QubicCore.Oracle
