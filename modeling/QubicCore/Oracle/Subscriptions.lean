import QubicCore.Oracle.Basic

/-!
# Oracle engine: subscriptions

The subscribers of a subscription are linked in a list in the order of the time of their next query,
and the subscriptions themselves are in a heap ordered by the time of the next query of each.

A result `none` stands for a call that does not return.
-/

namespace QubicCore.Oracle

open Qpi Sorting

/-- The first `n` bytes of a number in memory. -/
def littleEndian (n value : Nat) : List UInt8 :=
  (List.range n).map fun k => UInt8.ofNat (value / 256 ^ k)

/-- `do nextQueryTimestamp.add(period) while (nextQueryTimestamp < now)`. -/
def advanceTimestamp (now : DateAndTime) (periodMinutes : Nat) :
    Nat → DateAndTime → Option DateAndTime
  | 0, _ => none
  | fuel + 1, timestamp =>
    let timestamp := (timestamp.add 0 0 0 0 periodMinutes 0 0 0).2
    if timestamp < now then advanceTimestamp now periodMinutes fuel timestamp else some timestamp

/-- The subscriber behind which one with the given time belongs, from `prevIdx` on. -/
def findPrevious (subscribers : Nat → OracleSubscriber) (insertTimestamp : DateAndTime) :
    Nat → Nat → Option Nat
  | 0, _ => none
  | fuel + 1, prevIdx =>
    match (subscribers prevIdx).nextSubscriberIdx with
    | none => some prevIdx
    | some nextIdx =>
      if insertTimestamp > (subscribers nextIdx).nextQueryTimestamp then
        findPrevious subscribers insertTimestamp fuel nextIdx
      else some prevIdx

def linkedSubscribers (subscribers : Nat → OracleSubscriber) : Nat → Option Nat → Option (List Nat)
  | _, none => some []
  | 0, some _ => none
  | fuel + 1, some idx =>
    (linkedSubscribers subscribers fuel (subscribers idx).nextSubscriberIdx).map (idx :: ·)

namespace OracleEngine

variable {D : Type} (s : OracleEngine D) (subscriptionId : Nat)

def setSubscription (subscription : OracleSubscription) : OracleEngine D :=
  { s with subscriptions := Function.update s.subscriptions subscriptionId subscription }

def setSubscriber (subscriberIdx : Nat) (subscriber : OracleSubscriber) : OracleEngine D :=
  { s with subscribers := Function.update s.subscribers subscriberIdx subscriber }

def nextSubscriptionCompare (lhs rhs : Nat) : Bool :=
  (s.subscriptions lhs).nextQueryTimestamp < (s.subscriptions rhs).nextQueryTimestamp

def enqueueSubscription : OracleEngine D :=
  { s with nextSubscriptionIdQueue := (s.nextSubscriptionIdQueue.insert s.nextSubscriptionCompare
      MAX_ORACLE_SUBSCRIPTIONS subscriptionId).2 }

def dequeueSubscription : OracleEngine D :=
  { s with nextSubscriptionIdQueue :=
      (s.nextSubscriptionIdQueue.removeFirstMatch s.nextSubscriptionCompare subscriptionId).2 }

def subscriberList : Option (List Nat) :=
  linkedSubscribers s.subscribers s.usedSubscriberSlots
    (s.subscriptions subscriptionId).firstSubscriberIndex

def addSubscriberToSubscriptionsSortedList (subscriptionId subscriberIdxToInsert : Nat)
    (s : OracleEngine D) : Option (OracleEngine D) :=
  let subscription := s.subscriptions subscriptionId
  let subscriber := s.subscribers subscriberIdxToInsert
  let insertFirst := (s.setSubscriber subscriberIdxToInsert
    { subscriber with nextSubscriberIdx := subscription.firstSubscriberIndex }).setSubscription
      subscriptionId { subscription with firstSubscriberIndex := some subscriberIdxToInsert }
  match subscription.firstSubscriberIndex with
  | none => some insertFirst
  | some first =>
    if subscriber.nextQueryTimestamp ≤ (s.subscribers first).nextQueryTimestamp then
      some insertFirst
    else do
      let prevIdx ←
        findPrevious s.subscribers subscriber.nextQueryTimestamp s.usedSubscriberSlots first
      let previous := s.subscribers prevIdx
      let s := s.setSubscriber prevIdx
        { previous with nextSubscriberIdx := some subscriberIdxToInsert }
      some (s.setSubscriber subscriberIdxToInsert
        { s.subscribers subscriberIdxToInsert with
          nextSubscriberIdx := previous.nextSubscriberIdx })

/-! ## Start and stop -/

def findSubscription (interfaceIndex : Nat) (queryData : List UInt8)
    (timestampOffsetInQuery : Nat) : Option Nat :=
  (List.range s.usedSubscriptionSlots).find? fun i =>
    let os := s.subscriptions i
    os.initialQueryStorageOffset ≠ 0 ∧ os.interfaceIndex = interfaceIndex ∧
      (List.range queryData.length).all fun k =>
        (timestampOffsetInQuery ≤ k ∧ k < timestampOffsetInQuery + 8) ∨
          s.queryStorage (os.initialQueryStorageOffset + k) = queryData.getD k 0

def createSubscription (interfaceIndex : Nat) (queryData : List UInt8)
    (timestampOffsetInQuery : Nat) : OracleEngine D :=
  let subscriptionId := s.usedSubscriptionSlots
  let subscription := { s.subscriptions subscriptionId with
    initialQueryStorageOffset := s.queryStorageBytesUsed
    interfaceIndex
    queryTimestampOffset := timestampOffsetInQuery
    lastPendingQueryId := -1
    lastRevealedQueryId := -1
    nextQueryTimestamp := .setInvalid false
    subscriberCount := 0
    firstSubscriberIndex := none }
  { s.setSubscription subscriptionId subscription with
    usedSubscriptionSlots := s.usedSubscriptionSlots + 1
    queryStorage := copyMem s.queryStorage s.queryStorageBytesUsed queryData
    queryStorageBytesUsed := s.queryStorageBytesUsed + queryData.length }

/-- The subscriber to synchronize with: the first with the greatest common divisor of periods. -/
def findReference (notificationPeriodMinutes : Nat) (list : List Nat) : Option Nat :=
  (list.foldl (fun (best : Nat × Option Nat) idx =>
    let gcd := Nat.gcd notificationPeriodMinutes (s.subscribers idx).notificationPeriodMinutes
    if best.1 < gcd then (gcd, some idx) else best) (0, none)).2

def synchronizedTimestamp (now refQueryTimestamp : DateAndTime) (periodMinutes : Nat) :
    DateAndTime :=
  let minutesUntilRefQuery := now.durationMicrosec refQueryTimestamp / 60000000
  let periodsUntilRefQuery := minutesUntilRefQuery / periodMinutes
  let offsetMinutes : Int := -(periodsUntilRefQuery * periodMinutes : Nat)
  if offsetMinutes ≠ 0 then (refQueryTimestamp.add 0 0 0 0 offsetMinutes 0 0 0).2
  else refQueryTimestamp

/-- A new subscriber of an existing subscription, `list` being the subscribers it has. -/
def addSubscriber (now : DateAndTime) (subscriptionId contractIndex periodMinutes procId : Nat)
    (list : List Nat) (s : OracleEngine D) : Option (OracleEngine D) :=
  let subscription := s.subscriptions subscriptionId
  let subscription := { subscription with subscriberCount := subscription.subscriberCount + 1 }
  let subscriberIndex := s.usedSubscriberSlots
  let subscriber := { s.subscribers subscriberIndex with
    subscriptionId, contractIndex, notificationPeriodMinutes := periodMinutes
    notificationProcId := procId }
  let s := { s with usedSubscriberSlots := s.usedSubscriberSlots + 1 }
  if subscription.subscriberCount = 1 then
    let s := s.setSubscription subscriptionId { subscription with nextQueryTimestamp := now }
    let s := s.setSubscriber subscriberIndex { subscriber with nextQueryTimestamp := now }
    (s.enqueueSubscription subscriptionId).addSubscriberToSubscriptionsSortedList subscriptionId
      subscriberIndex
  else do
    let refIdx ← s.findReference periodMinutes list
    let timestamp :=
      synchronizedTimestamp now (s.subscribers refIdx).nextQueryTimestamp periodMinutes
    let s := s.setSubscriber subscriberIndex { subscriber with nextQueryTimestamp := timestamp }
    let s :=
      if subscription.nextQueryTimestamp > timestamp then
        let s := s.setSubscription subscriptionId
          { subscription with nextQueryTimestamp := timestamp }
        (s.dequeueSubscription subscriptionId).enqueueSubscription subscriptionId
      else s.setSubscription subscriptionId subscription
    s.addSubscriberToSubscriptionsSortedList subscriptionId subscriberIndex

/-- The subscription ID in the result is `none` for `-1`. -/
def startContractSubscription (now : DateAndTime) (contractIndex interfaceIndex : Nat)
    (queryData : List UInt8) (notificationPeriodMillisec notificationProcId : Nat)
    (timestampOffsetInQuery : Nat) (s : OracleEngine D) :
    Option (Option Nat × OracleEngine D) :=
  if contractIndex ≥ MAX_NUMBER_OF_CONTRACTS ∨ interfaceIndex ≥ oracleInterfacesCount ∨
      queryData.length ≠ (oracleInterface interfaceIndex).querySize ∨
      timestampOffsetInQuery + 8 > queryData.length then some (none, s)
  else
    let periodMinutes := notificationPeriodMillisec / 60000
    if notificationPeriodMillisec % 60000 ≠ 0 ∨ periodMinutes < 1 ∨ periodMinutes > 1440 then
      some (none, s)
    else do
      let found := s.findSubscription interfaceIndex queryData timestampOffsetInQuery
      let list ← found.elim (some []) s.subscriberList
      if ∃ idx ∈ list, (s.subscribers idx).contractIndex = contractIndex then some (none, s)
      else if (found = none ∧ (s.usedSubscriptionSlots ≥ MAX_ORACLE_SUBSCRIPTIONS ∨
          s.queryStorageBytesUsed + queryData.length > ORACLE_QUERY_STORAGE_SIZE ∨
          s.nextSubscriptionIdQueue.size ≥ MAX_ORACLE_SUBSCRIPTIONS)) ∨
          s.usedSubscriberSlots ≥ MAX_ORACLE_SUBSCRIBERS then some (none, s)
      else
        let (subscriptionId, s) :=
          match found with
          | some subscriptionId => (subscriptionId, s)
          | none => (s.usedSubscriptionSlots,
              s.createSubscription interfaceIndex queryData timestampOffsetInQuery)
        let s ← s.addSubscriber now subscriptionId contractIndex periodMinutes notificationProcId
          list
        some (some subscriptionId, s)

/-- The subscriber of the contract behind `prevIdx`, and the one it is linked from. -/
def findSubscriber (subscribers : Nat → OracleSubscriber) (contractIndex : Nat) :
    Nat → Nat → Option (Option (Nat × Nat))
  | 0, _ => none
  | fuel + 1, prevIdx =>
    match (subscribers prevIdx).nextSubscriberIdx with
    | none => some none
    | some curIdx =>
      if (subscribers curIdx).contractIndex ≠ contractIndex then
        findSubscriber subscribers contractIndex fuel curIdx
      else some (some (prevIdx, curIdx))

/-- The end of `stopContractSubscription`, for the subscriber taken out of the list. -/
def disableSubscriber (subscriptionId subscriberIdx : Nat) : OracleEngine D :=
  let subscription := s.subscriptions subscriptionId
  let s := s.setSubscriber subscriberIdx { s.subscribers subscriberIdx with
    nextQueryTimestamp := .setInvalid true, nextSubscriberIdx := none }
  s.setSubscription subscriptionId
    { subscription with subscriberCount := subscription.subscriberCount - 1 }

def stopContractSubscription (subscriptionId contractIndex : Nat) (s : OracleEngine D) :
    Option (Bool × OracleEngine D) :=
  if contractIndex ≥ MAX_NUMBER_OF_CONTRACTS ∨ subscriptionId ≥ s.usedSubscriptionSlots then
    some (false, s)
  else
    let subscription := s.subscriptions subscriptionId
    match subscription.firstSubscriberIndex with
    | none => some (false, s)
    | some first =>
      let subscriber := s.subscribers first
      if subscriber.contractIndex = contractIndex then
        let s :=
          match subscriber.nextSubscriberIdx with
          | some next =>
            let s := s.setSubscription subscriptionId { subscription with
              firstSubscriberIndex := some next
              nextQueryTimestamp := (s.subscribers next).nextQueryTimestamp }
            (s.dequeueSubscription subscriptionId).enqueueSubscription subscriptionId
          | none =>
            let s := s.setSubscription subscriptionId { subscription with
              firstSubscriberIndex := none, nextQueryTimestamp := .setInvalid true }
            s.dequeueSubscription subscriptionId
        some (true, s.disableSubscriber subscriptionId first)
      else do
        match ← findSubscriber s.subscribers contractIndex s.usedSubscriberSlots first with
        | none => some (false, s)
        | some (prevIdx, curIdx) =>
          let s := s.setSubscriber prevIdx { s.subscribers prevIdx with
            nextSubscriberIdx := (s.subscribers curIdx).nextSubscriberIdx }
          some (true, s.disableSubscriber subscriptionId curIdx)

/-! ## Generation of queries -/

/-- The subscribers of the query with the given time, advanced to their next time and sorted in
again. At most `n` are taken. -/
def gatherSubscribers (now queryTimestamp : DateAndTime) (subscriptionId : Nat) :
    Nat → List Nat → OracleEngine D → Option (List Nat × OracleEngine D)
  | 0, subscriberIndices, s => some (subscriberIndices, s)
  | n + 1, subscriberIndices, s =>
    let subscription := s.subscriptions subscriptionId
    match subscription.firstSubscriberIndex with
    | none => some (subscriberIndices, s)
    | some subscriberIdx =>
      let subscriber := s.subscribers subscriberIdx
      if subscriber.nextQueryTimestamp > queryTimestamp then some (subscriberIndices, s)
      else do
        let timestamp ← advanceTimestamp now subscriber.notificationPeriodMinutes (now.value + 1)
          subscriber.nextQueryTimestamp
        let s := s.setSubscriber subscriberIdx { subscriber with nextQueryTimestamp := timestamp }
        let s := s.setSubscription subscriptionId
          { subscription with firstSubscriberIndex := subscriber.nextSubscriberIdx }
        let s ← s.addSubscriberToSubscriptionsSortedList subscriptionId subscriberIdx
        gatherSubscribers now queryTimestamp subscriptionId n
          (subscriberIndices ++ [subscriberIdx]) s

def storeSubscriptionQuery (subscription : OracleSubscription)
    (subscriberIndices : List Nat) : OracleEngine D :=
  let querySize := (oracleInterface subscription.interfaceIndex).querySize
  let offset := s.queryStorageBytesUsed
  let initialQueryData :=
    (List.range querySize).map fun k => s.queryStorage (subscription.initialQueryStorageOffset + k)
  let queryStorage := copyMem s.queryStorage offset initialQueryData
  let queryStorage := copyMem queryStorage (offset + subscription.queryTimestampOffset)
    (littleEndian 8 subscription.nextQueryTimestamp.value)
  let queryStorage :=
    copyMem queryStorage (offset + querySize) (subscriberIndices.flatMap (littleEndian 4))
  { s with
    queryStorage
    queryStorageBytesUsed := offset + querySize + 4 * subscriberIndices.length }

/-- How a round of `generateSubscriptionQueries` ends. -/
inductive Round (D : Type) where
  /-- No subscription is due. -/
  | idle (s : OracleEngine D)
  /-- The query of a subscription could not be started. -/
  | refused (s : OracleEngine D)
  | generated (s : OracleEngine D)

variable [Zero D]

def generateSubscriptionQuery (env : Env D) (tick : Nat) (now : DateAndTime) (subscriptionId : Nat)
    (s : OracleEngine D) : Option (Round D) := do
  let queryTimestamp := (s.subscriptions subscriptionId).nextQueryTimestamp
  let (subscriberIndices, s) ← s.gatherSubscribers now queryTimestamp subscriptionId
    (s.subscriptions subscriptionId).subscriberCount []
  let timeout := (queryTimestamp.add 0 0 0 0 1 0 0 0).2
  match s.getNewNonTxQueryId tick with
  | (none, s) => some (.refused s)
  | (some queryId, s) =>
    let subscription := s.subscriptions subscriptionId
    let querySize := (oracleInterface subscription.interfaceIndex).querySize
    let type := .contractSubscription subscriptionId s.queryStorageBytesUsed
      subscriberIndices.length
    match s.startQuery env tick queryId type subscription.interfaceIndex timeout
      (querySize + 4 * subscriberIndices.length) with
    | (none, s) => some (.refused s)
    | (some _, s) =>
      let s := s.storeSubscriptionQuery subscription subscriberIndices
      let next := subscription.firstSubscriberIndex.map fun first =>
        (s.subscribers first).nextQueryTimestamp
      let s := s.setSubscription subscriptionId { subscription with
        lastPendingQueryId := queryId
        generatedQueriesCount := subscription.generatedQueriesCount + 1
        nextQueryTimestamp := next.getD subscription.nextQueryTimestamp }
      some (.generated { s with nextSubscriptionIdQueue :=
        (s.nextSubscriptionIdQueue.replace s.nextSubscriptionCompare subscriptionId).2 })

def generateRound (env : Env D) (tick : Nat) (now : DateAndTime) (s : OracleEngine D) :
    Option (Round D) :=
  match s.nextSubscriptionIdQueue.peek with
  | none => some (.idle s)
  | some subscriptionId =>
    if (s.subscriptions subscriptionId).nextQueryTimestamp > now then some (.idle s)
    else s.generateSubscriptionQuery env tick now subscriptionId

def generateRounds (env : Env D) (tick : Nat) (now : DateAndTime) :
    Nat → OracleEngine D → Option (Round D)
  | 0, _ => none
  | fuel + 1, s => do
    match ← s.generateRound env tick now with
    | .generated s => generateRounds env tick now fuel s
    | ended => some ended

/-- Every round but the last one starts a query, which stays pending during the call. -/
def generateSubscriptionQueries (env : Env D) (tick : Nat) (now : DateAndTime)
    (s : OracleEngine D) : Option (Round D) :=
  generateRounds env tick now (MAX_SIMULTANEOUS_ORACLE_QUERIES + 1) s

def Round.engine : Round D → OracleEngine D
  | .idle s => s
  | .refused s => s
  | .generated s => s

end OracleEngine

end QubicCore.Oracle
