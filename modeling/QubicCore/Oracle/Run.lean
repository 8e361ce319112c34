import QubicCore.Oracle.Decisions
import QubicCore.Oracle.Subscriptions

/-!
# Runs of the oracle engine

A node works through its ticks: the engine is reset at the start of an epoch, and then queries are
started, replies, commits and reveals come in, and timeouts are checked, in any order.
-/

namespace QubicCore.Oracle

open Library.Probing Qpi Option

variable {k interfaceIndex : Nat}

/-! ## Query IDs -/

lemma composeQueryId_eq (tick : Nat) {index : Nat} (h : index < 2 ^ 31) :
    composeQueryId tick index = (tick * 2 ^ 31 + index : Nat) := by
  rw [composeQueryId, Nat.shiftLeft_eq, Nat.mul_comm, Nat.two_pow_add_eq_or_of_lt h]

lemma composeQueryId_injective {t t' k' : Nat} (hk : k < 2 ^ 31) (hk' : k' < 2 ^ 31)
    (h : composeQueryId t k = composeQueryId t' k') : t = t' ∧ k = k' := by
  rw [composeQueryId_eq t hk, composeQueryId_eq t' hk', Nat.cast_inj] at h
  omega

lemma composeQueryId_pos {t : Nat} (ht : 0 < t) (hk : k < 2 ^ 31) : 0 < composeQueryId t k := by
  rw [composeQueryId_eq t hk]
  omega

/-! ## Nodes and events -/

/-- The engine in a tick of an epoch, with the transactions of the tick processed so far. -/
structure Node (D : Type) where
  engine : OracleEngine D
  (tick txCount : Nat)

inductive Event (D : Type) where
  | nextTick (tick : Nat)
  | userQuery (now : DateAndTime) (tx : OracleEngine.UserQueryTransaction) (txIndex : Nat)
      (forceZeroFee : Bool)
  | contractQuery (now : DateAndTime) (contractIndex interfaceIndex : Nat)
      (queryData : List UInt8) (timeoutMillisec notificationProcId : Nat)
  | machineReply (replyMessage : MachineReply)
  | commit (tx : CommitTransaction D)
  | reveal (tx : RevealTransaction) (txSlotInTickData : Nat)
  | timeouts (now : DateAndTime)
  | subscribe (now : DateAndTime) (contractIndex interfaceIndex : Nat) (queryData : List UInt8)
      (notificationPeriodMillisec notificationProcId timestampOffsetInQuery : Nat)
  | unsubscribe (subscriptionId contractIndex : Nat)
  | generate (now : DateAndTime)

variable {D : Type} [DecidableEq D] [Zero D]

def Event.engine (env : Env D) (n : Node D) : Event D → Option (OracleEngine D)
  | .nextTick _ => some n.engine
  | .userQuery now tx txIndex forceZeroFee =>
    some (n.engine.startUserQuery env n.tick now tx txIndex forceZeroFee).2
  | .contractQuery now contractIndex interfaceIndex queryData timeoutMillisec notificationProcId =>
    some (n.engine.startContractQuery env n.tick now contractIndex interfaceIndex queryData
      timeoutMillisec notificationProcId).2
  | .machineReply replyMessage => some (n.engine.processOracleMachineReply env replyMessage)
  | .commit tx => (n.engine.processOracleReplyCommitTransaction env tx).map Prod.snd
  | .reveal tx slot => (n.engine.processOracleReplyRevealTransaction env tx slot).map Prod.snd
  | .timeouts now => n.engine.processTimeouts now
  | .subscribe now contractIndex interfaceIndex queryData periodMillisec procId timestampOffset =>
    (n.engine.startContractSubscription now contractIndex interfaceIndex queryData periodMillisec
      procId timestampOffset).map Prod.snd
  | .unsubscribe subscriptionId contractIndex =>
    (n.engine.stopContractSubscription subscriptionId contractIndex).map Prod.snd
  | .generate now =>
    (n.engine.generateSubscriptionQueries env n.tick now).map OracleEngine.Round.engine

def step (env : Env D) (n : Node D) (e : Event D) : Option (Node D) :=
  (e.engine env n).map fun engine =>
    match e with
    | .nextTick tick => ⟨engine, tick, 0⟩
    | .userQuery _ _ txIndex _ => ⟨engine, n.tick, txIndex + 1⟩
    | _ => { n with engine }

/-- What the tick processor promises: ticks and the transactions of a tick are processed in order,
and a transaction is processed in its tick. -/
def Admissible (n : Node D) : Event D → Prop
  | .nextTick tick => n.tick < tick ∧ tick < 2 ^ 32
  | .userQuery _ _ txIndex _ => n.txCount ≤ txIndex ∧ txIndex < NUMBER_OF_TRANSACTIONS_PER_TICK
  | .commit tx => tx.tick = n.tick
  | .reveal tx _ => tx.tick = n.tick
  | _ => True

inductive Run (env : Env D) (n : Node D) : List (Event D) → Node D → Prop
  | nil : Run env n [] n
  | snoc {es : List (Event D)} {e : Event D} {n' n'' : Node D} : Run env n es n' →
    Admissible n' e → step env n' e = some n'' → Run env n (es ++ [e]) n''

lemma Run.append {env : Env D} {n n' n'' : Node D} {es es' : List (Event D)}
    (h : Run env n es n') (h' : Run env n' es' n'') : Run env n (es ++ es') n'' := by
  induction h' with
  | nil => rwa [List.append_nil]
  | snoc _ hadm hstep ih => exact List.append_assoc .. ▸ ih.snoc hadm hstep

def Node.start (tick : Nat) : Node D := ⟨OracleEngine.reset, tick, 0⟩

def Reachable (env : Env D) (n : Node D) : Prop :=
  ∃ tick es, 0 < tick ∧ tick < 2 ^ 32 ∧ Run env (.start tick) es n

/-! ## New IDs -/

namespace OracleEngine

/-- The IDs given out up to a tick and up to a number of its transactions. -/
structure Issued (tick txCount : Nat) (s : OracleEngine D) : Prop where
  ids : ∀ j < s.oracleQueryCount, ∃ t k, (s.queries j).queryId = composeQueryId t k ∧
    t ≤ tick ∧ k < 2 ^ 31 ∧ (t = tick → k < txCount ∨ s.contractQueryIdState.tick = tick ∧
      NUMBER_OF_TRANSACTIONS_PER_TICK ≤ k ∧ k ≤ s.contractQueryIdState.queryIndexInTick)
  tick_le : s.contractQueryIdState.tick ≤ tick
  index_ge : s.contractQueryIdState.tick = tick →
    NUMBER_OF_TRANSACTIONS_PER_TICK ≤ s.contractQueryIdState.queryIndexInTick
  index_lt : s.contractQueryIdState.queryIndexInTick < 2 ^ 31
  txCount_le : txCount ≤ NUMBER_OF_TRANSACTIONS_PER_TICK

section

omit [DecidableEq D]

variable {s s' : OracleEngine D} {tick txCount : Nat}

lemma Issued.start (tick : Nat) (h : 0 < tick) : Issued tick 0 (reset : OracleEngine D) where
  ids j hj := absurd hj (Nat.not_lt_zero j)
  tick_le := Nat.zero_le _
  index_ge h' := absurd h'.symm (Nat.ne_of_gt h)
  index_lt := (by decide : 0 < 2 ^ 31)
  txCount_le := Nat.zero_le _

omit [Zero D]

section

variable (h : Issued tick txCount s)
include h

lemma Issued.nextTick {tick' : Nat} (hlt : tick < tick') : Issued tick' 0 s where
  ids j hj := by
    obtain ⟨t, k, hid, ht, hk, -⟩ := h.ids j hj
    exact ⟨t, k, hid, by omega, hk, fun he => by omega⟩
  tick_le := h.tick_le.trans hlt.le
  index_ge he := absurd he (by have := h.tick_le; omega)
  index_lt := h.index_lt
  txCount_le := Nat.zero_le _

lemma Issued.congr (hcount : s'.oracleQueryCount = s.oracleQueryCount)
    (hid : ∀ j < s.oracleQueryCount, (s'.queries j).queryId = (s.queries j).queryId)
    (hstate : s'.contractQueryIdState = s.contractQueryIdState) : Issued tick txCount s' := by
  refine ⟨fun j hj => ?_, ?_, ?_, ?_, h.txCount_le⟩
  · rw [hcount] at hj
    rw [hid j hj, hstate]
    exact h.ids j hj
  all_goals rw [hstate]
  exacts [h.tick_le, h.index_ge, h.index_lt]

lemma Issued.fresh_tx {txIndex : Nat} (hle : txCount ≤ txIndex)
    (hlt : txIndex < NUMBER_OF_TRANSACTIONS_PER_TICK) :
    ∀ j < s.oracleQueryCount, (s.queries j).queryId ≠ composeQueryId tick txIndex := by
  intro j hj he
  obtain ⟨t, k, hid, -, hk, hlast⟩ := h.ids j hj
  have hN : NUMBER_OF_TRANSACTIONS_PER_TICK < 2 ^ 31 := by decide
  obtain ⟨rfl, rfl⟩ := composeQueryId_injective hk (by omega) (hid.symm.trans he)
  obtain hk | ⟨-, hk, -⟩ := hlast rfl <;> omega

lemma Issued.mono {txCount' : Nat} (hle : txCount ≤ txCount')
    (hlt : txCount' ≤ NUMBER_OF_TRANSACTIONS_PER_TICK) : Issued tick txCount' s where
  ids j hj := by
    obtain ⟨t, k, hid, ht, hk, hlast⟩ := h.ids j hj
    exact ⟨t, k, hid, ht, hk, fun he => (hlast he).imp_left fun hk => by omega⟩
  __ := h
  txCount_le := hlt

lemma Issued.append {type : QueryType}
    (hs' : Appended s s' (composeQueryId tick k) type interfaceIndex)
    (hid : ∀ j < s.oracleQueryCount, (s'.queries j).queryId = (s.queries j).queryId)
    (hstate : s'.contractQueryIdState = s.contractQueryIdState) (hk : k < 2 ^ 31)
    (hlast : k < txCount ∨ s.contractQueryIdState.tick = tick ∧
      NUMBER_OF_TRANSACTIONS_PER_TICK ≤ k ∧ k ≤ s.contractQueryIdState.queryIndexInTick) :
    Issued tick txCount s' := by
  refine ⟨fun j hj => ?_, ?_, ?_, ?_, h.txCount_le⟩
  · rw [hstate]
    rw [hs'.oracleQueryCount] at hj
    obtain hj | rfl := Nat.lt_succ_iff_lt_or_eq.1 hj
    · rw [hid j hj]
      exact h.ids j hj
    · exact ⟨tick, k, hs'.queryId, le_rfl, hk, fun _ => hlast⟩
  all_goals rw [hstate]
  exacts [h.tick_le, h.index_ge, h.index_lt]

/-- The number `k` has not been used in the tick, and is the last one from now on. -/
lemma Issued.move (hk : k < 2 ^ 31) (hge : NUMBER_OF_TRANSACTIONS_PER_TICK ≤ k)
    (hgt : s.contractQueryIdState.tick = tick → s.contractQueryIdState.queryIndexInTick < k) :
    Issued tick txCount { s with contractQueryIdState := ⟨tick, k⟩ } ∧
      ∀ j < s.oracleQueryCount, (s.queries j).queryId ≠ composeQueryId tick k := by
  refine ⟨⟨fun j hj => ?_, le_rfl, fun _ => hge, hk, h.txCount_le⟩, fun j hj he => ?_⟩
  · obtain ⟨t, x, hid, ht, hx, hlast⟩ := h.ids j hj
    refine ⟨t, x, hid, ht, hx, fun he => (hlast he).imp_right fun hx => ?_⟩
    exact ⟨rfl, hx.2.1, hx.2.2.trans (hgt hx.1).le⟩
  · obtain ⟨t, x, hid, -, hx, hlast⟩ := h.ids j hj
    obtain ⟨rfl, rfl⟩ := composeQueryId_injective hx hk (hid.symm.trans he)
    have := h.txCount_le
    obtain hx | ⟨htick, -, hx⟩ := hlast rfl
    · omega
    · exact absurd (hgt htick) (not_lt.2 hx)

/-- `getNewNonTxQueryId` gives a new ID or none. -/
lemma Issued.getNewNonTxQueryId :
    ∃ r cs, s.getNewNonTxQueryId tick = (r, { s with contractQueryIdState := cs }) ∧
      Issued tick txCount { s with contractQueryIdState := cs } ∧
      ∀ id, r = some id → id = composeQueryId tick cs.queryIndexInTick ∧ cs.tick = tick ∧
        ∀ j < s.oracleQueryCount, (s.queries j).queryId ≠ id := by
  unfold OracleEngine.getNewNonTxQueryId
  dsimp only
  split_ifs with hnew hfull
  · obtain ⟨hissued, hfresh⟩ := h.move (by decide) le_rfl fun he => absurd he (Nat.ne_of_lt hnew)
    refine ⟨_, _, rfl, hissued, ?_⟩
    rintro _ ⟨⟩
    exact ⟨rfl, rfl, hfresh⟩
  · exact ⟨none, _, rfl, h, by simp⟩
  · have htick : s.contractQueryIdState.tick = tick := le_antisymm h.tick_le (not_lt.1 hnew)
    have hge := h.index_ge htick
    obtain ⟨hissued, hfresh⟩ := h.move
      (by omega : s.contractQueryIdState.queryIndexInTick + 1 < 2 ^ 31) (by omega)
      fun _ => Nat.lt_succ_self _
    rw [htick]
    refine ⟨_, _, rfl, hissued, ?_⟩
    rintro _ ⟨⟩
    exact ⟨rfl, rfl, hfresh⟩

end

end

/-! ## Subscriptions leave the queries alone -/

/-- Only the subscriptions and the query storage change, and every subscription is for an existing
interface if it was before. -/
structure SameQueries (s s' : OracleEngine D) : Prop where
  indices : SameIndices s s'
  contractQueryIdState : s'.contractQueryIdState = s.contractQueryIdState
  interfaces : (∀ k, (s.subscriptions k).interfaceIndex < oracleInterfacesCount) →
    ∀ k, (s'.subscriptions k).interfaceIndex < oracleInterfacesCount

section

omit [DecidableEq D] [Zero D]

variable {s s' s'' : OracleEngine D} {id contractIndex : Nat} {now : DateAndTime}

lemma SameQueries.of_subscriptions
    (hindices : SameIndices s s' := by exact ⟨rfl, rfl, rfl, rfl, rfl, rfl, rfl, rfl⟩)
    (hstate : s'.contractQueryIdState = s.contractQueryIdState := by rfl)
    (hsubscriptions : s'.subscriptions = s.subscriptions := by rfl) : SameQueries s s' :=
  ⟨hindices, hstate, fun h => by rwa [hsubscriptions]⟩

lemma SameQueries.refl (s : OracleEngine D) : SameQueries s s :=
  .of_subscriptions

lemma SameQueries.of_some {α : Type} {r r' : α} (h : some (r, s) = some (r', s')) :
    SameQueries s s' := by
  obtain ⟨-, rfl⟩ := Prod.mk.inj (some.inj h)
  exact .refl s

section

variable (h : SameQueries s s')
include h

lemma SameQueries.trans (h' : SameQueries s' s'') : SameQueries s s'' :=
  ⟨h.1.trans h'.1, h'.2.trans h.2, fun hs => h'.3 (h.3 hs)⟩

lemma SameQueries.setSubscriber (idx : Nat)
    (subscriber : OracleSubscriber) : SameQueries s (s'.setSubscriber idx subscriber) :=
  h.trans .of_subscriptions

lemma SameQueries.enqueue (id : Nat) : SameQueries s (s'.enqueueSubscription id) :=
  h.trans .of_subscriptions

lemma SameQueries.dequeue (id : Nat) : SameQueries s (s'.dequeueSubscription id) :=
  h.trans .of_subscriptions

lemma SameQueries.setSubscription {subscription : OracleSubscription}
    (hinterface : subscription.interfaceIndex = (s'.subscriptions id).interfaceIndex ∨
      subscription.interfaceIndex < oracleInterfacesCount) :
    SameQueries s (s'.setSubscription id subscription) := by
  refine h.trans ⟨⟨rfl, rfl, rfl, rfl, rfl, rfl, rfl, rfl⟩, rfl, fun hs k => ?_⟩
  simp only [OracleEngine.setSubscription, Function.update_apply]
  split_ifs with hk
  · obtain hinterface | hinterface := hinterface
    · rw [hinterface]
      exact hs id
    · exact hinterface
  · exact hs k

end

lemma SameQueries.addToSortedList {idx : Nat} (hs : SameQueries s s')
    (h : s'.addSubscriberToSubscriptionsSortedList id idx = some s'') : SameQueries s s'' := by
  unfold addSubscriberToSubscriptionsSortedList at h
  dsimp only at h
  split at h
  · obtain rfl := some.inj h
    exact .setSubscription (.setSubscriber hs ..) (.inl (by rfl))
  · split_ifs at h
    · obtain rfl := some.inj h
      exact .setSubscription (.setSubscriber hs ..) (.inl (by rfl))
    · obtain ⟨prevIdx, -, h⟩ := bind_eq_some_iff.1 h
      obtain rfl := some.inj h
      exact .setSubscriber (.setSubscriber hs ..) ..

lemma SameQueries.addSubscriber {periodMinutes procId : Nat} {list : List Nat}
    (hs : SameQueries s s')
    (h : s'.addSubscriber now id contractIndex periodMinutes procId list = some s'') :
    SameQueries s s'' := by
  have hslots : SameQueries s { s' with usedSubscriberSlots := s'.usedSubscriberSlots + 1 } :=
    hs.trans .of_subscriptions
  unfold OracleEngine.addSubscriber at h
  dsimp only at h
  split_ifs at h with hfirst
  · refine .addToSortedList (.enqueue (.setSubscriber ?_ ..) _) h
    exact .setSubscription hslots (.inl (by rfl))
  · obtain ⟨refIdx, -, h⟩ := bind_eq_some_iff.1 h
    refine .addToSortedList ?_ h
    split_ifs
    · exact .enqueue (.dequeue (.setSubscription (.setSubscriber hslots ..) (.inl (by rfl))) _) _
    · exact .setSubscription (.setSubscriber hslots ..) (.inl (by rfl))

lemma startContractSubscription_same {queryData : List UInt8}
    {periodMillisec procId timestampOffset : Nat} {r : Option Nat}
    (h : s.startContractSubscription now contractIndex interfaceIndex queryData periodMillisec
      procId timestampOffset = some (r, s')) : SameQueries s s' := by
  unfold startContractSubscription at h
  split_ifs at h with hinput
  · exact .of_some h
  dsimp only at h
  split at h
  · exact .of_some h
  obtain ⟨list, -, h⟩ := bind_eq_some_iff.1 h
  split at h
  · exact .of_some h
  split at h
  · exact .of_some h
  obtain ⟨s₁, hadd, h⟩ := bind_eq_some_iff.1 h
  obtain ⟨-, rfl⟩ := Prod.mk.inj (some.inj h)
  refine .addSubscriber ?_ hadd
  cases s.findSubscription interfaceIndex queryData timestampOffset with
  | some id => exact .refl s
  | none =>
    push Not at hinput
    exact .trans (.setSubscription (.refl s) (.inr hinput.2.1))
      .of_subscriptions

lemma stopContractSubscription_same {subscriptionId : Nat} {r : Bool}
    (h : s.stopContractSubscription subscriptionId contractIndex = some (r, s')) :
    SameQueries s s' := by
  have hdisable : ∀ {t : OracleEngine D} (id idx : Nat), SameQueries s t →
      SameQueries s (t.disableSubscriber id idx) := fun id idx ht =>
    .setSubscription (.setSubscriber ht ..) (.inl (by rfl))
  unfold stopContractSubscription at h
  split_ifs at h with hinput
  · exact .of_some h
  dsimp only at h
  split at h
  · exact .of_some h
  · next first hfirst =>
    split_ifs at h with hcontract
    · obtain ⟨-, rfl⟩ := Prod.mk.inj (some.inj h)
      apply hdisable
      split
      · exact .enqueue (.dequeue (.setSubscription (.refl s) (.inl (by rfl))) _) _
      · exact .dequeue (.setSubscription (.refl s) (.inl (by rfl))) _
    · obtain ⟨found, -, h⟩ := bind_eq_some_iff.1 h
      cases found with
      | none => exact .of_some h
      | some pair =>
        obtain ⟨-, rfl⟩ := Prod.mk.inj (some.inj h)
        exact hdisable _ _ (.setSubscriber (.refl s) ..)

lemma SameQueries.gatherSubscribers {queryTimestamp : DateAndTime} {n : Nat}
    {indices indices' : List Nat} (hs : SameQueries s s')
    (h : s'.gatherSubscribers now queryTimestamp id n indices = some (indices', s'')) :
    SameQueries s s'' := by
  induction n generalizing s' indices with
  | zero =>
    obtain ⟨-, rfl⟩ := Prod.mk.inj (some.inj h)
    exact hs
  | succ n ih =>
    unfold OracleEngine.gatherSubscribers at h
    dsimp only at h
    split at h
    · obtain ⟨-, rfl⟩ := Prod.mk.inj (some.inj h)
      exact hs
    · split_ifs at h
      · obtain ⟨-, rfl⟩ := Prod.mk.inj (some.inj h)
        exact hs
      · obtain ⟨timestamp, -, h⟩ := bind_eq_some_iff.1 h
        obtain ⟨s₁, hadd, h⟩ := bind_eq_some_iff.1 h
        refine ih (.addToSortedList ?_ hadd) h
        exact .setSubscription (.setSubscriber hs ..) (.inl (by rfl))

end

/-! ## The invariant of a run -/

structure Valid (env : Env D) (tick txCount : Nat) (s : OracleEngine D) : Prop where
  sound : Sound env s
  issued : Issued tick txCount s
  interfaces : ∀ k, (s.subscriptions k).interfaceIndex < oracleInterfacesCount

variable {env : Env D} {s s' : OracleEngine D} {tick txCount : Nat}

section

variable (h : Valid env tick txCount s)
include h

lemma Valid.frame (hsound : Sound env s') (hframe : Frame s s') :
    Valid env tick txCount s' := by
  refine ⟨hsound, h.issued.congr hframe.oracleQueryCount (fun j _ => hframe.queryId j)
    hframe.contractQueryIdState, fun k => ?_⟩
  obtain ⟨id, hid⟩ := hframe.subscriptions k
  rw [hid]
  exact h.interfaces k

lemma Valid.same (hsame : SameQueries s s') : Valid env tick txCount s' :=
  ⟨h.sound.congr hsame.indices, h.issued.congr hsame.indices.oracleQueryCount
    (fun j _ => by rw [hsame.indices.queries]) hsame.contractQueryIdState,
    hsame.interfaces h.interfaces⟩

omit [DecidableEq D] [Zero D] in
omit h in
lemma SameQueries.extends (h : SameQueries s s') : Extends s s' :=
  .of_count h.indices.oracleQueryCount h.indices.kept

lemma Valid.startQuery (htick : 0 < tick) (type : QueryType) (timeout : DateAndTime) (bytes : Nat)
    (hk : k < 2 ^ 31)
    (hfresh : ∀ j < s.oracleQueryCount, (s.queries j).queryId ≠ composeQueryId tick k)
    (hlast : k < txCount ∨ s.contractQueryIdState.tick = tick ∧
      NUMBER_OF_TRANSACTIONS_PER_TICK ≤ k ∧ k ≤ s.contractQueryIdState.queryIndexInTick)
    (hinterface : interfaceIndex < oracleInterfacesCount) :
    ∃ r s', s.startQuery env tick (composeQueryId tick k) type interfaceIndex timeout bytes =
        (r, s') ∧ Valid env tick txCount s' ∧ Extends s s' ∧ SameSchedule s s' ∧
      (r = none → s'.oracleQueryCount = s.oracleQueryCount) ∧
      (r ≠ none → Appended s s' (composeQueryId tick k) type interfaceIndex ∧
        s.queryStorageBytesUsed + bytes ≤ ORACLE_QUERY_STORAGE_SIZE) := by
  obtain ⟨r, s', hs', hsound, hschedule, hextends, hnone, hsome⟩ :=
    h.sound.startQuery tick type timeout bytes (composeQueryId_pos htick hk) hfresh hinterface
  have hid : ∀ j < s.oracleQueryCount, (s'.queries j).queryId = (s.queries j).queryId :=
    fun j hj => by rw [(hextends.kept j hj).1]
  have hinterfaces : ∀ k, (s'.subscriptions k).interfaceIndex < oracleInterfacesCount := by
    intro k
    obtain ⟨id, hid⟩ := hschedule.subscriptions k
    rw [hid]
    exact h.interfaces k
  refine ⟨r, s', hs', ⟨hsound, ?_, hinterfaces⟩, hextends, hschedule, hnone, hsome⟩
  cases r with
  | none => exact h.issued.congr (hnone rfl) hid hschedule.contractQueryIdState
  | some i => exact h.issued.append (hsome (by simp)).1 hid hschedule.contractQueryIdState hk hlast

lemma Valid.startUserQuery (htick : 0 < tick) (now : DateAndTime)
    (tx : UserQueryTransaction) {txIndex : Nat} (forceZeroFee : Bool) (hle : txCount ≤ txIndex)
    (hlt : txIndex < NUMBER_OF_TRANSACTIONS_PER_TICK)
    (hs' : s' = (s.startUserQuery env tick now tx txIndex forceZeroFee).2) :
    Valid env tick (txIndex + 1) s' ∧ Extends s s' := by
  have hmono : Valid env tick (txIndex + 1) s :=
    ⟨h.sound, h.issued.mono (by omega) hlt, h.interfaces⟩
  have hN : NUMBER_OF_TRANSACTIONS_PER_TICK < 2 ^ 31 := by decide
  unfold OracleEngine.startUserQuery at hs'
  dsimp only at hs'
  split at hs'
  · exact hs' ▸ ⟨hmono, .refl s⟩
  · next hinput =>
    push Not at hinput
    obtain ⟨r, s₁, hs₁, hvalid, hextends, -⟩ := hmono.startQuery htick
      (.userQuery txIndex tx.sourcePublicKey) (getTimeoutTimestamp now tx.timeoutMilliseconds) 0
      (by omega) (h.issued.fresh_tx hle hlt) (.inl (Nat.lt_succ_self _)) hinput.2.1
    rw [hs₁] at hs'
    generalize (if forceZeroFee then (0 : Int) else _) = fee at hs'
    split at hs'
    · exact hs' ▸ ⟨hmono, .refl s⟩
    · split at hs'
      · exact hs' ▸ ⟨hmono, .refl s⟩
      · cases r <;> exact hs' ▸ ⟨hvalid, hextends⟩

/-- A query with an ID from `getNewNonTxQueryId` is started, or refused. -/
lemma Valid.startNonTxQuery (htick : 0 < tick) :
    ∃ r s₁, s.getNewNonTxQueryId tick = (r, s₁) ∧ Valid env tick txCount s₁ ∧ Extends s s₁ ∧
      (∃ cs, s₁ = { s with contractQueryIdState := cs }) ∧
      ∀ id, r = some id → ∀ (type : QueryType) (interfaceIndex : Nat) (timeout : DateAndTime)
        (bytes : Nat), interfaceIndex < oracleInterfacesCount →
        ∃ r s', s₁.startQuery env tick id type interfaceIndex timeout bytes = (r, s') ∧
          Valid env tick txCount s' ∧ Extends s s' ∧ SameSchedule s₁ s' ∧
          (r = none → s'.oracleQueryCount = s₁.oracleQueryCount) ∧
          (r ≠ none → Appended s₁ s' id type interfaceIndex ∧
            s₁.queryStorageBytesUsed + bytes ≤ ORACLE_QUERY_STORAGE_SIZE) := by
  obtain ⟨r, cs, hr, hissued, hid⟩ := h.issued.getNewNonTxQueryId
  have hvalid : Valid env tick txCount { s with contractQueryIdState := cs } :=
    ⟨h.sound.congr ⟨rfl, rfl, rfl, rfl, rfl, rfl, rfl, rfl⟩, hissued, h.interfaces⟩
  have hext : Extends s { s with contractQueryIdState := cs } :=
    .of_count rfl fun j => ⟨rfl, fun _ => rfl⟩
  refine ⟨r, _, hr, hvalid, hext, ⟨cs, rfl⟩, ?_⟩
  intro id hsome type interfaceIndex timeout bytes hi
  obtain ⟨rfl, hcs, hfresh⟩ := hid id hsome
  obtain ⟨r', s', hs', hvalid', hext', hrest⟩ := hvalid.startQuery htick type timeout bytes
    hissued.index_lt hfresh (.inr ⟨hcs, hissued.index_ge hcs, le_rfl⟩) hi
  exact ⟨r', s', hs', hvalid', hext.trans hext', hrest⟩

lemma Valid.startContractQuery (htick : 0 < tick)
    (now : DateAndTime) (contractIndex interfaceIndex : Nat) (queryData : List UInt8)
    (timeoutMillisec procId : Nat)
    (hs' : s' = (s.startContractQuery env tick now contractIndex interfaceIndex queryData
      timeoutMillisec procId).2) : Valid env tick txCount s' ∧ Extends s s' := by
  unfold OracleEngine.startContractQuery at hs'
  split_ifs at hs' with hinput
  · exact hs' ▸ ⟨h, .refl s⟩
  dsimp only at hs'
  split_ifs at hs' with htime
  · exact hs' ▸ ⟨h, .refl s⟩
  push Not at hinput
  obtain ⟨r, s₁, hr, hvalid, hext, -, hstart⟩ := h.startNonTxQuery htick
  rw [hr] at hs'
  cases r with
  | none => exact hs' ▸ ⟨hvalid, hext⟩
  | some id =>
    obtain ⟨r', s₂, hs₂, hvalid₂, hext₂, -⟩ := hstart id rfl
      (.contractQuery procId s₁.queryStorageBytesUsed contractIndex) interfaceIndex
      (getTimeoutTimestamp now timeoutMillisec) queryData.length hinput.2.1
    dsimp only at hs'
    rw [hs₂] at hs'
    cases r' with
    | none => exact hs' ▸ ⟨hvalid₂, hext₂⟩
    | some i =>
      have hsame : SameQueries s₂ s' := by
        rw [hs']
        exact .of_subscriptions
      exact ⟨hvalid₂.same hsame, hext₂.trans hsame.extends⟩

lemma Valid.generateSubscriptionQuery (htick : 0 < tick)
    {now : DateAndTime} {subscriptionId : Nat} {round : Round D}
    (hround : s.generateSubscriptionQuery env tick now subscriptionId = some round) :
    Valid env tick txCount round.engine ∧ Extends s round.engine := by
  obtain ⟨⟨indices, s₁⟩, hgather, hround⟩ := bind_eq_some_iff.1 hround
  have hsame : SameQueries s s₁ := .gatherSubscribers (.refl s) hgather
  obtain ⟨r, s₂, hr, hvalid, hext, ⟨cs, hcs⟩, hstart⟩ := (h.same hsame).startNonTxQuery htick
  dsimp only at hround
  rw [hr] at hround
  cases r with
  | none =>
    obtain rfl := some.inj hround
    exact ⟨hvalid, hsame.extends.trans hext⟩
  | some id =>
    dsimp only at hround
    obtain ⟨r', s₃, hs₃, hvalid₃, hext₃, hschedule, -⟩ := hstart id rfl
      (.contractSubscription subscriptionId s₂.queryStorageBytesUsed indices.length)
      (s₂.subscriptions subscriptionId).interfaceIndex
      ((s.subscriptions subscriptionId).nextQueryTimestamp.add 0 0 0 0 1 0 0 0).2
      ((oracleInterface (s₂.subscriptions subscriptionId).interfaceIndex).querySize +
        4 * indices.length) (hvalid.interfaces _)
    rw [hs₃] at hround
    cases r' with
    | none =>
      obtain rfl := some.inj hround
      exact ⟨hvalid₃, hsame.extends.trans hext₃⟩
    | some i =>
      obtain rfl := some.inj hround
      have hstored : SameQueries s₃ (s₃.storeSubscriptionQuery (s₂.subscriptions subscriptionId)
          indices) := .of_subscriptions
      refine (fun hlast : SameQueries s₃ _ =>
        ⟨hvalid₃.same hlast, hsame.extends.trans (hext₃.trans hlast.extends)⟩) ?_
      exact SameQueries.trans (.setSubscription hstored (.inr (by exact hvalid.interfaces _)))
        (.of_subscriptions ⟨rfl, rfl, rfl, rfl, rfl, rfl, rfl, rfl⟩ rfl rfl)

lemma Valid.generateRounds (htick : 0 < tick) {now : DateAndTime}
    {fuel : Nat} {round : Round D} (hround : s.generateRounds env tick now fuel = some round) :
    Valid env tick txCount round.engine ∧ Extends s round.engine := by
  induction fuel generalizing s with
  | zero => cases hround
  | succ fuel ih =>
    obtain ⟨first, hfirst, hround⟩ := bind_eq_some_iff.1 hround
    have hvalid : Valid env tick txCount first.engine ∧ Extends s first.engine := by
      unfold generateRound at hfirst
      split at hfirst
      · obtain rfl := some.inj hfirst
        exact ⟨h, .refl s⟩
      · split_ifs at hfirst
        · obtain rfl := some.inj hfirst
          exact ⟨h, .refl s⟩
        · exact h.generateSubscriptionQuery htick hfirst
    cases first with
    | idle s₁ =>
      obtain rfl := some.inj hround
      exact hvalid
    | refused s₁ =>
      obtain rfl := some.inj hround
      exact hvalid
    | generated s₁ =>
      obtain ⟨hvalid', hext⟩ := ih hvalid.1 hround
      exact ⟨hvalid', hvalid.2.trans hext⟩

end

end OracleEngine

/-! ## Steps and runs -/

open OracleEngine

variable {env : Env D} {n n' : Node D} {e : Event D} {es : List (Event D)}

structure Node.Valid (env : Env D) (n : Node D) : Prop extends
    OracleEngine.Valid env n.tick n.txCount n.engine where
  tick_pos : 0 < n.tick

def Event.commits (env : Env D) : Event D → List (Nat × CommitItem D)
  | .commit tx => commitsOf env tx
  | _ => []

inductive Fate (env : Env D) (s s' : OracleEngine D) (i : Nat) (e : Event D) : Prop
  | voted : Voted s s' i (e.commits env) → Fate env s s' i e
  | expired (now : DateAndTime) : e = .timeouts now → s.Open i →
    (s'.queries i).status = .timeout → Fate env s s' i e
  | revealed (tx : RevealTransaction) (slot : Nat) : e = .reveal tx slot →
    Revealed env s s' i tx → Fate env s s' i e

/-- What a step of a node keeps and does. -/
structure Stepped (env : Env D) (n n' : Node D) (e : Event D) : Prop where
  valid : n'.Valid env
  count_le : n.engine.oracleQueryCount ≤ n'.engine.oracleQueryCount
  queryId : ∀ i < n.engine.oracleQueryCount,
    (n'.engine.queries i).queryId = (n.engine.queries i).queryId
  fate : ∀ i < n.engine.oracleQueryCount, Fate env n.engine n'.engine i e
  pending : ∀ i, n.engine.oracleQueryCount ≤ i → i < n'.engine.oracleQueryCount → n'.engine.Open i
  blank : ∀ i, n.engine.oracleQueryCount ≤ i → i < n'.engine.oracleQueryCount →
    ∀ c, (n'.engine.reply i).commit c = none

omit [Zero D] in
lemma OracleEngine.Steady.fate {s s' : OracleEngine D} {i : Nat} (h : Steady s s' i)
    (hcount : s.oracleQueryCount ≤ s'.oracleQueryCount) (he : e.commits env = []) :
    Fate env s s' i e :=
  .voted (h.voted hcount fun _ c => by rw [he, joined, firstCommit]; simp)

lemma Stepped.of_extends (hvalid : n'.Valid env) (hext : Extends n.engine n'.engine)
    (he : e.commits env = []) : Stepped env n n' e where
  valid := hvalid
  count_le := hext.count_le
  queryId i hi := by rw [(hext.kept i hi).1]
  fate i hi := (hext.kept i hi).steady.fate hext.count_le he
  pending i hi hlt := ⟨hlt, .inl (hext.pending i hi hlt)⟩
  blank i hi hlt c := by rw [OracleReplyState.commit, if_pos (hext.blank i hi hlt c)]

lemma Stepped.of_frame (hvalid : n'.Valid env) (hframe : Frame n.engine n'.engine)
    (hfate : ∀ i, Fate env n.engine n'.engine i e) : Stepped env n n' e where
  valid := hvalid
  count_le := hframe.oracleQueryCount.ge
  queryId i _ := hframe.queryId i
  fate i _ := hfate i
  pending i hi hlt := absurd hlt (by rw [hframe.oracleQueryCount]; omega)
  blank i hi hlt := absurd hlt (by rw [hframe.oracleQueryCount]; omega)

lemma Node.Valid.step (h : n.Valid env) (hadm : Admissible n e)
    (hstep : step env n e = some n') : Stepped env n n' e := by
  obtain ⟨s', hs', hn'⟩ := map_eq_some_iff.1 hstep
  have hvalid := h.toValid
  cases e with
  | nextTick tick =>
    obtain rfl := some.inj hs'
    subst hn'
    exact .of_extends ⟨⟨h.sound, h.issued.nextTick hadm.1, h.interfaces⟩,
      h.tick_pos.trans hadm.1⟩ (.refl _) rfl
  | userQuery now tx txIndex forceZeroFee =>
    obtain ⟨hv, hext⟩ := hvalid.startUserQuery h.tick_pos now tx forceZeroFee hadm.1 hadm.2
      (some.inj hs').symm
    subst hn'
    exact .of_extends ⟨hv, h.tick_pos⟩ hext rfl
  | contractQuery now contractIndex interfaceIndex queryData timeoutMillisec procId =>
    obtain ⟨hv, hext⟩ := hvalid.startContractQuery h.tick_pos now contractIndex interfaceIndex
      queryData timeoutMillisec procId (some.inj hs').symm
    subst hn'
    exact .of_extends ⟨hv, h.tick_pos⟩ hext rfl
  | machineReply replyMessage =>
    obtain ⟨hsound, hframe, hsteady⟩ := h.sound.processOracleMachineReply replyMessage
    obtain rfl := some.inj hs'
    subst hn'
    exact .of_frame ⟨hvalid.frame hsound hframe, h.tick_pos⟩ hframe fun i =>
      (hsteady i).fate hframe.oracleQueryCount.ge rfl
  | commit tx =>
    have htick : tx.tick ≠ 0 := by
      have := h.tick_pos
      have : tx.tick = n.tick := hadm
      omega
    obtain ⟨r, s₁, hs₁, hsound, hframe, hvoted⟩ := h.sound.processOracleReplyCommitTransaction htick
    rw [Event.engine, hs₁] at hs'
    obtain rfl := some.inj hs'
    subst hn'
    exact .of_frame ⟨hvalid.frame hsound hframe, h.tick_pos⟩ hframe fun i => .voted (hvoted i)
  | reveal tx slot =>
    obtain ⟨r, s₁, hs₁, hsound, hframe, hfate⟩ :=
      h.sound.processOracleReplyRevealTransaction tx slot
    rw [Event.engine, hs₁] at hs'
    obtain rfl := some.inj hs'
    subst hn'
    refine .of_frame ⟨hvalid.frame hsound hframe, h.tick_pos⟩ hframe fun i => ?_
    obtain hsteady | hrevealed := hfate i
    · exact hsteady.fate hframe.oracleQueryCount.ge rfl
    · exact .revealed tx slot rfl hrevealed
  | timeouts now =>
    obtain ⟨s₁, hs₁, hsound, hframe, hexpired, hkept⟩ := h.sound.processTimeouts now
    rw [Event.engine, hs₁] at hs'
    obtain rfl := some.inj hs'
    subst hn'
    refine .of_frame ⟨hvalid.frame hsound hframe, h.tick_pos⟩ hframe fun i => ?_
    by_cases hi : n.engine.Open i ∧ (n.engine.queries i).timeout ≤ now
    · exact .expired now rfl hi.1 (by rw [hexpired i hi.1 hi.2])
    · exact (hkept i hi).steady.fate hframe.oracleQueryCount.ge rfl
  | subscribe now contractIndex interfaceIndex queryData periodMillisec procId timestampOffset =>
    obtain ⟨⟨r, s₁⟩, hs₁, rfl⟩ := map_eq_some_iff.1 hs'
    have hsame := startContractSubscription_same hs₁
    subst hn'
    exact .of_extends ⟨hvalid.same hsame, h.tick_pos⟩ hsame.extends rfl
  | unsubscribe subscriptionId contractIndex =>
    obtain ⟨⟨r, s₁⟩, hs₁, rfl⟩ := map_eq_some_iff.1 hs'
    have hsame := stopContractSubscription_same hs₁
    subst hn'
    exact .of_extends ⟨hvalid.same hsame, h.tick_pos⟩ hsame.extends rfl
  | generate now =>
    obtain ⟨round, hround, rfl⟩ := map_eq_some_iff.1 hs'
    obtain ⟨hv, hext⟩ := hvalid.generateRounds h.tick_pos hround
    subst hn'
    exact .of_extends ⟨hv, h.tick_pos⟩ hext rfl

lemma Node.Valid.start {tick : Nat} (h : 0 < tick) : (Node.start tick : Node D).Valid env where
  sound := .reset
  issued := .start tick h
  interfaces _ := (by decide : 0 < oracleInterfacesCount)
  tick_pos := h

lemma Node.Valid.run (h : n.Valid env) (hrun : Run env n es n') : n'.Valid env := by
  induction hrun with
  | nil => exact h
  | snoc _ hadm hstep ih => exact (ih.step hadm hstep).valid

lemma Reachable.valid (h : Reachable env n) : n.Valid env := by
  obtain ⟨tick, es, hpos, -, hrun⟩ := h
  exact (Node.Valid.start hpos).run hrun

/-! ## Consistency -/

def UnsortedMultiset.Mem (m : UnsortedMultiset Nat) (k : Nat) : Prop :=
  ∃ p < m.numValues, m.values p = k

structure OracleEngine.Consistent (env : Env D) (s : OracleEngine D) : Prop where
  distinct : ∀ i < s.oracleQueryCount, ∀ j < s.oracleQueryCount,
    (s.queries i).queryId = (s.queries j).queryId → i = j
  mapped : ∀ i < s.oracleQueryCount,
    HashMap.get MAX_ORACLE_QUERIES env.hash s.queryIdToIndex (s.queries i).queryId = some i
  pending : ∀ i, s.pendingQueryIndices.Mem i ↔ i < s.oracleQueryCount ∧
    ((s.queries i).status = .pending ∨ (s.queries i).status = .committed)
  slot_lt : ∀ i, s.Open i → s.slot i < MAX_SIMULTANEOUS_ORACLE_QUERIES
  slot_id : ∀ i, s.Open i → (s.replyStates (s.slot i)).queryId = (s.queries i).queryId
  slot_unique : ∀ i j, s.Open i → s.Open j → s.slot i = s.slot j → i = j
  reveals : ∀ k, s.pendingRevealReplyStateIndices.Mem k ↔
    ∃ i, s.Open i ∧ s.slot i = k ∧ (s.queries i).status = .committed
  commits : ∀ k, s.pendingCommitReplyStateIndices.Mem k ↔
    ∃ i, s.Open i ∧ s.slot i = k ∧ (s.queries i).status = .pending ∧
      (s.queries i).statusFlags &&& ORACLE_FLAG_REPLY_RECEIVED ≠ 0

lemma OracleEngine.Sound.consistent {s : OracleEngine D} (h : Sound env s) :
    Consistent env s := by
  have hflag : ∀ i, s.Open i → ((s.reply i).ownReplySize ≠ 0 ↔
      (s.queries i).statusFlags &&& ORACLE_FLAG_REPLY_RECEIVED ≠ 0) := by
    intro i hi
    rw [(h.agrees i hi).replied, ORACLE_FLAG_REPLY_RECEIVED, (by norm_num : 0x100 = 2 ^ 8),
      Nat.and_two_pow]
    cases (s.queries i).statusFlags.testBit 8 <;> simp
  obtain ⟨S, hS, hopen⟩ := h.pending
  obtain ⟨R, hR, hreveals⟩ := h.reveals
  obtain ⟨C, hC, hcommits⟩ := h.commits
  refine ⟨fun i hi j hj => h.index_unique hi hj, fun i hi => h.lookup_iff.2 ⟨hi, rfl⟩,
    fun i => (hS.mem i).symm.trans (hopen i), h.slot_lt, fun i hi => (h.agrees i hi).queryId,
    h.distinct, fun k => (hR.mem k).symm.trans (hreveals k), fun k => ?_⟩
  refine ((hC.mem k).symm.trans (hcommits k)).trans (exists_congr fun i => ?_)
  refine and_congr_right fun hi => and_congr_right fun _ => and_congr_right fun _ => hflag i hi

/-- In every reachable state the indices are consistent, no call on replies gets stuck, and the
check for timeouts moves exactly the open queries whose time has come. -/
theorem indices_consistent (h : Reachable env n) :
    n.engine.Consistent env ∧
    (∀ tx : CommitTransaction D, tx.tick = n.tick → step env n (.commit tx) ≠ none) ∧
    (∀ tx slot, step env n (.reveal tx slot) ≠ none) ∧
    ∀ now, ∃ s', n.engine.processTimeouts now = some s' ∧
      (∀ i, n.engine.Open i → (n.engine.queries i).timeout ≤ now →
        s'.queries i = { n.engine.queries i with
          status := .timeout, statusVar := (s'.queries i).statusVar }) ∧
      ∀ i, ¬(n.engine.Open i ∧ (n.engine.queries i).timeout ≤ now) →
        s'.queries i = n.engine.queries i ∧ (n.engine.Open i → s'.reply i = n.engine.reply i) := by
  have hvalid := h.valid
  refine ⟨hvalid.sound.consistent, fun tx htx => ?_, fun tx slot => ?_, fun now => ?_⟩
  · have htick : tx.tick ≠ 0 := by
      have := hvalid.tick_pos
      omega
    obtain ⟨r, s', hs', -⟩ := hvalid.sound.processOracleReplyCommitTransaction htick
    simp [step, Event.engine, hs']
  · obtain ⟨r, s', hs', -⟩ := hvalid.sound.processOracleReplyRevealTransaction tx slot
    simp [step, Event.engine, hs']
  · obtain ⟨s', hs', -, -, hexpired, hkept⟩ := hvalid.sound.processTimeouts now
    exact ⟨s', hs', hexpired, hkept⟩

/-- A decided query stays as it is, and a committed one is not pending again. -/
def QueryStatus.Follows (a b : QueryStatus) : Prop :=
  a = b ∨ a = .pending ∨ a = .committed ∧ b ≠ .pending

omit [Zero D] in
lemma Fate.follows {s s' : OracleEngine D} {i : Nat} (h : Fate env s s' i e) :
    (s.queries i).status.Follows (s'.queries i).status := by
  cases h with
  | voted hvoted =>
    cases hvoted with
    | closed _ hstatus => exact .inl hstatus.symm
    | counted hopen _ hcommitted =>
      obtain hp | hc := hopen.2
      · exact .inr (.inl hp)
      · exact .inl (hc.trans (hcommitted hc).symm)
    | hopeless _ hp => exact .inr (.inl hp)
  | expired _ _ hopen hstatus =>
    exact .inr (hopen.2.imp id fun hc => ⟨hc, by simp [hstatus]⟩)
  | revealed tx _ _ hrevealed =>
    refine .inr (.inr ⟨hrevealed.reveals.committed, ?_⟩)
    rw [hrevealed.outcome]
    split_ifs <;> simp

/-- No query is lost or decided twice, whatever the order of the events. -/
theorem status_never_returns (h : Reachable env n) (hrun : Run env n es n') {i : Nat}
    (hi : i < n.engine.oracleQueryCount) :
    i < n'.engine.oracleQueryCount ∧
      (n'.engine.queries i).queryId = (n.engine.queries i).queryId ∧
      (n.engine.queries i).status.Follows (n'.engine.queries i).status := by
  induction hrun with
  | nil => exact ⟨hi, rfl, .inl rfl⟩
  | snoc hrun hadm hstep ih =>
    obtain ⟨hlt, hid, hfollows⟩ := ih
    have hstepped := (h.valid.run hrun).step hadm hstep
    refine ⟨hlt.trans_le hstepped.count_le, (hstepped.queryId i hlt).trans hid, ?_⟩
    have := (hstepped.fate i hlt).follows
    grind [QueryStatus.Follows]

/-- A small environment: an injective encoding of byte lists and numbered computors. -/
def sampleEnv : Env Nat :=
  ⟨fun l => Encodable.encode (l.map UInt8.toNat), Int.toNat, fun c => ⟨BitVec.ofNat 256 c⟩⟩

/-- A contract asks the interface `Mock`, one minute of time for the reply. -/
def sampleQuery : Event Nat :=
  .contractQuery (.set 2026 1 2 3 4 5 0 0) 1 1 [1, 2, 3, 4, 5, 6, 7, 8] 60000 0

def sampleTimeout : Event Nat := .timeouts (.set 2026 1 2 4 0 0 0 0)

lemma sampleQuery_expires : ∃ n n', step sampleEnv (.start 1) sampleQuery = some n ∧
    step sampleEnv n sampleTimeout = some n' ∧ n.engine.oracleQueryCount = 1 ∧
    (n.engine.queries 0).interfaceIndex = 1 ∧ (n.engine.queries 0).status = .pending ∧
    (n'.engine.queries 0).status = .timeout := by
  have h : ((step sampleEnv (.start 1) sampleQuery).bind fun n =>
      (step sampleEnv n sampleTimeout).map fun n' => (n.engine.oracleQueryCount,
        (n.engine.queries 0).interfaceIndex, (n.engine.queries 0).status,
        (n'.engine.queries 0).status)) = some (1, 1, .pending, .timeout) := by
    decide +kernel
  obtain ⟨n, hn, h⟩ := bind_eq_some_iff.1 h
  obtain ⟨n', hn', h⟩ := map_eq_some_iff.1 h
  simp only [Prod.mk.injEq] at h
  exact ⟨n, n', hn, hn', h⟩

theorem indices_consistent_sample : ∃ n, Reachable sampleEnv n ∧
    (n.engine.queries 0).status = .timeout ∧ n.engine.Consistent sampleEnv := by
  obtain ⟨n, n', hn, hn', -, -, -, hstatus⟩ := sampleQuery_expires
  have hstart : Run sampleEnv (.start 1) ([] ++ [sampleQuery]) n := .snoc .nil trivial hn
  have hadm : Admissible n sampleTimeout := trivial
  have hreach : Reachable sampleEnv n' := ⟨1, _, by decide, by decide, hstart.snoc hadm hn'⟩
  exact ⟨n', hreach, hstatus, (indices_consistent hreach).1⟩

theorem status_never_returns_sample : ∃ n n', Run sampleEnv n ([] ++ [sampleTimeout]) n' ∧
    (n.engine.queries 0).status = .pending ∧ (n'.engine.queries 0).status = .timeout ∧
    (n.engine.queries 0).status.Follows (n'.engine.queries 0).status := by
  obtain ⟨n, n', hn, hn', hcount, -, hpending, hstatus⟩ := sampleQuery_expires
  have hstart : Run sampleEnv (.start 1) ([] ++ [sampleQuery]) n := .snoc .nil trivial hn
  have hrun : Run sampleEnv n ([] ++ [sampleTimeout]) n' := .snoc .nil trivial hn'
  exact ⟨n, n', hrun, hpending, hstatus, (status_never_returns
    ⟨1, _, by decide, by decide, hstart⟩ hrun (hcount ▸ Nat.zero_lt_one)).2.2⟩

end QubicCore.Oracle
