import QubicCore.Contracts.QBond.Matching

/-!
# The bonds behind the ask orders

An owner's ask orders for a bond asset, over all epochs that use it, are covered by the bonds of the
owner. The contract counts the orders of one epoch only, so this needs that an owner who sells or
transfers bonds has no ask orders for another epoch with the same asset.
-/

namespace QubicCore.Contracts.QBond

open Library MathLib List
open QubicCore.Qpi (Collection Entry)

variable {W : Type} {host : Host W} {balance : W → Int} {call : Invocation} {s s' : State}
  {w w' : W} {epoch : Int} {info : MBondInfo}
  {account : M256i} {name : Nat}

structure Inv (s : State) : Prop where
  names : ∀ epoch n, s.nameOf epoch = some n → 0 < n ∧ n < 2 ^ 64
  asks : ∀ e ∈ s.askOrders, Booked s.nameOf e
  bids : ∀ e ∈ s.bidOrders, Standing e

def Covered (host : Host W) (s : State) (w : W) : Prop :=
  ∀ owner name, asked s.nameOf owner name s.askOrders ≤ bonds host name owner w

structure Sound (host : Host W) (s : State) (w : W) : Prop where
  inv : Inv s
  covered : Covered host s w

lemma Inv.asked_nonneg (h : Inv s) (owner : M256i) (name : Nat) :
    0 ≤ asked s.nameOf owner name s.askOrders :=
  QBond.asked_nonneg fun e he => (h.asks e he).pos

lemma Inv.asked_self (h : Inv s) (name : Nat) : asked s.nameOf SELF name s.askOrders = 0 :=
  asked_eq_zero fun e he howner => absurd howner (h.asks e he).party.1

lemma Inv.asked_zero (h : Inv s) (owner : M256i) : asked s.nameOf owner 0 s.askOrders = 0 :=
  asked_eq_zero fun _ _ _ hname => absurd (h.names _ _ hname).1 (lt_irrefl 0)

/-- A call that leaves the ask orders and the names alone, and takes bonds from no one else than the
contract. -/
lemma Sound.frame (hlaw : host.Lawful balance) (h : Sound host s w)
    (hnames : s'.nameOf = s.nameOf) (hasks : s'.askOrders = s.askOrders)
    (hbids : ∀ e ∈ s'.bidOrders, Standing e)
    (hbonds : ∀ name owner, owner ≠ SELF → bonds host name owner w ≤ bonds host name owner w') :
    Sound host s' w' := by
  refine ⟨⟨?_, ?_, hbids⟩, fun owner name => ?_⟩
  · rw [hnames]
    exact h.inv.names
  · rw [hnames, hasks]
    exact h.inv.asks
  · rw [hnames, hasks]
    by_cases howner : owner = SELF
    · rw [howner, h.inv.asked_self]
      exact hlaw.qpi.shares_nonneg (bond name) SELF w'
    · exact (h.covered owner name).trans (hbonds name owner howner)

lemma Sound.of_fall (hlaw : host.Lawful balance) (h : Sound host s w)
    (hfall : host.SharesFall SELF_INDEX w w' 0) : Sound host s w' :=
  h.frame hlaw rfl rfl h.inv.bids fun name owner _ => bonds_le_of_fall_zero hfall name owner

/-! ## The map of epochs -/

lemma nameOf_eq (h : s.info epoch = some info) : s.nameOf epoch = some info.name := by
  rw [State.nameOf, h, Option.map_some]

lemma exists_info (h : ¬(s.info epoch).isNone) : ∃ info, s.info epoch = some info := by
  cases hinfo : s.info epoch with
  | none => exact absurd (by rw [hinfo]; rfl) h
  | some info => exact ⟨info, rfl⟩

lemma nameOf_replaceInfo (hname : info.name = ((s.info epoch).getD noInfo).name) :
    (s.replaceInfo epoch info).nameOf = s.nameOf := by
  unfold State.replaceInfo
  split_ifs with hmem
  · obtain ⟨old, hold⟩ := Option.isSome_iff_exists.mp (AList.lookup_isSome.mpr hmem)
    have hinfo : s.info epoch = some old := hold
    funext other
    simp only [State.nameOf, State.info]
    by_cases hkey : uint16 other = uint16 epoch
    · rw [hkey, AList.lookup_insert, hold, Option.map_some, Option.map_some, hname, hinfo]
      rfl
    · rw [AList.lookup_insert_ne hkey]
  · rfl

@[simp] lemma replaceInfo_askOrders (s : State) (epoch : Int) (info : MBondInfo) :
    (s.replaceInfo epoch info).askOrders = s.askOrders := by
  unfold State.replaceInfo
  split_ifs <;> rfl

@[simp] lemma replaceInfo_bidOrders (s : State) (epoch : Int) (info : MBondInfo) :
    (s.replaceInfo epoch info).bidOrders = s.bidOrders := by
  unfold State.replaceInfo
  split_ifs <;> rfl

/-! ## What the contract counts -/

def Alone (s : State) (account : M256i) (epoch : Int) : Prop :=
  ∀ e ∈ s.askOrders, e.value.owner = account → s.nameOf e.value.epoch = s.nameOf epoch →
    e.value.epoch = epoch

lemma Inv.askQueue_eq (h : Inv s) (pov : M256i) : askQueue s pov = s.askOrders.queue pov := by
  unfold askQueue
  rw [dropWhile_eq_self_iff]
  intro hlength
  have hmem := Collection.mem_queue.mp (getElem_mem hlength)
  have hneg := (h.asks _ hmem.1).priority_neg
  simpa using hneg.le

lemma Sound.reserved_eq (hlaw : host.Lawful balance) (h : Sound host s w)
    (hinfo : s.info epoch = some info) (halone : Alone s account epoch) :
    numberOfReservedMBonds s account epoch = asked s.nameOf account info.name s.askOrders := by
  have hname := nameOf_eq hinfo
  have hsum : (((askQueue s (mbondIdentity info.name epoch)).filter fun e =>
      e.value.epoch = epoch ∧ e.value.owner = account).map fun e => e.value.numberOfMBonds).sum =
      asked s.nameOf account info.name s.askOrders := by
    rw [h.inv.askQueue_eq, Collection.queue, filter_filter, asked]
    congr 2
    apply filter_congr
    intro e he
    obtain ⟨n, hn, hpov⟩ := (h.inv.asks e he).listed
    simp only [← Bool.decide_and, decide_eq_decide]
    constructor
    · rintro ⟨⟨hepoch, howner⟩, -⟩
      exact ⟨howner, by rw [hepoch, hname]⟩
    · rintro ⟨howner, hsame⟩
      have hepoch := halone e he howner (hsame.trans hname.symm)
      rw [hn, Option.some_inj] at hsame
      exact ⟨⟨hepoch, howner⟩, by rw [hpov, hsame, hepoch]⟩
  have hnonneg := h.inv.asked_nonneg account info.name
  have hle := (h.covered account info.name).trans (hlaw.qpi.shares_le (bond info.name) account w)
  simp only [numberOfReservedMBonds, hinfo]
  rw [hsum]
  unfold MAX_AMOUNT ISSUANCE_RATE at hle
  exact sint64_eq (by omega) (by omega)

lemma Sound.free (hlaw : host.Lawful balance) (h : Sound host s w)
    (hinfo : s.info epoch = some info) (halone : Alone s account epoch) {amount : Int}
    (hcheck : ¬sint64 (bonds host info.name account w -
      numberOfReservedMBonds s account epoch) < amount) :
    asked s.nameOf account info.name s.askOrders + amount ≤ bonds host info.name account w := by
  have hnonneg := h.inv.asked_nonneg account info.name
  have hcovered := h.covered account info.name
  have hle : bonds host info.name account w ≤ MAX_AMOUNT :=
    hlaw.qpi.shares_le (bond info.name) account w
  unfold MAX_AMOUNT ISSUANCE_RATE at hle
  rw [h.reserved_eq hlaw hinfo halone, sint64_eq (by omega) (by omega)] at hcheck
  omega

/-! ## Payments -/

section

variable (hlaw : host.Lawful balance)
include hlaw

variable (call) in
lemma refund_fall (w : W) : host.SharesFall SELF_INDEX w (refund host call w) 0 := by
  unfold refund
  split_ifs
  · exact pay_fall hlaw _ _ w
  · exact .refl w

variable (call) in
lemma refundExcess_fall (fee : Int) (w : W) :
    host.SharesFall SELF_INDEX w (refundExcess host call fee w) 0 := by
  unfold refundExcess
  split_ifs
  · exact pay_fall hlaw _ _ w
  · exact .refl w

variable (call) in
lemma takeFee_fall (fee : Int) (s : State) (w : W) :
    host.SharesFall SELF_INDEX w (takeFee host call fee s w).2 0 := by
  unfold takeFee
  split_ifs
  · exact pay_fall hlaw _ _ w
  · exact .refl w

omit hlaw in
variable (host call) in
lemma takeFee_state (fee : Int) (s : State) (w : W) :
    ∃ earned, (takeFee host call fee s w).1 = { s with totalEarnedAmount := earned } := by
  unfold takeFee
  split_ifs
  · exact ⟨s.totalEarnedAmount, rfl⟩
  · exact ⟨_, rfl⟩

/-! ## Staking and transfers -/

section

variable (h : Sound host s w)
include h

lemma stake_sound (epoch quMillions : Int) :
    Sound host (stake host call epoch quMillions s w).1
      (stake host call epoch quMillions s w).2 := by
  unfold stake
  split_ifs with herror
  · exact h.of_fall hlaw (pay_fall hlaw _ _ w)
  · generalize divSigned (smul quMillions QBOND_MBOND_PRICE * QBOND_STAKE_FEE_PERCENT) 10000 = fee
    have hpaid := refundExcess_fall call hlaw (amountAndFee quMillions) w
    revert hpaid
    generalize refundExcess host call (amountAndFee quMillions) w = w₁
    intro hpaid
    have hfee := takeFee_fall call hlaw fee s w₁
    obtain ⟨earned, hstate⟩ := takeFee_state host call fee s w₁
    refine h.frame hlaw ?_ ?_ ?_ fun name owner howner => ?_
    · rw [nameOf_replaceInfo, hstate]
      · rfl
      · rw [hstate]
        rfl
    · rw [replaceInfo_askOrders, hstate]
    · rw [replaceInfo_bidOrders, hstate]
      exact h.inv.bids
    · have hstart := bonds_le_of_fall_zero (hpaid.trans hfee) name owner
      refine hstart.trans (le_trans ?_ (bonds_le_of_fall_zero (hlaw.lock _ _) name owner))
      exact moveBonds_others hlaw _ SELF _ _ _ fun h => howner h.1.symm

lemma Sound.recount (fee : Int) (hname : info.name = ((s.info epoch).getD noInfo).name) :
    Sound host (takeFee host call fee (s.replaceInfo epoch info) w).1
      (takeFee host call fee (s.replaceInfo epoch info) w).2 := by
  obtain ⟨earned, hstate⟩ := takeFee_state host call fee (s.replaceInfo epoch info) w
  refine h.frame hlaw ?_ ?_ ?_ fun name owner _ =>
    bonds_le_of_fall_zero (takeFee_fall call hlaw _ _ w) name owner
  · rw [hstate]
    exact nameOf_replaceInfo hname
  · rw [hstate, replaceInfo_askOrders]
  · rw [hstate, replaceInfo_bidOrders]
    exact h.inv.bids

omit hlaw in
/-- Bonds that are free leave an account, for whom the rest is still there. -/
lemma Sound.spend {amount : Int}
    (hfree : asked s.nameOf account name s.askOrders + amount ≤ bonds host name account w)
    (hfall : host.SharesFall SELF_INDEX w w' (sharesLoss (bond name) account amount)) :
    Sound host s w' := by
  refine ⟨h.inv, fun owner other => ?_⟩
  have hbonds := bonds_le_of_fall hfall other owner
  have hcovered := h.covered owner other
  by_cases hsame : account = owner ∧ name = other
  · obtain ⟨rfl, rfl⟩ := hsame
    omega
  · rw [if_neg hsame] at hbonds
    omega

lemma transferMBond_sound {input : TransferInput} (halone : Alone s call.invocator input.epoch) :
    Sound host (transferMBondOwnershipAndPossession host call input s w).2.1
      (transferMBondOwnershipAndPossession host call input s w).2.2 := by
  unfold transferMBondOwnershipAndPossession
  split_ifs with herror
  · exact h.of_fall hlaw (pay_fall hlaw _ _ w)
  have hpos : 0 < input.numberOfMBonds := by
    simp only [transferError, decide_eq_true_eq, not_or, not_le] at herror
    exact herror.2.1
  have h' := h.of_fall hlaw (refundExcess_fall call hlaw QBOND_MBOND_TRANSFER_FEE w)
  revert h'
  generalize refundExcess host call QBOND_MBOND_TRANSFER_FEE w = w₁
  intro h'
  by_cases hlacks : (s.info input.epoch).isSome ∧
      sint64 (bonds host ((s.info input.epoch).getD noInfo).name call.invocator w₁ -
        numberOfReservedMBonds s call.invocator input.epoch) < input.numberOfMBonds
  · rw [if_pos hlacks]
    exact h'.of_fall hlaw (pay_fall hlaw _ _ w₁)
  · rw [if_neg hlacks]
    have hmove := hlaw.qpi.moveShares_fall (bond ((s.info input.epoch).getD noInfo).name)
      call.invocator input.newOwnerAndPossessor hpos.le w₁
    have hspent : Sound host s (moveBonds host ((s.info input.epoch).getD noInfo).name
        call.invocator input.newOwnerAndPossessor input.numberOfMBonds w₁).2 := by
      cases hinfo : s.info input.epoch with
      | none =>
        -- Without a record the name is zero, and nothing is asked for under it.
        rw [hinfo] at hmove
        refine ⟨h'.inv, fun owner other => ?_⟩
        have hbonds := bonds_le_of_fall hmove other owner
        have hcovered := h'.covered owner other
        by_cases hsame : call.invocator = owner ∧ noInfo.name = other
        · rw [← hsame.2, show noInfo.name = 0 from rfl, h'.inv.asked_zero]
          exact hlaw.qpi.shares_nonneg _ _ _
        · rw [Option.getD_none, if_neg hsame] at hbonds
          exact hcovered.trans (hbonds.trans (add_zero _).le)
      | some info =>
        rw [hinfo] at hmove hlacks
        simp only [Option.isSome_some, true_and, Option.getD_some] at hlacks
        exact Sound.spend h' (h'.free hlaw hinfo halone hlacks) hmove
    exact Sound.recount hlaw hspent _ rfl

/-! ## Orders -/

lemma removeAskOrder_sound (input : OrderInput) :
    Sound host (removeAskOrder host call input s w).2.1
      (removeAskOrder host call input s w).2.2 := by
  have h' := h.of_fall hlaw (refund_fall call hlaw w)
  unfold removeAskOrder
  dsimp only
  split_ifs with herror
  · exact h'
  · have hpos : 0 < input.numberOfMBonds := by
      simp only [removeError, decide_eq_true_eq, not_or, not_le] at herror
      exact herror.2.2.1
    split
    · exact h'
    · obtain ⟨hbook, hless⟩ := alter_reduceAsk hpos
        (mbondIdentity ((s.info input.epoch).getD noInfo).name input.epoch, -input.price,
          call.invocator) h.inv.asks
      exact ⟨⟨h.inv.names, hbook, h.inv.bids⟩, fun owner name =>
        (hless owner name).trans (h'.covered owner name)⟩

lemma removeBidOrder_sound (input : OrderInput) :
    Sound host (removeBidOrder host call input s w).2.1
      (removeBidOrder host call input s w).2.2 := by
  unfold removeBidOrder
  split_ifs with herror
  · exact h.of_fall hlaw (refund_fall call hlaw w)
  have h' := h.of_fall hlaw (refundExcess_fall call hlaw QBOND_PROCEDURE_FEE w)
  dsimp only
  split
  · exact h'
  · rename_i e hfirst
    split
    · exact h'.of_fall hlaw (pay_fall hlaw _ _ _)
    · rename_i e' removed hreduce
      refine h'.frame hlaw rfl rfl (fun x hx => ?_) fun name owner _ => ?_
      · obtain ⟨rest, hc, hperm⟩ := Keyed.alter_perm hfirst fun _ => e'
        have hrest : ∀ y ∈ rest, Standing y := fun y hy =>
          h.inv.bids y (hc.mem_iff.mpr (mem_cons_of_mem e hy))
        cases mem_append.mp (hperm.mem_iff.mp hx) with
        | inr htail => exact hrest x htail
        | inl hhead =>
          have he := h.inv.bids e (Keyed.mem_of_first hfirst)
          unfold reduceBid at hreduce
          split_ifs at hreduce with hall
          · cases hreduce
            cases hhead
          · cases hreduce
            rw [Option.toList_some, mem_singleton] at hhead
            exact hhead ▸ ⟨sub_pos.mpr (not_le.mp hall), he.2⟩
      · have hburn := hlaw.qpi.burn_shares QBOND_PROCEDURE_FEE
          (pay host call.invocator (removed * input.price)
            (refundExcess host call QBOND_PROCEDURE_FEE w)) (bond name) owner
        exact ((bonds_pay hlaw _ _ _ name owner).symm.trans hburn.symm).le

end

section

variable {P : W → Prop} (hcalm : Calm host P)
include hcalm

omit hlaw in
variable (call) in
lemma refundExcess_calm (fee : Int) (hP : P w) : P (refundExcess host call fee w) := by
  unfold refundExcess
  split_ifs
  · exact hcalm.pay _ _ w hP
  · exact hP

lemma addBidOrder_sound (h : Sound host s w) (hcall : Party call.invocator) (input : OrderInput)
    (hP : P w) :
    Sound host (addBidOrder host call input s w).2.1 (addBidOrder host call input s w).2.2 ∧
      P (addBidOrder host call input s w).2.2 := by
  unfold addBidOrder
  split_ifs with herror
  · exact ⟨h.of_fall hlaw (pay_fall hlaw _ _ w), hcalm.pay _ _ w hP⟩
  dsimp only
  simp only [addBidError, removeError, decide_eq_true_eq, not_or, not_le] at herror
  obtain ⟨-, -, -, -, hpos, -, -, -, hsome⟩ := herror
  obtain ⟨info, hinfo⟩ := exists_info hsome
  have hname := h.inv.names _ _ (nameOf_eq hinfo)
  have h' := h.of_fall hlaw (refundExcess_fall call hlaw (smul input.numberOfMBonds input.price) w)
  have hP' := refundExcess_calm call hcalm (smul input.numberOfMBonds input.price) hP
  revert h' hP'
  generalize refundExcess host call (smul input.numberOfMBonds input.price) w = w₁
  intro h' hP'
  rw [hinfo, Option.getD_some]
  have hstart : Bought host s.nameOf P (fun _ _ => 0) s.askOrders ⟨input.numberOfMBonds, 0, w₁⟩ :=
    ⟨h.inv.asks, fun owner name => (zero_add _).le.trans (h'.covered owner name), hP', hpos.le⟩
  have hend : Bought host s.nameOf P (fun _ _ => 0)
      (matchAsks host call s info.name (mbondIdentity info.name input.epoch) input.price
        s.askOrders ⟨input.numberOfMBonds, 0, w₁⟩).1
      (matchAsks host call s info.name (mbondIdentity info.name input.epoch) input.price
        s.askOrders ⟨input.numberOfMBonds, 0, w₁⟩).2 :=
    matchAsks_bought hlaw hcalm hcall (fun epoch n hn => (h.inv.names epoch n hn).2) hname.2
      (fun _ _ => le_rfl) hpos hstart
  revert hend
  generalize matchAsks host call s info.name (mbondIdentity info.name input.epoch) input.price
    s.askOrders ⟨input.numberOfMBonds, 0, w₁⟩ = r
  intro hend
  have hcovered : ∀ owner name, asked s.nameOf owner name r.1 ≤ bonds host name owner r.2.world :=
    fun owner name => (zero_add _).ge.trans (hend.covered owner name)
  split_ifs with hdone
  · exact ⟨⟨⟨h.inv.names, hend.booked, h.inv.bids⟩, hcovered⟩, hend.calm⟩
  · have hleft : 0 < r.2.numberOfMBonds := lt_of_le_of_ne hend.nonneg (Ne.symm hdone)
    refine ⟨⟨⟨h.inv.names, hend.booked, ?_⟩, hcovered⟩, hend.calm⟩
    refine (placeOrder_placed _ _ _ _ _).forall_mem h.inv.bids (fun _ => ⟨hleft, hcall⟩) ?_
    exact fun e _ he => ⟨add_pos he.1 hleft, he.2⟩

omit hlaw hcalm in
lemma Sound.placeAsk (h : Sound host s w) (order : Order) {priority : Int}
    (hname : s.nameOf order.epoch = some name) (hpos : 0 < order.numberOfMBonds)
    (hparty : Party order.owner) (hpriority : priority < 0)
    (hfree : asked s.nameOf order.owner name s.askOrders + order.numberOfMBonds ≤
      bonds host name order.owner w) (queue : List (Entry Order)) (total trade : Int) :
    Sound host { s with
      totalEarnedAmount := total
      earnedAmountFromTrade := trade
      askOrders := placeOrder s.askOrders queue (mbondIdentity name order.epoch) priority order }
      w := by
  have hplace := placeOrder_placed s.askOrders queue (mbondIdentity name order.epoch) priority order
  refine ⟨⟨h.inv.names, hplace.booked h.inv.asks hname hpos hpriority hparty, h.inv.bids⟩,
    fun owner other => ?_⟩
  refine (hplace.asked_le h.inv.asks (fun epoch n hn => (h.inv.names epoch n hn).2) hname hpos owner
    other).trans ?_
  split_ifs with hsame
  · obtain ⟨rfl, rfl⟩ := hsame
    exact hfree
  · exact (add_zero _).le.trans (h.covered owner other)

/-- The end of `AddAskOrder`, where the bonds that are left are still there. -/
lemma leaveAsk_sound {m : Matching W} (h : Sound host s m.world) (hcall : Party call.invocator)
    {input : OrderInput} (hprice : 0 < input.price) (hname : s.nameOf input.epoch = some name)
    (hnonneg : 0 ≤ m.numberOfMBonds)
    (hfree : asked s.nameOf call.invocator name s.askOrders + m.numberOfMBonds ≤
      bonds host name call.invocator m.world) (hP : P m.world) :
    Sound host (leaveAsk host call input (mbondIdentity name input.epoch) s m).1
        (leaveAsk host call input (mbondIdentity name input.epoch) s m).2 ∧
      P (leaveAsk host call input (mbondIdentity name input.epoch) s m).2 := by
  have hpaid : ∀ amount, Sound host s (pay host call.invocator amount m.world) := fun amount =>
    h.of_fall hlaw (pay_fall hlaw _ amount _)
  have hplaced : ∀ (amount feeDebt : Int) (queue : List (Entry Order)) (total trade : Int),
      m.numberOfMBonds ≠ 0 → Sound host { s with
        totalEarnedAmount := total
        earnedAmountFromTrade := trade
        askOrders := placeOrder s.askOrders queue (mbondIdentity name input.epoch) (-input.price)
          ⟨call.invocator, input.epoch, m.numberOfMBonds, feeDebt⟩ }
        (pay host call.invocator amount m.world) := by
    intro amount feeDebt queue total trade hsome
    have hpos : 0 < m.numberOfMBonds := lt_of_le_of_ne hnonneg (Ne.symm hsome)
    refine Sound.placeAsk (hpaid amount)
      ⟨call.invocator, input.epoch, m.numberOfMBonds, feeDebt⟩ hname hpos hcall
      (neg_lt_zero.mpr hprice) ?_ queue total trade
    rw [bonds_pay hlaw]
    exact hfree
  unfold leaveAsk
  by_cases hdone : m.numberOfMBonds = 0
  · split_ifs
    · exact ⟨hpaid _, hcalm.pay _ _ _ hP⟩
    · exact ⟨(hpaid _).frame hlaw rfl rfl h.inv.bids fun _ _ _ => le_rfl, hcalm.pay _ _ _ hP⟩
  · split_ifs
    · exact ⟨hplaced _ _ _ s.totalEarnedAmount s.earnedAmountFromTrade hdone, hcalm.pay _ _ _ hP⟩
    · exact ⟨hplaced _ _ _ _ _ hdone, hcalm.pay _ _ _ hP⟩

lemma addAskOrder_sound (h : Sound host s w) (hcall : Party call.invocator) {input : OrderInput}
    (halone : Alone s call.invocator input.epoch) (hP : P w) :
    Sound host (addAskOrder host call input s w).2.1 (addAskOrder host call input s w).2.2 ∧
      P (addAskOrder host call input s w).2.2 := by
  unfold addAskOrder
  by_cases hreward : call.invocationReward < QBOND_ASK_ORDER_FEE
  · rw [if_pos hreward]
    refine ⟨h.of_fall hlaw (refund_fall call hlaw w), ?_⟩
    unfold refund
    split_ifs
    · exact hcalm.pay _ _ w hP
    · exact hP
  rw [if_neg hreward]
  by_cases herror : addAskError input s
  · rw [if_pos herror]
    exact ⟨h.of_fall hlaw (pay_fall hlaw _ _ w), hcalm.pay _ _ w hP⟩
  rw [if_neg herror]
  simp only [addAskError, decide_eq_true_eq, not_or, not_le] at herror
  obtain ⟨hprice, -, hpos, -, -, -, hsome⟩ := herror
  obtain ⟨info, hinfo⟩ := exists_info hsome
  rw [hinfo, Option.getD_some]
  dsimp only
  by_cases hlacks : sint64 (bonds host info.name call.invocator w -
      numberOfReservedMBonds s call.invocator input.epoch) < input.numberOfMBonds
  · rw [if_pos hlacks]
    exact ⟨h.of_fall hlaw (pay_fall hlaw _ _ w), hcalm.pay _ _ w hP⟩
  rw [if_neg hlacks]
  have hfree := h.free hlaw hinfo halone hlacks
  -- The fees that are paid before the loop take no bonds.
  have hfees : ∃ w₁, host.SharesFall SELF_INDEX w w₁ 0 ∧ P w₁ ∧
      (if isCommissionFree s call.invocator then
        pay host call.invocator QBOND_ASK_ORDER_FEE
          (refundExcess host call QBOND_ASK_ORDER_FEE w)
        else refundExcess host call QBOND_ASK_ORDER_FEE w) = w₁ := by
    refine ⟨_, ?_, ?_, rfl⟩
    · split_ifs
      · simpa using (refundExcess_fall call hlaw QBOND_ASK_ORDER_FEE w).trans (pay_fall hlaw _ _ _)
      · exact refundExcess_fall call hlaw QBOND_ASK_ORDER_FEE w
    · split_ifs
      · exact hcalm.pay _ _ _ (refundExcess_calm call hcalm _ hP)
      · exact refundExcess_calm call hcalm _ hP
  obtain ⟨w₁, hfall, hP', hw₁⟩ := hfees
  rw [hw₁]
  have h' := h.of_fall hlaw hfall
  have hstart := bonds_le_of_fall_zero hfall info.name call.invocator
  have hnonneg := h.inv.asked_nonneg call.invocator info.name
  have hsold : Sold host call info.name P ⟨input.numberOfMBonds, 0, 0, w₁⟩
      (matchBids host call info.name (mbondIdentity info.name input.epoch) input.price s.bidOrders
        ⟨input.numberOfMBonds, 0, 0, w₁⟩) :=
    matchBids_sold hlaw hcalm h.inv.bids hpos (by dsimp only; omega) hP'
  revert hsold
  generalize matchBids host call info.name (mbondIdentity info.name input.epoch) input.price
    s.bidOrders ⟨input.numberOfMBonds, 0, 0, w₁⟩ = r
  intro hsold
  have hrest := hsold.nonneg
  have hspent := Sound.spend h' (by dsimp only; omega) hsold.fall
  have hbook : Sound host { s with bidOrders := r.1 } r.2.world :=
    hspent.frame hlaw rfl rfl hsold.standing fun _ _ _ => le_rfl
  have hleft := bonds_le_of_fall hsold.fall info.name call.invocator
  rw [if_pos ⟨rfl, rfl⟩] at hleft
  refine leaveAsk_sound hlaw hcalm hbook hcall hprice (nameOf_eq hinfo) hrest ?_ hsold.calm
  change asked s.nameOf call.invocator info.name s.askOrders + _ ≤ _
  dsimp only at hleft
  omega

end

end

end QubicCore.Contracts.QBond
