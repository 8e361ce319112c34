import QubicCore.Contracts.QBond.Reservations

/-!
# Runs of QBOND

Runs of calls and epoch changes keep the ask orders covered as long as no account asks for, or
transfers, bonds while it has ask orders for another epoch with the same bonds, and no epoch whose
bonds are redeemed shares them with ask orders for another epoch.
-/

namespace QubicCore.Contracts.QBond

open Library MathLib List State Relation
open QubicCore.Qpi (Collection Entry)

variable {W : Type} {host : Host W} {balance : W → Int} {call : Invocation} {s : State} {w : W}

/-! ## Epoch changes -/

lemma bondName_bounds {counter : Nat} (h : counter ≤ 53) :
    0 < bondName counter ∧ bondName counter < 2 ^ 64 := by
  have hhigh : (48 + counter / 10) <<< 32 < 2 ^ 64 := by
    omega
  have hlow : (48 + counter % 10) <<< 40 < 2 ^ 64 := by
    omega
  refine ⟨?_, Nat.or_lt_two_pow (Nat.or_lt_two_pow (by norm_num) hhigh) hlow⟩
  exact lt_of_lt_of_le (by norm_num) (Nat.left_le_or.trans Nat.left_le_or)

variable (epoch : Int)

lemma nextCounter_le (s : State) : nextCounter epoch s ≤ 53 := by
  unfold nextCounter QBOND_FULL_CYCLE_EPOCHS_AMOUNT
  split_ifs with h
  · norm_num
  · omega

/-- What an epoch change needs: no ask order names the new epoch, and the redeemed bonds are asked
for in the redeemed epoch only. -/
structure Quiet (epoch : Int) (s : State) : Prop where
  fresh : ∀ e ∈ s.askOrders, uint16 e.value.epoch ≠ uint16 epoch
  redeemed : ∀ info, QBond.redeemed epoch s = some info → ∀ e ∈ s.askOrders,
    s.nameOf e.value.epoch = some info.name → e.value.epoch = uint16 (epoch - 53)

lemma openEpoch_sound (h : Sound host s w) {epoch : Int}
    (hfresh : ∀ e ∈ s.askOrders, uint16 e.value.epoch ≠ uint16 epoch) :
    Sound host (openEpoch epoch s) w := by
  have hname : ∀ other, uint16 other ≠ uint16 epoch →
      (openEpoch epoch s).nameOf other = s.nameOf other := by
    intro other hne
    simp only [nameOf, info, openEpoch]
    split_ifs
    · rw [AList.lookup_insert_ne hne]
    · rfl
  have hnew : ∀ other n, (openEpoch epoch s).nameOf other = some n →
      s.nameOf other = some n ∨ n = bondName (nextCounter epoch s) := by
    intro other n hn
    by_cases hkey : uint16 other = uint16 epoch
    · simp only [nameOf, info, openEpoch] at hn
      split_ifs at hn
      · rw [hkey, AList.lookup_insert, Option.map_some, Option.some_inj] at hn
        exact .inr hn.symm
      · exact .inl hn
    · exact .inl ((hname other hkey).symm.trans hn)
  refine ⟨⟨fun other n hn => ?_, fun e he => ?_, h.inv.bids⟩, fun owner name => ?_⟩
  · cases hnew other n hn with
    | inl hold => exact h.inv.names other n hold
    | inr hbond => exact hbond ▸ bondName_bounds (nextCounter_le epoch s)
  · have hbooked := h.inv.asks e he
    refine ⟨hbooked.pos, hbooked.priority_neg, hbooked.party, ?_⟩
    rw [hname _ (hfresh e he)]
    exact hbooked.listed
  · change asked (openEpoch epoch s).nameOf owner name s.askOrders ≤ _
    rw [asked_congr fun e he => hname _ (hfresh e he)]
    exact h.covered owner name

section

variable (hlaw : host.Lawful balance)
include hlaw

lemma redeem_others (epoch : Int) (name : Nat) (rewardPerMBond : Int) (holder : M256i × Int)
    (w : W) {other : Nat} (hother : name ≠ other) (x : M256i) :
    bonds host other x w ≤ bonds host other x (redeem host epoch name rewardPerMBond w holder) := by
  unfold redeem
  by_cases hself : holder.1 = SELF
  · rw [if_pos hself]
  · rw [if_neg hself]
    have hpaid := bonds_pay hlaw holder.1 ((QBOND_MBOND_PRICE + rewardPerMBond) * holder.2) w other
      x
    exact hpaid.ge.trans (moveBonds_others hlaw _ _ _ _ _ fun h => hother h.2)

lemma returnBid_bonds (e : Entry Order) (w : W) (name : Nat) (x : M256i) :
    bonds host name x (returnBid host w e) = bonds host name x w := by
  unfold returnBid
  dsimp only
  split_ifs
  · exact hlaw.qpi.burn_shares _ _ (bond name) x
  · exact (hlaw.qpi.burn_shares _ _ (bond name) x).trans (bonds_pay hlaw _ _ w name x)

lemma redeemAll_sound (h : Sound host s w) {epoch : Int} {info : MBondInfo}
    (hquiet : ∀ e ∈ s.askOrders, s.nameOf e.value.epoch = some info.name →
      e.value.epoch = uint16 (epoch - 53)) :
    Sound host (redeemAll host epoch info s w).1 (redeemAll host epoch info s w).2 := by
  have hreturned : ∀ (l : List (Entry Order)) (w : W) (name : Nat) (x : M256i),
      bonds host name x (l.foldl (returnBid host) w) = bonds host name x w := by
    intro l
    induction l with
    | nil => exact fun w name x => rfl
    | cons e es ih => exact fun w name x => (ih _ name x).trans (returnBid_bonds hlaw e w name x)
  have hredeemed : ∀ (rewardPerMBond : Int) (l : List (M256i × Int)) (w : W) (other : Nat),
      info.name ≠ other → ∀ x, bonds host other x w ≤
        bonds host other x (l.foldl (redeem host epoch info.name rewardPerMBond) w) := by
    intro rewardPerMBond l
    induction l with
    | nil => exact fun w other _ x => le_rfl
    | cons holder holders ih =>
      intro w other hother x
      exact (redeem_others hlaw epoch info.name rewardPerMBond holder w hother x).trans
        (ih _ other hother x)
  refine ⟨⟨h.inv.names, fun e he => h.inv.asks e (mem_of_mem_filter he),
    fun e he => h.inv.bids e (mem_of_mem_filter he)⟩, fun owner other => ?_⟩
  have hfilter : ∀ pov : M256i, asked s.nameOf owner other
      (s.askOrders.filter fun e => e.pov ≠ pov) ≤ asked s.nameOf owner other s.askOrders :=
    fun pov => asked_sublist filter_sublist fun e he => (h.inv.asks e he).pos
  refine le_trans ?_ (hreturned _ _ other owner).ge
  by_cases hother : info.name = other
  · -- Every order for these bonds stood under the identity that was cleared.
    subst hother
    refine (asked_eq_zero fun e he _ hname => ?_).le.trans (hlaw.qpi.shares_nonneg _ _ _)
    obtain ⟨hmem, hpov⟩ := mem_filter.mp he
    obtain ⟨n, hn, hlisted⟩ := (h.inv.asks e hmem).listed
    have hn' : n = info.name := Option.some_inj.mp (hn.symm.trans hname)
    have hepoch := hquiet e hmem hname
    rw [hn', hepoch] at hlisted
    exact of_decide_eq_true hpov hlisted
  · exact (hfilter _).trans ((h.covered owner other).trans (hredeemed _ _ w other hother owner))

lemma issueBonds_fall (w : W) : host.SharesFall SELF_INDEX w (issueBonds host w) 0 := by
  unfold issueBonds
  generalize List.range QBOND_FULL_CYCLE_EPOCHS_AMOUNT = l
  induction l generalizing w with
  | nil => exact .refl w
  | cons i is ih =>
    have hissue := hlaw.qpi.issueAsset_shares (bondName (i + 1)) SELF 0 QBOND_MBONDS_EMISSION 0 w
    simpa using hissue.trans (ih _)

lemma beginEpoch_sound (h : Sound host s w) {epoch : Int} (hquiet : Quiet epoch s) :
    Sound host (beginEpoch host epoch s w).1 (beginEpoch host epoch s w).2 := by
  have hopen : ∀ {s' : State} {w' : W}, Sound host s' w' →
      (∀ e ∈ s'.askOrders, uint16 e.value.epoch ≠ uint16 epoch) →
      Sound host (openEpoch epoch s')
        (if epoch = QBOND_CYCLIC_START_EPOCH then issueBonds host w' else w') := by
    intro s' w' h' hfresh
    split_ifs
    · exact openEpoch_sound (h'.of_fall hlaw (issueBonds_fall hlaw w')) hfresh
    · exact openEpoch_sound h' hfresh
  unfold beginEpoch
  cases hr : redeemed epoch s with
  | none => exact hopen h hquiet.fresh
  | some info =>
    exact hopen (redeemAll_sound hlaw h (hquiet.redeemed info hr)) fun e he =>
      hquiet.fresh e (mem_of_mem_filter he)

end

/-! ## Runs -/

structure Config (W : Type) where
  epoch : Int
  state : State
  world : W

inductive Call where
  | stake (quMillions : Int)
  | transferMBond (input : TransferInput)
  | addAskOrder (input : OrderInput)
  | removeAskOrder (input : OrderInput)
  | addBidOrder (input : OrderInput)
  | removeBidOrder (input : OrderInput)
  | burnQU (amount : Int)
  | updateCFA (user : M256i) (operation : Bool)
  | incomingTransfer (fromQearn : Bool) (amount : Nat)
  | endEpoch
  | beginEpoch

/-- The epoch is a 16-bit number. -/
def nextEpoch : Int := (epoch + 1) % 2 ^ 16

def Call.run (host : Host W) (call : Invocation) : Call → Config W → Config W
  | .stake quMillions, p =>
    let r := QBond.stake host call p.epoch quMillions p.state p.world
    ⟨p.epoch, r.1, r.2⟩
  | .transferMBond input, p =>
    let r := transferMBondOwnershipAndPossession host call input p.state p.world
    ⟨p.epoch, r.2.1, r.2.2⟩
  | .addAskOrder input, p =>
    let r := QBond.addAskOrder host call input p.state p.world
    ⟨p.epoch, r.2.1, r.2.2⟩
  | .removeAskOrder input, p =>
    let r := QBond.removeAskOrder host call input p.state p.world
    ⟨p.epoch, r.2.1, r.2.2⟩
  | .addBidOrder input, p =>
    let r := QBond.addBidOrder host call input p.state p.world
    ⟨p.epoch, r.2.1, r.2.2⟩
  | .removeBidOrder input, p =>
    let r := QBond.removeBidOrder host call input p.state p.world
    ⟨p.epoch, r.2.1, r.2.2⟩
  | .burnQU amount, p =>
    let r := QBond.burnQU host call amount p.state p.world
    ⟨p.epoch, r.2.1, r.2.2⟩
  | .updateCFA user operation, p =>
    let r := QBond.updateCFA host call user operation p.state p.world
    ⟨p.epoch, r.2.1, r.2.2⟩
  | .incomingTransfer fromQearn amount, p =>
    { p with state := postIncomingTransfer fromQearn p.epoch amount p.state }
  | .endEpoch, p =>
    let r := QBond.endEpoch host p.state p.world
    ⟨p.epoch, r.1, r.2⟩
  | .beginEpoch, p =>
    let r := QBond.beginEpoch host (nextEpoch p.epoch) p.state p.world
    ⟨nextEpoch p.epoch, r.1, r.2⟩

/-- One call. Before it the node may do what takes no bonds from an account; in particular other
contracts may pass bonds on to the contract, which accepts all. -/
inductive Step (host : Host W) (allowed : Invocation → Call → Config W → Prop) :
    Config W → Config W → Prop where
  | call (p : Config W) (w : W) (call : Invocation) (c : Call)
      (hworld : host.SharesFall SELF_INDEX p.world w 0) (hcall : Party call.invocator)
      (hallowed : allowed call c p) : Step host allowed p (c.run host call { p with world := w })

def Careful (call : Invocation) : Call → Config W → Prop
  | .transferMBond input, p => Alone p.state call.invocator input.epoch
  | .addAskOrder input, p => Alone p.state call.invocator input.epoch
  | .beginEpoch, p => Quiet (nextEpoch p.epoch) p.state
  | _, _ => True

lemma calm_true (host : Host W) : Calm host fun _ => True := ⟨fun _ _ _ _ => trivial,
  fun _ _ _ _ _ _ _ _ _ => trivial⟩

lemma Call.run_sound (hlaw : host.Lawful balance) {p : Config W} (h : Sound host p.state p.world)
    (hcall : Party call.invocator) {c : Call} (hcareful : Careful call c p) :
    Sound host (c.run host call p).state (c.run host call p).world := by
  cases c with
  | stake quMillions => exact stake_sound hlaw h p.epoch quMillions
  | transferMBond input => exact transferMBond_sound hlaw h hcareful
  | addAskOrder input => exact (addAskOrder_sound hlaw (calm_true host) h hcall hcareful trivial).1
  | removeAskOrder input => exact removeAskOrder_sound hlaw h input
  | addBidOrder input => exact (addBidOrder_sound hlaw (calm_true host) h hcall input trivial).1
  | removeBidOrder input => exact removeBidOrder_sound hlaw h input
  | burnQU amount =>
    dsimp only [Call.run, QBond.burnQU]
    split_ifs
    · exact h.of_fall hlaw (refund_fall call hlaw p.world)
    · refine (h.of_fall hlaw (refundExcess_fall call hlaw amount p.world)).frame hlaw rfl rfl
        h.inv.bids fun name owner _ => ?_
      exact (hlaw.qpi.burn_shares amount _ (bond name) owner).ge
  | updateCFA user operation =>
    have h' := h.of_fall hlaw (refund_fall call hlaw p.world)
    dsimp only [Call.run, QBond.updateCFA]
    split_ifs
    all_goals exact h'.frame hlaw rfl rfl h.inv.bids fun _ _ _ => le_rfl
  | incomingTransfer fromQearn amount =>
    change Sound host (postIncomingTransfer fromQearn p.epoch amount p.state) p.world
    unfold postIncomingTransfer
    split_ifs
    · exact h.frame hlaw rfl rfl h.inv.bids fun _ _ _ => le_rfl
    · exact h
  | endEpoch =>
    exact (h.of_fall hlaw (pay_fall hlaw _ _ p.world)).frame hlaw rfl rfl h.inv.bids
      fun name owner _ => bonds_le_of_fall_zero (pay_fall hlaw _ _ _) name owner
  | beginEpoch => exact beginEpoch_sound hlaw h hcareful

lemma init_sound (hlaw : host.Lawful balance) (adminAddress devAddress : M256i) (w : W) :
    Sound host (init adminAddress devAddress) w := by
  refine ⟨⟨fun epoch n hn => ?_, fun e he => (by cases he), fun e he => (by cases he)⟩,
    fun owner name => hlaw.qpi.shares_nonneg (bond name) owner w⟩
  cases hn

lemma sound_of_careful (hlaw : host.Lawful balance) {p q : Config W}
    (h : Sound host p.state p.world) (hrun : ReflTransGen (Step host Careful) p q) :
    Sound host q.state q.world := by
  induction hrun with
  | refl => exact h
  | @tail r _ _ hstep ih =>
    obtain ⟨w, call, c, hworld, hcall, hcareful⟩ := hstep
    have hbefore : Sound host r.state w := ih.of_fall hlaw hworld
    refine Call.run_sound hlaw hbefore hcall ?_
    cases c <;> exact hcareful

/-! ## Matches -/

/-- The node, with the list of the moves of bonds that were refused. -/
def Host.watched (host : Host W) : Host (W × List Move) where
  toQpi := host.toQpi.watched
  owners a w := host.owners a w.1
  lock amount w := (host.lock amount w.1, w.2)

lemma Host.Lawful.watched (hlaw : host.Lawful balance) : host.watched.Lawful fun w => balance w.1 :=
  ⟨hlaw.qpi.watched, fun amount w => hlaw.lock amount w.1⟩

/-- Moves of bonds that are there are not refused. -/
lemma Host.Lawful.calm (hlaw : host.Lawful balance) : Calm host.watched fun w => w.2 = [] where
  pay _ _ _ hw := hw
  move _ _ _ _ _ hzero hpos hle hw := (hlaw.qpi.watched_moveShares hzero hpos hle).trans hw

inductive Call.Matches : Call → Prop where
  | ask (input : OrderInput) : Matches (.addAskOrder input)
  | bid (input : OrderInput) : Matches (.addBidOrder input)

def Call.refusals (host : Host W) (call : Invocation) (c : Call) (p : Config W) : List Move :=
  (c.run host.watched call ⟨p.epoch, p.state, (p.world, [])⟩).world.2

lemma Call.Matches.refusals_eq_nil (hlaw : host.Lawful balance) {p : Config W}
    (h : Sound host p.state p.world) (hcall : Party call.invocator) {c : Call}
    (hmatches : c.Matches) (hcareful : Careful call c p) : c.refusals host call p = [] := by
  have hwatched : Sound host.watched p.state (p.world, ([] : List Move)) := ⟨h.inv, h.covered⟩
  cases hmatches with
  | ask input => exact (addAskOrder_sound hlaw.watched hlaw.calm hwatched hcall hcareful rfl).2
  | bid input => exact (addBidOrder_sound hlaw.watched hlaw.calm hwatched hcall input rfl).2

/-- Runs of careful calls keep the ask orders of every owner covered for every bond asset, and no
match of the next careful call has a move of bonds refused. -/
theorem covered_of_careful (hlaw : host.Lawful balance) (adminAddress devAddress : M256i)
    (epoch : Int) (w : W) {p : Config W} (hrun : ReflTransGen (Step host Careful)
      ⟨epoch, init adminAddress devAddress, w⟩ p) :
    Covered host p.state p.world ∧ ∀ (call : Invocation) (c : Call) (w' : W),
      host.SharesFall SELF_INDEX p.world w' 0 → Party call.invocator → c.Matches →
      Careful call c p → c.refusals host call { p with world := w' } = [] := by
  have hsound : Sound host p.state p.world :=
    sound_of_careful hlaw (init_sound hlaw adminAddress devAddress w) hrun
  refine ⟨hsound.covered, fun call c w' hworld hcall hmatches hcareful => ?_⟩
  have hbefore : Sound host p.state w' := hsound.of_fall hlaw hworld
  refine hmatches.refusals_eq_nil hlaw hbefore hcall ?_
  cases hmatches <;> exact hcareful

/-! ### Two epochs with the same bonds -/

def marketHost : Host Market where
  toAssetHost := Market.host
  lock amount m := (Market.qpi.transfer NULL_ID amount m).2

lemma marketHost_lawful : marketHost.Lawful Market.balance :=
  ⟨Market.qpi_exact SELF_INDEX, fun amount m =>
    (Market.qpi_exact SELF_INDEX).transfer_fall NULL_ID amount m⟩

def seller : M256i := ⟨101⟩
def buyer : M256i := ⟨102⟩

/-- The contract after some epoch changes, of which the first is to epoch 182. -/
def opened (n : Nat) : Config Market :=
  (Call.beginEpoch.run marketHost ⟨seller, 0⟩)^[n] ⟨181, init NULL_ID NULL_ID, Market.empty⟩

def paidCall (account : M256i) (reward : Nat) (c : Call) (p : Config Market) : Config Market :=
  c.run marketHost ⟨account, reward⟩ { p with world := p.world.receive reward }

/-- In epoch 245, whose bonds are those of epoch 192, the seller stakes for ten bonds. -/
def staked : Config Market := paidCall seller 10040000 (.stake 10) (opened 64)

/-- The seller asks for the ten bonds in one epoch, and in both. -/
def askedOnce : Config Market := paidCall seller 100000 (.addAskOrder ⟨245, 1000000, 10⟩) staked
def askedTwice : Config Market := paidCall seller 100000 (.addAskOrder ⟨192, 1000000, 10⟩) askedOnce

lemma receive_fall (m : Market) (reward : Nat) :
    marketHost.SharesFall SELF_INDEX m (m.receive reward) 0 := fun _ _ => (add_zero _).ge

lemma paidCall_step {allowed : Invocation → Call → Config Market → Prop} {account : M256i}
    (reward : Nat) (c : Call) (p : Config Market) (haccount : Party account)
    (hallowed : allowed ⟨account, reward⟩ c p) :
    Step marketHost allowed p (paidCall account reward c p) :=
  .call p _ ⟨account, reward⟩ c (receive_fall p.world reward) haccount hallowed

/-- Without ask orders every epoch change is quiet, and leaves none. -/
lemma quiet_of_nil (h : s.askOrders = []) : Quiet epoch s := by
  refine ⟨fun e he => ?_, fun _ _ e he => ?_⟩ <;> rw [h] at he <;> cases he

lemma beginEpoch_askOrders (w : W) (h : s.askOrders = []) :
    (beginEpoch host epoch s w).1.askOrders = [] := by
  unfold beginEpoch
  cases redeemed epoch s with
  | none => exact h
  | some info => simp [redeemAll, openEpoch, h]

lemma opened_succ (n : Nat) :
    opened (n + 1) = Call.beginEpoch.run marketHost ⟨seller, 0⟩ (opened n) :=
  Function.iterate_succ_apply' _ n _

lemma opened_askOrders (n : Nat) : (opened n).state.askOrders = [] := by
  induction n with
  | zero => rfl
  | succ n ih =>
    rw [opened_succ]
    exact beginEpoch_askOrders _ _ ih

lemma opened_reached (n : Nat) : ReflTransGen (Step marketHost Careful)
    ⟨181, init NULL_ID NULL_ID, Market.empty⟩ (opened n) := by
  induction n with
  | zero => exact .refl
  | succ n ih =>
    rw [opened_succ]
    exact ih.tail (.call (opened n) _ ⟨seller, 0⟩ .beginEpoch (.refl _) (by decide)
      (quiet_of_nil _ (opened_askOrders n)))

lemma askedOnce_reached : ReflTransGen (Step marketHost Careful)
    ⟨181, init NULL_ID NULL_ID, Market.empty⟩ askedOnce := by
  have hasks : staked.state.askOrders = [] := by decide +kernel
  refine ((opened_reached 64).tail (paidCall_step 10040000 (.stake 10) _ (by decide) trivial)).tail
    (paidCall_step 100000 (.addAskOrder ⟨245, 1000000, 10⟩) staked (by decide) ?_)
  intro e he
  rw [hasks] at he
  cases he

theorem covered_of_careful_askedOnce :
    Covered marketHost askedOnce.state askedOnce.world ∧
      (Call.addBidOrder ⟨245, 1000000, 10⟩).refusals marketHost ⟨buyer, 10000000⟩
        { askedOnce with world := askedOnce.world.receive 10000000 } = [] :=
  have h := covered_of_careful marketHost_lawful NULL_ID NULL_ID 181 Market.empty askedOnce_reached
  ⟨h.1, h.2 ⟨buyer, 10000000⟩ _ _ (receive_fall askedOnce.world 10000000) (by decide) (.bid _)
    trivial⟩

def Host.recorded (host : Host W) : Host (W × List Move) where
  toAssetHost := host.toAssetHost.recorded
  lock amount w := (host.lock amount w.1, w.2)

def boughtOnce : Config Market :=
  paidCall buyer 10000000 (.addBidOrder ⟨245, 1000000, 10⟩) askedTwice

def secondBid : Call := .addBidOrder ⟨192, 1000000, 10⟩

def beforeSecondBid : Config Market :=
  { boughtOnce with world := boughtOnce.world.receive 10000000 }

/-- The seller asks for twenty bonds and has ten. When all are bought, the seller is paid for the
second ten, whose move is refused. -/
theorem askedTwice_not_covered :
    ReflTransGen (Step marketHost fun _ _ _ => True)
        ⟨181, init NULL_ID NULL_ID, Market.empty⟩ askedTwice ∧
      asked askedTwice.state.nameOf seller (bondName 1) askedTwice.state.askOrders = 20 ∧
      bonds marketHost (bondName 1) seller askedTwice.world = 10 ∧
      secondBid.refusals marketHost ⟨buyer, 10000000⟩ beforeSecondBid =
        [.shares (bond (bondName 1)) seller buyer 10] ∧
      quTo seller (secondBid.run marketHost.recorded ⟨buyer, 10000000⟩
        ⟨beforeSecondBid.epoch, beforeSecondBid.state, (beforeSecondBid.world, [])⟩).world.2 =
        10000000 := by
  have hweaker : ∀ p q, Step marketHost Careful p q → Step marketHost (fun _ _ _ => True) p q := by
    rintro p _ ⟨w, call, c, hworld, hcall, -⟩
    exact .call p w call c hworld hcall trivial
  refine ⟨(ReflTransGen.mono hweaker _ _ askedOnce_reached).tail (paidCall_step 100000
    (.addAskOrder ⟨192, 1000000, 10⟩) askedOnce (by decide) trivial), ?_, ?_, ?_, ?_⟩
  · decide +kernel
  · decide +kernel
  · decide +kernel
  · decide +kernel

end QubicCore.Contracts.QBond
