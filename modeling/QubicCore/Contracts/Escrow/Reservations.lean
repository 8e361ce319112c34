import QubicCore.Contracts.Escrow.Exchange

/-!
# Reservations and lists over whole runs

The contract keeps its books consistent as long as no deal offers an empty amount and no public
deal is accepted. An empty amount leaves an entry that hides a later one, and the acceptance of a
public deal looks for the deal under the caller, while it is listed under the contract.
-/

namespace QubicCore.Contracts.Escrow

open Library MathLib List State
open QubicCore.Qpi (Collection Entry)

variable {W : Type} {host : AssetHost W} {balance : W → Int} {call : Invocation} {s : State} {w : W}

def Backed (host : AssetHost W) (s : State) (w : W) : Prop :=
  ∀ owner a, (offeredIn s.live owner a : Int) ≤ host.shares SELF_INDEX a owner w

structure Sound (host : AssetHost W) (s : State) (w : W) : Prop where
  inv : Inv s
  backed : Backed host s w

lemma Sound.of_fall {w' : W} (h : Sound host s w) (hfall : host.SharesFall SELF_INDEX w w' 0) :
    Sound host s w' := by
  refine ⟨h.inv, fun owner a => (h.backed owner a).trans ?_⟩
  simpa using hfall a owner

/-- The books do not depend on what the contract earned. -/
lemma Sound.reaccount (h : Sound host s w) (earned distributed : Nat) (tokens : List Asset) :
    Sound host
      { s with
        earnedAmount := earned
        distributedAmount := distributed
        earnedTokens := tokens } w :=
  ⟨{ h.inv with }, h.backed⟩

section

variable (hexact : host.Exact SELF_INDEX balance) {input : CreateDealInput} {k : Int} {d : Deal}
  {owner : M256i} {t : Expiry W}
include hexact

variable (call) in
lemma refund_fall (w : W) : host.SharesFall SELF_INDEX w (refund host call w) 0 := by
  unfold refund
  split_ifs
  · exact hexact.transfer_fall _ _ w
  · exact .refl w

variable (call) in
lemma refundExcess_fall (fee : Nat) (w : W) :
    host.SharesFall SELF_INDEX w (refundExcess host call fee w) 0 := by
  unfold refundExcess
  split_ifs
  · exact hexact.transfer_fall _ _ w
  · exact .refl w

lemma payQu_fall (destination : M256i) (qu : Nat) (w : W) :
    host.SharesFall SELF_INDEX w (payQu host destination qu w) 0 := by
  unfold payQu
  split_ifs
  · exact hexact.transfer_fall _ _ w
  · exact .refl w

lemma exchangeQu_fall (deal : Deal) (owner : M256i) (result : Int) (w : W) :
    host.SharesFall SELF_INDEX w (exchangeQu host call deal owner result w) 0 := by
  unfold exchangeQu
  split_ifs
  · exact (payQu_fall hexact _ _ w).trans (payQu_fall hexact _ _ _)
  · exact (payQu_fall hexact _ _ w).trans (payQu_fall hexact _ _ _)

variable {s : State} {w : W}

section

variable (h : Sound host s w)
include h

lemma Sound.offered_le (owner : M256i) (a : Asset) :
    (offeredIn s.live owner a : Int) ≤ MAX_AMOUNT :=
  (h.backed owner a).trans (hexact.shares_le a owner w)

lemma Sound.reserved_lt (owner : M256i) (a : Asset) :
    reserved s.reservedAssets owner a < 2 ^ 63 := by
  have hle := h.offered_le hexact owner a
  have hmax : (MAX_AMOUNT : Int) < 2 ^ 63 := by decide
  rw [h.inv.reserved_eq]
  omega

lemma Sound.numberOfReservedShares_eq (owner : M256i) (a : Asset) :
    numberOfReservedShares s.reservedAssets owner a = offeredIn s.live owner a := by
  rw [Escrow.numberOfReservedShares_eq h.inv.tidy (h.reserved_lt hexact owner a), h.inv.reserved_eq]

lemma Sound.availableTokenAmount_eq (account : M256i) (a : Asset) :
    availableTokenAmount host s.reservedAssets account a w =
      host.shares SELF_INDEX a account w - offeredIn s.live account a := by
  have hle := h.backed account a
  have hmax := hexact.shares_le a account w
  have hbound : (MAX_AMOUNT : Int) < 2 ^ 63 := by decide
  rw [availableTokenAmount, h.numberOfReservedShares_eq hexact, sint64_eq (by omega) (by omega)]

/-- A check that passes leaves room for the amount beside everything that is offered. -/
lemma Sound.le_of_not_lacks {x : AssetWithAmount} (hx : ¬lacks host call s.reservedAssets w x) :
    (offeredIn s.live call.invocator x.asset + x.amount : Int) ≤
      host.shares SELF_INDEX x.asset call.invocator w := by
  have hmax := hexact.shares_le x.asset call.invocator w
  have hbound : (MAX_AMOUNT : Int) < 2 ^ 63 := by decide
  rw [lacks, h.availableTokenAmount_eq hexact, decide_eq_true_eq, not_or,
    uint64_eq (by omega) (by omega)] at hx
  omega

/-! ## Creation -/

omit hexact in
omit h in
lemma newDeal_agreed {epoch : Nat} (hcall : call.invocator ≠ SELF)
    (hpos : ∀ x ∈ input.offeredAssets, 0 < x.amount)
    (hwell : (newDeal call epoch input s).WellFormed) :
    Agreed call.invocator (newDeal call epoch input s) := by
  refine ⟨hwell, hcall, ?_, hpos⟩
  change (if input.acceptorId = NULL_ID ∨ input.acceptorId = call.invocator then SELF
    else input.acceptorId) ≠ call.invocator
  split_ifs with hpublic
  · exact hcall.symm
  · exact fun heq => hpublic (.inr heq)

omit hexact in
omit h in
lemma newDeal_wellFormed (epoch : Nat)
    (hlength : ¬(ESCROW_MAX_ASSETS_IN_DEAL < input.offeredAssets.length ∨
      ESCROW_MAX_ASSETS_IN_DEAL < input.requestedAssets.length))
    (herror : ¬createDealError host call input s w) :
    (newDeal call epoch input s).WellFormed ∧ s.ownerDealIndexes.length < ESCROW_MAX_DEALS ∧
      ∀ x ∈ input.offeredAssets, ¬lacks host call s.reservedAssets w x := by
  simp only [createDealError, decide_eq_true_eq, not_or, not_exists, not_and, not_not,
    not_le] at herror
  obtain ⟨hroom, -, -, hqu, hqu', hnodup, hnodup', hoffered, hrequested⟩ := herror
  rw [not_or, not_lt, not_lt] at hlength
  exact ⟨⟨hlength.1, hnodup, hnodup', fun x hx => (hoffered x hx).1, hrequested, hqu, hqu'⟩, hroom,
    fun x hx => (hoffered x hx).2⟩

lemma createDeal_sound (hcall : call.invocator ≠ SELF) (epoch : Nat)
    (hpos : ∀ x ∈ input.offeredAssets, 0 < x.amount) :
    Sound host (createDeal host call epoch input s w).1
      (createDeal host call epoch input s w).2 := by
  unfold createDeal
  split_ifs with hlength herror
  · exact h.of_fall (refund_fall call hexact w)
  · exact h.of_fall (refund_fall call hexact w)
  · rw [not_or] at herror
    obtain ⟨hwell, hroom, hshares⟩ := newDeal_wellFormed epoch hlength herror.1
    have hagreed := newDeal_agreed hcall hpos hwell
    -- The new deal offers at most what its owner has beside the other offers.
    have hnew : ∀ a, (offeredIn s.live call.invocator a +
        amountOf (newDeal call epoch input s).offeredAssets a : Int) ≤
        host.shares SELF_INDEX a call.invocator w := by
      intro a
      by_cases ha : a ∈ input.offeredAssets.map AssetWithAmount.asset
      · obtain ⟨x, hx, rfl⟩ := mem_map.mp ha
        rw [amountOf_mem hwell.offered_nodup hx]
        exact h.le_of_not_lacks hexact (hshares x hx)
      · have hzero : amountOf (newDeal call epoch input s).offeredAssets a = 0 :=
          amountOf_eq_zero ha
        rw [hzero]
        simpa using h.backed call.invocator a
    obtain ⟨hinv, hlive⟩ := h.inv.openDeal call hagreed rfl hroom fun a => by
      have hle := (hnew a).trans (hexact.shares_le a call.invocator w)
      have hmax : (MAX_AMOUNT : Int) < 2 ^ 63 := by decide
      omega
    refine Sound.of_fall ⟨hinv, fun owner a => ?_⟩ (refundExcess_fall call hexact _ w)
    rw [hlive, offeredIn_cons]
    dsimp only
    split_ifs with howner
    · subst howner
      have := hnew a
      omega
    · simpa using h.backed owner a

/-! ## Acceptance -/

lemma exchange_sound (hzero : call.invocator ≠ NULL_ID)
    (hd : s.deals.lookup k = some d) (ho : s.dealIndexOwnerMap.lookup k = some owner)
    (hacceptor : d.acceptorId = call.invocator)
    (hshares : ∀ x ∈ d.requestedAssets, ¬lacks host call s.reservedAssets w x) {w' : W}
    (hfall : host.SharesFall SELF_INDEX w w' 0) :
    Sound host (removeDeal k owner call.invocator (exchange host call d owner s w').state)
      (exchange host call d owner s w').world := by
  have hlive := live_perm hd ho
  have hagreed := h.inv.agreed_lookup hd ho
  have hne : call.invocator ≠ owner := hacceptor ▸ hagreed.acceptor_ne
  have h' := h.of_fall hfall
  have hoffered : ∀ a, amountOf d.offeredAssets a ≤ reserved s.reservedAssets owner a := by
    intro a
    rw [h.inv.reserved_eq, offeredIn_perm hlive, offeredIn_cons, if_pos rfl]
    exact Nat.le_add_right _ _
  have hlegs := offeredLegs_spec (t := ⟨s, w', 0, 0, 0⟩) call hexact hzero le_rfl
    hagreed.offered_nodup hagreed.offered_pos hagreed.offered_lt
    (fun x hx => by
      have hbacked := h'.backed owner x.asset
      have := hoffered x.asset
      rw [amountOf_mem hagreed.offered_nodup hx, h.inv.reserved_eq] at this
      change (x.amount : Int) ≤ host.shares SELF_INDEX x.asset owner w'
      omega)
    h.inv.tidy hoffered (h.reserved_lt hexact owner)
  obtain ⟨tokens, c, hstate, htidy, hadd⟩ := hlegs.state
  obtain ⟨⟨tokens', hstate'⟩, hfall'⟩ := requestedLegs_spec call owner hexact
    hagreed.requested_lt (d.offeredAssets.foldl (offeredLeg host call owner) ⟨s, w', 0, 0, 0⟩)
  have hexchange : exchange host call d owner s w' = requestedLegs host call owner
      d.requestedAssets (d.offeredAssets.foldl (offeredLeg host call owner) ⟨s, w', 0, 0, 0⟩) :=
    if_pos hlegs.result
  rw [hexchange, hstate', hstate, ← hacceptor]
  refine ⟨h.inv.remove hd ho htidy hadd tokens', fun o a => ?_⟩
  have hbefore := h'.backed o a
  rw [offeredIn_perm hlive, offeredIn_cons] at hbefore
  have hmoved := (hlegs.fall.trans hfall') a o
  change (offeredIn (dealsOf (s.deals.erase k) (s.dealIndexOwnerMap.erase k)) o a : Int) ≤ _
  simp only [Pi.add_apply, lossOf] at hmoved hbefore
  by_cases howner : o = owner
  · rw [if_pos howner, if_neg (howner ▸ hne.symm)] at hmoved
    rw [if_pos howner] at hbefore
    omega
  · rw [if_neg howner] at hmoved hbefore
    by_cases hcaller : o = call.invocator
    · -- The acceptor gives up only shares that no deal of the acceptor offers.
      by_cases ha : a ∈ d.requestedAssets.map AssetWithAmount.asset
      · obtain ⟨x, hx, rfl⟩ := mem_map.mp ha
        have hfree := h.le_of_not_lacks hexact (hshares x hx)
        have hkept := hfall x.asset o
        rw [amountOf_mem hagreed.requested_nodup hx] at hmoved
        rw [← hcaller, offeredIn_perm hlive, offeredIn_cons, if_neg howner] at hfree
        simp only [Pi.zero_apply] at hkept
        omega
      · rw [amountOf_eq_zero ha] at hmoved
        omega
    · rw [if_neg hcaller] at hmoved
      omega

lemma acceptDeal_sound (hzero : call.invocator ≠ NULL_ID) {index : Int}
    (hprivate : ∀ d, s.deals.lookup index = some d → d.acceptorId ≠ SELF) :
    Sound host (acceptDeal host call index s w).1 (acceptDeal host call index s w).2 := by
  unfold acceptDeal
  split
  · rename_i d owner hd ho
    split_ifs with herror
    · exact h.of_fall (refund_fall call hexact w)
    · simp only [not_or, not_and, not_not, any_eq_true, not_exists] at herror
      obtain ⟨-, hacceptor, hshares, -⟩ := herror
      have hexchanged := exchange_sound hexact h hzero hd ho (hacceptor (hprivate d hd)) hshares
        (refundExcess_fall call hexact (requestedQuAndFee d) w)
      exact (hexchanged.of_fall (exchangeQu_fall hexact _ _ _ _)).reaccount _ _ _
  · exact h.of_fall (refund_fall call hexact w)

/-! ## Publication and cancellation -/

omit hexact in
omit h in
lemma Inv.publish (h : Inv s) (hd : s.deals.lookup k = some d)
    (ho : s.dealIndexOwnerMap.lookup k = some owner) :
    Inv { s with
      deals := s.deals.insert k { d with acceptorId := SELF }
      acceptorDealIndexes := Collection.add ESCROW_MAX_DEALS
        (unlist s.acceptorDealIndexes d.acceptorId k) SELF k 0 } ∧
    ∀ o a, offeredIn (dealsOf (s.deals.insert k { d with acceptorId := SELF }) s.dealIndexOwnerMap)
      o a = offeredIn s.live o a := by
  have hlive := live_perm hd ho
  have hagreed := h.agreed_lookup hd ho
  have hindex := h.index_eq hd
  have hnew : dealsOf (s.deals.insert k { d with acceptorId := SELF }) s.dealIndexOwnerMap =
      (owner, { d with acceptorId := SELF }) ::
        dealsOf (s.deals.erase k) (s.dealIndexOwnerMap.erase k) := by
    rw [dealsOf_replace, ownerOf, ho]
    rfl
  have hsum : ∀ o a, offeredIn (dealsOf (s.deals.insert k { d with acceptorId := SELF })
      s.dealIndexOwnerMap) o a = offeredIn s.live o a := fun o a => by
    rw [hnew, offeredIn_perm hlive, offeredIn_cons, offeredIn_cons]
  have hmem : k ∈ s.deals := AList.lookup_isSome.mp (hd ▸ rfl)
  have hunlisted := unlist_perm h.acceptorIndex hlive
  rw [hindex] at hunlisted
  have hlength : (dealsOf (s.deals.erase k) (s.dealIndexOwnerMap.erase k)).length <
      ESCROW_MAX_DEALS := by
    have := hlive.length_eq
    exact (Nat.lt_of_succ_le this.ge).trans_le h.bounded
  refine ⟨⟨⟨fun j => ?_, ?_, ?_, h.owners_nodup, fun x => ?_⟩, fun e he => ?_, ?_, fun p hp => ?_,
    h.tidy, fun o a => (h.reserved_eq o a).trans (hsum o a).symm⟩, hsum⟩
  · rw [AList.mem_insert, h.ownerMap]
    exact ⟨.inr, fun hj => hj.elim (fun heq => heq ▸ hmem) id⟩
  · refine h.ownerIndex.trans ((hlive.map _).trans (.of_eq ?_))
    rw [live, hnew]
    rfl
  · have hroom : (unlist s.acceptorDealIndexes d.acceptorId k).length < ESCROW_MAX_DEALS := by
      have := hunlisted.length_eq
      rw [length_map, length_map] at this
      exact this.trans_lt hlength
    rw [live, hnew, map_cons]
    have hadded := (Collection.add_perm hroom SELF k 0).map indexKey
    refine hadded.trans ?_
    rw [hindex]
    exact hunlisted.cons _
  · rw [h.mem_owners, (hlive.map Prod.fst).mem_iff, live, hnew]
    rfl
  · obtain rfl | he := mem_cons.mp he
    · exact h.index ⟨k, d⟩ (AList.mem_lookup_iff.mp hd)
    · exact h.index e ((entries_perm hd).mem_iff.mpr (mem_cons_of_mem _ he))
  · rw [live, hnew]
    exact hlength
  · rw [live, hnew] at hp
    obtain rfl | hp := mem_cons.mp hp
    · exact { hagreed with acceptor_ne := hagreed.owner_ne.symm }
    · exact h.agreed p (hlive.mem_iff.mpr (mem_cons_of_mem _ hp))

lemma makeDealPublic_sound (index : Int) :
    Sound host (makeDealPublic host call index s w).1 (makeDealPublic host call index s w).2 := by
  unfold makeDealPublic
  split
  · rename_i d owner hd ho
    split_ifs with hrefuse hlisted
    · exact h.of_fall (refund_fall call hexact w)
    · obtain ⟨hinv, hsum⟩ := h.inv.publish hd ho
      refine Sound.of_fall ⟨hinv, fun o a => ?_⟩ (refund_fall call hexact w)
      exact (congrArg Nat.cast (hsum o a)).trans_le (h.backed o a)
    · refine absurd (h.inv.acceptorIndex.mem_iff.mpr (mem_map.mpr ⟨(owner, d), ?_, ?_⟩)) hlisted
      · exact (live_perm hd ho).mem_iff.mpr mem_cons_self
      · rw [h.inv.index_eq hd]
  · exact h.of_fall (refund_fall call hexact w)

/-- A deal that is cancelled or expires leaves the books. -/
lemma Sound.close (hd : s.deals.lookup k = some d)
    (ho : s.dealIndexOwnerMap.lookup k = some owner) :
    Sound host (removeDeal k owner d.acceptorId (releaseAssets owner d s)) w := by
  have hlive := live_perm hd ho
  obtain ⟨htidy, hadd⟩ := releaseAll_spec owner h.inv.tidy
    (h.inv.agreed_lookup hd ho).offered_pos
    (fun a => by
      rw [h.inv.reserved_eq, offeredIn_perm hlive, offeredIn_cons, if_pos rfl]
      exact Nat.le_add_right _ _)
    (h.reserved_lt hexact owner)
  refine ⟨h.inv.remove hd ho htidy hadd s.earnedTokens, fun o a => ?_⟩
  have hbefore := h.backed o a
  rw [offeredIn_perm hlive, offeredIn_cons] at hbefore
  change (offeredIn (dealsOf (s.deals.erase k) (s.dealIndexOwnerMap.erase k)) o a : Int) ≤ _
  omega

lemma transferShareManagementRights_sound (input : TransferRightsInput) :
    Sound host (transferShareManagementRights host call input s w).2.1
      (transferShareManagementRights host call input s w).2.2 := by
  have hback : ∀ amount w', Sound host s w' →
      Sound host s (host.transfer call.invocator amount w').2 := fun amount w' h =>
    h.of_fall (hexact.transfer_fall _ _ _)
  unfold transferShareManagementRights
  dsimp only
  split_ifs with hamount hfree
  · exact hback _ _ h
  · exact hback _ _ h
  all_goals
    have hreleased : Sound host s (host.releaseShares input.asset.issuer input.asset.assetName
        call.invocator call.invocator input.amount input.newContractIndex input.newContractIndex
        call.invocationReward w).2 := by
      refine ⟨h.inv, fun o a => ?_⟩
      have hfall := hexact.releaseShares_shares input.asset call.invocator input.amount
        input.newContractIndex call.invocationReward w (by omega) a o
      have hbacked := h.backed o a
      by_cases heq : a = input.asset ∧ o = call.invocator
      · obtain ⟨rfl, rfl⟩ := heq
        have havailable := h.availableTokenAmount_eq hexact call.invocator input.asset
        rw [availableTokenAmount] at havailable
        rw [sharesLoss_self] at hfall
        omega
      · rw [sharesLoss_of_ne (not_and_or.mp heq)] at hfall
        omega
  · exact hback _ _ hreleased
  · exact hback _ _ hreleased
  · exact hreleased

/-! ## Epochs -/

omit h in
lemma expireDeal_sound (h : Sound host t.state t.world) (epoch : Nat)
    (hd : t.state.deals.lookup k = some d) (ho : t.state.dealIndexOwnerMap.lookup k = some owner) :
    Sound host (expireDeal host epoch owner t k).state (expireDeal host epoch owner t k).world ∧
    ∀ j ≠ k, (expireDeal host epoch owner t k).state.deals.lookup j = t.state.deals.lookup j ∧
      (expireDeal host epoch owner t k).state.dealIndexOwnerMap.lookup j =
        t.state.dealIndexOwnerMap.lookup j := by
  have hindex := h.inv.index_eq hd
  unfold expireDeal
  simp only [hd, Option.getD_some]
  split_ifs with hkeep hreturn
  · exact ⟨h, fun j _ => ⟨rfl, rfl⟩⟩
  all_goals
    rw [hindex]
    refine ⟨?_, fun j hj => ⟨AList.lookup_erase_ne hj, AList.lookup_erase_ne hj⟩⟩
  · exact (h.close hexact hd ho).of_fall (hexact.transfer_fall _ _ _)
  · exact h.close hexact hd ho

omit h in
lemma expireAll_sound (h : Sound host t.state t.world) (epoch : Nat) {ks : List Int}
    (hnodup : ks.Nodup) (hks : ∀ k ∈ ks, (∃ d, t.state.deals.lookup k = some d) ∧
      t.state.dealIndexOwnerMap.lookup k = some owner) :
    Sound host (ks.foldl (expireDeal host epoch owner) t).state
      (ks.foldl (expireDeal host epoch owner) t).world := by
  induction ks generalizing t with
  | nil => exact h
  | cons k ks ih =>
    rw [nodup_cons] at hnodup
    obtain ⟨⟨d, hd⟩, ho⟩ := hks k mem_cons_self
    obtain ⟨hsound, hothers⟩ := expireDeal_sound hexact h epoch hd ho
    refine ih hsound hnodup.2 fun j hj => ?_
    have hne : j ≠ k := fun heq => hnodup.1 (heq ▸ hj)
    rw [(hothers j hne).1, (hothers j hne).2]
    exact hks j (mem_cons_of_mem k hj)

omit h in
lemma expireDeals_sound (h : Sound host t.state t.world) (epoch : Nat) (owner : M256i) :
    Sound host (expireDeals host epoch t owner).state (expireDeals host epoch t owner).world := by
  have hkeys : (t.state.ownerDealIndexes.queue owner).map indexKey =
      ((t.state.ownerDealIndexes.queue owner).map Entry.value).map fun k => (owner, k) := by
    rw [map_map]
    refine map_congr_left fun e he => ?_
    rw [indexKey, (Collection.mem_queue.mp he).2]
    rfl
  refine expireAll_sound hexact h epoch ?_ fun k hk => ?_
  · have hall : (t.state.ownerDealIndexes.map indexKey).Nodup := by
      rw [h.inv.ownerIndex.nodup_iff]
      exact List.Nodup.of_map Prod.snd (by rw [map_map]; exact h.inv.indices_nodup)
    have hqueue : ((t.state.ownerDealIndexes.queue owner).map indexKey).Nodup :=
      hall.sublist (filter_sublist.map indexKey)
    rw [hkeys] at hqueue
    exact hqueue.of_map
  · obtain ⟨e, he, rfl⟩ := mem_map.mp hk
    obtain ⟨hmem, hpov⟩ := Collection.mem_queue.mp he
    obtain ⟨p, hp, hkey⟩ := mem_map.mp (h.inv.ownerIndex.mem_iff.mp
      (mem_map_of_mem hmem))
    obtain ⟨howner, hvalue⟩ := Prod.mk.inj hkey
    obtain ⟨hd, ho⟩ := h.inv.lookup (show (p.1, p.2) ∈ t.state.live from hp)
    rw [hvalue] at hd ho
    rw [howner, hpov] at ho
    exact ⟨⟨_, hd⟩, ho⟩

lemma beginEpoch_sound (epoch : Nat) (owners : List M256i) :
    Sound host (beginEpoch host epoch owners s w).1 (beginEpoch host epoch owners s w).2 := by
  have hfold : ∀ t : Expiry W, Sound host t.state t.world →
      Sound host (owners.foldl (expireDeals host epoch) t).state
        (owners.foldl (expireDeals host epoch) t).world := by
    induction owners with
    | nil => exact fun t ht => ht
    | cons o os ih => exact fun t ht => ih _ (expireDeals_sound hexact ht epoch o)
  exact hfold ⟨s, w, noDeal⟩ h

omit h in
/-- A move of shares takes nothing from other accounts than its source. -/
lemma moveShares_others (a : Asset) (owner newOwner : M256i) (amount : Int) (w : W) (b : Asset)
    {x : M256i} (hx : x ≠ owner) : host.shares SELF_INDEX b x w ≤
      host.shares SELF_INDEX b x (host.moveShares a owner newOwner amount w).2 := by
  by_cases hmove : 0 < amount ∧ amount ≤ host.shares SELF_INDEX a owner w
  · have hfall := hexact.moveShares_fall a owner newOwner hmove.1.le w b x
    rwa [sharesLoss_of_ne (.inr hx), add_zero] at hfall
  · rw [(hexact.moveShares_refused a owner newOwner amount w hmove).2]

omit hexact in
omit h in
lemma offeredIn_self (h : Inv s) (a : Asset) : offeredIn s.live SELF a = 0 := by
  by_contra hne
  obtain ⟨p, hp, howner, -⟩ := exists_of_offeredIn_pos (Nat.pos_of_ne_zero hne)
  exact (h.agreed p hp).owner_ne howner

/-- What the contract takes from itself touches no reservation. -/
lemma Sound.of_self {w' : W} (hothers : ∀ a x, x ≠ SELF →
    host.shares SELF_INDEX a x w ≤ host.shares SELF_INDEX a x w') : Sound host s w' := by
  refine ⟨h.inv, fun owner a => ?_⟩
  by_cases howner : owner = SELF
  · rw [howner, offeredIn_self h.inv]
    exact hexact.shares_nonneg a SELF w'
  · exact (h.backed owner a).trans (hothers a owner howner)

lemma distributeQu_sound : Sound host (distributeQu host s w).1 (distributeQu host s w).2 := by
  unfold distributeQu
  dsimp only
  split_ifs
  · refine ⟨(h.reaccount _ _ _).inv, fun owner a => ?_⟩
    rw [hexact.transfer_shares, hexact.burn_shares, hexact.distributeDividends_shares]
    exact h.backed owner a
  · refine ⟨h.inv, fun owner a => ?_⟩
    rw [hexact.distributeDividends_shares]
    exact h.backed owner a
  · exact h

lemma distributeToken_sound (token : Asset) :
    Sound host (distributeToken host (s, w) token).1 (distributeToken host (s, w) token).2 := by
  have hfold : ∀ (holders : List (M256i × Int)) (amount : M256i × Int → Int) (w : W) a x, x ≠ SELF →
      host.shares SELF_INDEX a x w ≤ host.shares SELF_INDEX a x (holders.foldl
        (fun w holder => (host.moveShares token SELF holder.1 (amount holder) w).2) w) := by
    intro holders amount
    induction holders with
    | nil => exact fun w a x _ => le_rfl
    | cons holder holders ih =>
      intro w a x hx
      have hfirst := moveShares_others hexact token SELF holder.1 (amount holder) w a hx
      exact hfirst.trans (ih _ a x hx)
  unfold distributeToken
  dsimp only
  split_ifs
  · exact h
  · refine Sound.of_self hexact (h.reaccount _ _ _) fun a x hx => ?_
    exact (hfold _ _ w a x hx).trans (moveShares_others hexact token SELF _ _ _ a hx)

lemma endEpoch_sound (tokens : List Asset) :
    Sound host (endEpoch host tokens s w).1 (endEpoch host tokens s w).2 := by
  have hfold : ∀ p : State × W, Sound host p.1 p.2 →
      Sound host (tokens.foldl (distributeToken host) p).1
        (tokens.foldl (distributeToken host) p).2 := by
    induction tokens with
    | nil => exact fun p hp => hp
    | cons token tokens ih => exact fun p hp => ih _ (distributeToken_sound hexact hp token)
  exact hfold _ (distributeQu_sound hexact h)

end

end

/-! ## Runs -/

inductive Call where
  | createDeal (epoch : Nat) (input : CreateDealInput)
  | acceptDeal (index : Int)
  | makeDealPublic (index : Int)
  | cancelDeal (index : Int)
  | transferShareManagementRights (input : TransferRightsInput)
  | beginEpoch (epoch : Nat) (owners : List M256i)
  | endEpoch (tokens : List Asset)

def Call.run (host : AssetHost W) (call : Invocation) : Call → State → W → State × W
  | .createDeal epoch input, s, w => Escrow.createDeal host call epoch input s w
  | .acceptDeal index, s, w => Escrow.acceptDeal host call index s w
  | .makeDealPublic index, s, w => Escrow.makeDealPublic host call index s w
  | .cancelDeal index, s, w => Escrow.cancelDeal host call index s w
  | .transferShareManagementRights input, s, w =>
    (Escrow.transferShareManagementRights host call input s w).2
  | .beginEpoch epoch owners, s, w => Escrow.beginEpoch host epoch owners s w
  | .endEpoch tokens, s, w => Escrow.endEpoch host tokens s w

/-- The order in which the sets are visited is some order of their elements. -/
def Call.Slots (s : State) : Call → Prop
  | .beginEpoch _ owners => owners.Perm s.ownersSet
  | .endEpoch tokens => tokens.Perm s.earnedTokens
  | _ => True

/-- One call. Before it the node may do anything that takes no shares under the management of the
contract. The contract does not call itself. -/
inductive Step (host : AssetHost W) (allowed : State → Call → Prop) :
    State × W → State × W → Prop where
  | call (s : State) (w w' : W) (call : Invocation) (c : Call)
      (hworld : host.SharesFall SELF_INDEX w w' 0) (hcall : Party call.invocator)
      (hslots : c.Slots s) (hallowed : allowed s c) :
      Step host allowed (s, w) (c.run host call s w')

def Careful (s : State) : Call → Prop
  | .createDeal _ input => ∀ x ∈ input.offeredAssets, 0 < x.amount
  | .acceptDeal index => ∀ d, s.deals.lookup index = some d → d.acceptorId ≠ SELF
  | _ => True

structure Consistent (host : AssetHost W) (s : State) (w : W) : Prop extends Listed s where
  reserved_eq : ∀ owner a,
    numberOfReservedShares s.reservedAssets owner a = offeredIn s.live owner a
  reserved_le : ∀ owner a,
    numberOfReservedShares s.reservedAssets owner a ≤ host.shares SELF_INDEX a owner w

lemma Call.run_sound (hexact : host.Exact SELF_INDEX balance) (h : Sound host s w)
    (hcall : Party call.invocator) {c : Call} (hcareful : Careful s c) :
    Sound host (c.run host call s w).1 (c.run host call s w).2 := by
  cases c with
  | createDeal epoch input => exact createDeal_sound hexact h hcall.1 epoch hcareful
  | acceptDeal index => exact acceptDeal_sound hexact h hcall.2 hcareful
  | makeDealPublic index => exact makeDealPublic_sound hexact h index
  | cancelDeal index =>
    have h' := h.of_fall (refund_fall call hexact w)
    dsimp only [Call.run, Escrow.cancelDeal]
    split
    · rename_i d owner hd ho
      split_ifs with howner
      · exact h'
      · rw [not_not] at howner
        subst howner
        exact (h'.close hexact hd ho).of_fall (hexact.transfer_fall _ _ _)
    · exact h'
  | transferShareManagementRights input => exact transferShareManagementRights_sound hexact h input
  | beginEpoch epoch owners => exact beginEpoch_sound hexact h epoch owners
  | endEpoch tokens => exact endEpoch_sound hexact h tokens

lemma init_sound (hexact : host.Exact SELF_INDEX balance) (devAddress : M256i) (w : W) :
    Sound host (init devAddress) w where
  inv :=
    { ownerMap := fun _ => Iff.rfl
      ownerIndex := .refl _
      acceptorIndex := .refl _
      owners_nodup := nodup_nil
      mem_owners := fun _ => Iff.rfl
      index := fun e he => by cases he
      bounded := Nat.zero_le _
      agreed := fun p hp => by cases hp
      tidy := ⟨nodup_nil, fun e he => by cases he⟩
      reserved_eq := fun _ _ => rfl }
  backed owner a := hexact.shares_nonneg a owner w

lemma Sound.consistent (hexact : host.Exact SELF_INDEX balance) (h : Sound host s w) :
    Consistent host s w := by
  refine ⟨h.inv.toListed, h.numberOfReservedShares_eq hexact, fun owner a => ?_⟩
  rw [h.numberOfReservedShares_eq hexact]
  exact h.backed owner a

/-- Along every run in which no empty amount is offered and no public deal is accepted, the
reservations are exactly the offers of the live deals, all of them are there, and the indices, the
map and the set of owners list exactly the live deals. -/
theorem consistent_of_careful (hexact : host.Exact SELF_INDEX balance) (devAddress : M256i) (w : W)
    {p : State × W}
    (hrun : Relation.ReflTransGen (Step host Careful) (init devAddress, w) p) :
    Consistent host p.1 p.2 := by
  have hsound : Sound host p.1 p.2 := by
    induction hrun with
    | refl => exact init_sound hexact devAddress w
    | tail _ hstep ih =>
      obtain ⟨s, w, w', call, c, hworld, hcall, -, hcareful⟩ := hstep
      exact Call.run_sound hexact (ih.of_fall hworld) hcall hcareful
  exact hsound.consistent hexact

/-! ### A small market -/

def seller : M256i := ⟨101⟩
def buyer : M256i := ⟨102⟩
def token : Asset := ⟨seller, 7⟩

/-- The seller has a hundred shares of a token, and the contract has some QU. -/
def smallMarket : Market := (Market.empty.issue token 100 (by decide)).receive 1000000

variable (acceptorId : M256i)

def offer (amount : Nat) : CreateDealInput where
  acceptorId := acceptorId
  offeredQU := 0
  offeredAssets := [⟨seller, 7, amount⟩]
  requestedQU := 1
  requestedAssets := []

def sold (amount : Nat) : State × Market :=
  (Call.createDeal 200 (offer acceptorId amount)).run Market.host ⟨seller, 250000⟩
    (init NULL_ID) smallMarket

theorem consistent_of_careful_oneDeal :
    Consistent Market.host (sold buyer 10).1 (sold buyer 10).2 :=
  consistent_of_careful (Market.qpi_exact SELF_INDEX) NULL_ID smallMarket
    (.single (.call _ _ _ _ _ (.refl _) (by decide) trivial (by
      intro x hx
      rw [mem_singleton.mp hx]
      decide)))

lemma sold_then (amount : Nat) (call : Invocation)
    (hcall : Party call.invocator) (c : Call) (hslots : c.Slots (sold acceptorId amount).1) :
    Relation.ReflTransGen (Step Market.host fun _ _ => True) (init NULL_ID, smallMarket)
      (c.run Market.host call (sold acceptorId amount).1 (sold acceptorId amount).2) := by
  have hfirst : Step Market.host (fun _ _ => True) (init NULL_ID, smallMarket)
      (sold acceptorId amount) :=
    .call _ _ _ ⟨seller, 250000⟩ (.createDeal 200 (offer acceptorId amount)) (.refl _) (by decide)
      trivial trivial
  revert hfirst hslots
  generalize sold acceptorId amount = p
  intro hslots hfirst
  exact .tail (.single hfirst) (.call p.1 p.2 p.2 call c (.refl _) hcall hslots trivial)

/-- A buyer accepts a public deal, and the deal stays listed under the contract. A seller offers
nothing of a token and then ten shares, and no reservation is seen. -/
theorem careless_runs_inconsistent :
    (∃ p, Relation.ReflTransGen (Step Market.host fun _ _ => True)
      (init NULL_ID, smallMarket) p ∧ p.1.live = [] ∧
      p.1.acceptorDealIndexes.map indexKey = [(SELF, 1)]) ∧
    ∃ p, Relation.ReflTransGen (Step Market.host fun _ _ => True) (init NULL_ID, smallMarket) p ∧
      numberOfReservedShares p.1.reservedAssets seller token = 0 ∧
      offeredIn p.1.live seller token = 10 := by
  constructor
  · have hrun := sold_then NULL_ID 10 ⟨buyer, 1⟩ (by decide) (.acceptDeal 1) trivial
    exact ⟨_, hrun, by decide +kernel, by decide +kernel⟩
  · have hrun := sold_then buyer 0 ⟨seller, 250000⟩ (by decide)
      (.createDeal 200 (offer buyer 10)) trivial
    exact ⟨_, hrun, by decide +kernel, by decide +kernel⟩

end QubicCore.Contracts.Escrow
