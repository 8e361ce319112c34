import QubicCore.Contracts.Qswap.Books
import QubicCore.Contracts.Qswap.Product
import QubicCore.Contracts.Ledger

/-!
# Solvency of QSWAP

The balance of the contract covers the reserves and the fees that are not yet distributed, and its
shares of each pooled asset cover the reserve of the pool.

A pool is found by the first three words of the issuer and the name of the asset. A call may name
any asset with these words, but shares come in of the issued one only, and there is one at most.
-/

namespace QubicCore.Contracts.Qswap

open Library Finset

variable {W : Type} {qpi : Qpi W} {balance : W → Int} {s : State}

/-! ## Payments -/

/-- From `w` to `w'` the contract pays at most `qu` and at most `shares` of one asset. -/
structure Pays (qpi : Qpi W) (balance : W → Int) (a : Asset) (w w' : W) (qu shares : Int) :
    Prop where
  balance_le : balance w ≤ balance w' + qu
  shares_le : sharesOf qpi a w SELF ≤ sharesOf qpi a w' SELF + shares
  others_le : ∀ b ≠ a, sharesOf qpi b w SELF ≤ sharesOf qpi b w' SELF

namespace Pays

variable {a : Asset} {w w' w'' : W} {qu qu' shares shares' : Int}

lemma refl (w : W) : Pays qpi balance a w w 0 0 := ⟨by simp, by simp, fun _ _ => le_rfl⟩

lemma trans (h : Pays qpi balance a w w' qu shares) (h' : Pays qpi balance a w' w'' qu' shares') :
    Pays qpi balance a w w'' (qu + qu') (shares + shares') :=
  ⟨by linarith [h.balance_le, h'.balance_le], by linarith [h.shares_le, h'.shares_le],
    fun b hb => (h.others_le b hb).trans (h'.others_le b hb)⟩

lemma mono (h : Pays qpi balance a w w' qu shares) (hqu : qu ≤ qu') (hshares : shares ≤ shares') :
    Pays qpi balance a w w' qu' shares' :=
  ⟨by linarith [h.balance_le], by linarith [h.shares_le], h.others_le⟩

lemma sharesOf_le (h : Pays qpi balance a w w' qu shares) (hshares : shares ≤ 0) (b : Asset) :
    sharesOf qpi b w SELF ≤ sharesOf qpi b w' SELF := by
  obtain rfl | hne := eq_or_ne b a
  · linarith [h.shares_le]
  · exact h.others_le b hne

lemma of_loses {lost : Asset → M256i → Int} (h : Loses balance (qpi.shares SELF_INDEX) w w' qu lost)
    (hlost : ∀ b ≠ a, lost b SELF = 0) : Pays qpi balance a w w' qu (lost a SELF) :=
  ⟨h.balance_le, h.shares_le a SELF, fun b hb => by
    have := h.shares_le b SELF
    rwa [hlost b hb, add_zero] at this⟩

end Pays

section

variable (hlaw : qpi.Lawful SELF_INDEX balance) {a : Asset} (call : Invocation) (w : W)
  {amount : Int}

include hlaw

lemma transfer_pays (destination : M256i) (hamount : 0 ≤ amount) :
    Pays qpi balance a w (qpi.transfer destination amount w).2 amount 0 :=
  Pays.of_loses (hlaw.transfer_loses destination hamount w) fun _ _ => rfl

lemma transferShares_pays {owner : M256i} (howner : owner ≠ SELF) (amount : Int)
    (newOwner : M256i) :
    Pays qpi balance a w (qpi.transferShareOwnershipAndPossession a.assetName a.issuer owner owner
      amount newOwner w).2 0 0 := by
  obtain ⟨-, h⟩ | ⟨-, -, h⟩ := hlaw.transferShares a owner amount newOwner w
  · exact Pays.of_loses h fun _ _ => rfl
  · refine (Pays.of_loses h fun b hb => sharesLoss_of_ne (Or.inl hb) _).mono le_rfl ?_
    rw [sharesLoss_of_ne (Or.inr howner.symm)]

lemma sendShares_pays (hamount : 0 ≤ amount) :
    Pays qpi balance a w (sendShares qpi call a w amount).2 0 amount := by
  obtain ⟨-, h⟩ | ⟨-, -, h⟩ := hlaw.transferShares a SELF amount call.invocator w
  · exact (Pays.of_loses h fun _ _ => rfl).mono le_rfl hamount
  · refine (Pays.of_loses h fun b hb => sharesLoss_of_ne (Or.inl hb) _).mono le_rfl ?_
    rw [sharesLoss_self]

lemma sendShares_pays_of_neg (hfail : (sendShares qpi call a w amount).1 < 0) :
    Pays qpi balance a w (sendShares qpi call a w amount).2 0 0 := by
  obtain ⟨-, h⟩ | ⟨hsent, -, -⟩ := hlaw.transferShares a SELF amount call.invocator w
  · exact Pays.of_loses h fun _ _ => rfl
  · exact absurd hfail (not_lt.2 hsent)

omit hlaw in
lemma sharesOf_eq (x : M256i) : sharesOf qpi a w x = qpi.shares SELF_INDEX a x w := rfl

lemma sint64_sharesOf_sub (x : M256i) (w' : W) :
    sint64 (sharesOf qpi a w' x - sharesOf qpi a w x) =
      sharesOf qpi a w' x - sharesOf qpi a w x := by
  have h₁ := hlaw.shares_nonneg a x w
  have h₂ := hlaw.shares_le a x w
  have h₃ := hlaw.shares_nonneg a x w'
  have h₄ := hlaw.shares_le a x w'
  simp only [MAX_AMOUNT, ISSUANCE_RATE] at h₂ h₄
  rw [sharesOf_eq, sharesOf_eq]
  exact sint64_eq (by omega) (by omega)

section

variable {call} (hcaller : call.invocator ≠ SELF)

include hcaller

lemma depositShares_pays (amount : Int) :
    Pays qpi balance a w (depositShares qpi call a w amount).2 0
      (if (depositShares qpi call a w amount).1 then -amount else 0) := by
  have h := transferShares_pays hlaw (a := a) w hcaller amount SELF
  obtain ⟨hbalance, hshares, hothers⟩ := h
  refine ⟨hbalance, ?_, hothers⟩
  split_ifs with hcame
  · simp only [depositShares, sint64_sharesOf_sub hlaw, decide_eq_true_eq] at hcame ⊢
    omega
  · exact hshares

lemma receiveShares_pays (amount : Int) :
    Pays qpi balance a w (receiveShares qpi call a w amount).2 0
      (if (receiveShares qpi call a w amount).1 then -amount else 0) := by
  have h := transferShares_pays hlaw (a := a) w hcaller amount SELF
  simp only [receiveShares, sint64_sharesOf_sub hlaw]
  generalize (qpi.transferShareOwnershipAndPossession a.assetName a.issuer call.invocator
    call.invocator amount SELF w).2 = w₁ at h ⊢
  by_cases hless : sharesOf qpi a w₁ SELF - sharesOf qpi a w SELF < amount
  · simp only [if_pos hless, Bool.false_eq_true, if_false]
    split_ifs with hmore
    · -- what came goes back, and not more
      have hback := sendShares_pays hlaw (a := a) call w₁ (sub_nonneg.2 hmore.le)
      exact ⟨(h.trans hback).balance_le, by linarith [hback.shares_le], (h.trans hback).others_le⟩
    · exact h
  · simp only [if_neg hless, if_true]
    exact ⟨h.balance_le, by linarith, h.others_le⟩

end

lemma giveBackReward_pays (hreward : 0 ≤ call.invocationReward) :
    Pays qpi balance a w (giveBackReward qpi call w) call.invocationReward 0 := by
  unfold giveBackReward
  split_ifs
  · exact transfer_pays hlaw w _ hreward
  · exact (Pays.refl w).mono hreward le_rfl

lemma giveBackAbove_pays {fee : Int} (hfee : fee ≤ call.invocationReward) :
    Pays qpi balance a w (giveBackAbove qpi call w fee) (call.invocationReward - fee) 0 := by
  unfold giveBackAbove
  split_ifs
  · exact transfer_pays hlaw w _ (by omega)
  · exact (Pays.refl w).mono (by omega) le_rfl

lemma returnExcess_pays (hreward : QSWAP_ADDITIONAL_FEE ≤ call.invocationReward) :
    Pays qpi balance a w (returnExcess qpi call w) (call.invocationReward - QSWAP_ADDITIONAL_FEE)
      0 := by
  unfold returnExcess
  split_ifs
  · exact transfer_pays hlaw w _ (by omega)
  · exact (Pays.refl w).mono (by omega) le_rfl

end

/-! ## Coverage -/

/-- The balance covers what is owed and an extra amount, and the shares of some asset of each pool
cover its reserve. -/
structure Covered (qpi : Qpi W) (balance : W → Int) (extra : Int) (s : State) (w : W) : Prop where
  owed_le : s.owed + extra ≤ balance w
  assets_le : ∀ i < QSWAP_MAX_POOL, ∃ a, poolID a = (s.mPoolBasicStates i).poolID ∧
    (s.mPoolBasicStates i).reservedAssetAmount ≤ sharesOf qpi a w SELF

structure Safe (qpi : Qpi W) (balance : W → Int) (s : State) (w : W) : Prop where
  books : Books s
  covered : Covered qpi balance 0 s w

/-- The situation in which a procedure starts: the reward has arrived, and the caller is another
account. -/
structure Entered (qpi : Qpi W) (balance : W → Int) (call : Invocation)
    (s : State) (w : W) : Prop where
  books : Books s
  covered : Covered qpi balance call.invocationReward s w
  caller : call.invocator ≠ SELF
  reward_nonneg : 0 ≤ call.invocationReward

structure Called (qpi : Qpi W) (balance : W → Int) (call : Invocation)
    (a : Asset) (s : State) (w : W) : Prop extends Entered qpi balance call s w where
  name_lt : a.assetName < 2 ^ 64

lemma Books.reserve_le_owed (h : Books s) {i : Nat} (hi : i < QSWAP_MAX_POOL) :
    (s.mPoolBasicStates i).reservedQuAmount ≤ s.owed := by
  have hterm := single_le_sum
    (fun j hj => (h.sound j (mem_range.1 hj)).qu_nonneg) (mem_range.2 hi)
  have hnonneg := s.undistributed_nonneg
  unfold State.owed
  omega

lemma Books.owed_nonneg (h : Books s) : 0 ≤ s.owed :=
  add_nonneg (sum_nonneg fun i hi => (h.sound i (mem_range.1 hi)).qu_nonneg) s.undistributed_nonneg

/-- The state keeps its pools, and what is paid and booked comes out of the extra amount. -/
lemma Covered.counters {a : Asset} {s' : State} {w w' : W}
    {extra qu shares : Int} (h : Covered qpi balance extra s w)
    (hpools : s'.mPoolBasicStates = s.mPoolBasicStates) (hpays : Pays qpi balance a w w' qu shares)
    (hqu : s'.undistributed + qu ≤ s.undistributed + extra) (hshares : shares ≤ 0) :
    Covered qpi balance 0 s' w' := by
  refine ⟨?_, fun i hi => ?_⟩
  · have := h.owed_le
    have := hpays.balance_le
    simp only [State.owed, hpools] at *
    omega
  · rw [hpools]
    obtain ⟨b, hid, hle⟩ := h.assets_le i hi
    exact ⟨b, hid, hle.trans (hpays.sharesOf_le hshares b)⟩

lemma Entered.unchanged {call : Invocation} {a : Asset} {w w' : W}
    {qu shares : Int} (h : Entered qpi balance call s w)
    (hpays : Pays qpi balance a w w' qu shares) (hqu : qu ≤ call.invocationReward)
    (hshares : shares ≤ 0) : Safe qpi balance s w' :=
  ⟨h.books, h.covered.counters rfl hpays (by omega) hshares⟩

namespace Called

variable {call : Invocation} {a : Asset} {s s' : State} {w w' : W}
  {qu shares : Int}

section

variable (h : Called qpi balance call a s w)
include h

lemma reward_le (hlaw : qpi.Lawful SELF_INDEX balance) : call.invocationReward ≤ MAX_AMOUNT := by
  have := h.covered.owed_le
  have := h.books.owed_nonneg
  have := hlaw.balance_le w
  omega

lemma asset_le (hlaw : qpi.Lawful SELF_INDEX balance) {i : Nat} (hi : i < QSWAP_MAX_POOL) :
    (s.mPoolBasicStates i).reservedAssetAmount ≤ MAX_AMOUNT := by
  obtain ⟨b, -, hle⟩ := h.covered.assets_le i hi
  exact hle.trans (hlaw.shares_le b SELF w)

/-- A pool with liquidity has positive reserves, which do not exceed any amount. -/
lemma funded (hlaw : qpi.Lawful SELF_INDEX balance)
    {slot : Nat} (hslot : findPoolSlotReadOnly s a = some slot)
    (hliquidity : (s.mPoolBasicStates slot).totalLiquidity ≠ 0) :
    (s.mPoolBasicStates slot).Funded := by
  obtain ⟨hlt, hid⟩ := findPoolSlotReadOnly_some hslot
  obtain ⟨hqu, hasset, -, hroot, -⟩ := h.books.sound slot hlt
  have hpos : 0 < (s.mPoolBasicStates slot).reservedQuAmount *
      (s.mPoolBasicStates slot).reservedAssetAmount :=
    (mul_self_pos.2 hliquidity).trans_le hroot
  refine ⟨?_, ?_, ?_, ?_⟩
  · exact hqu.lt_of_ne fun hzero => by simp [← hzero] at hpos
  · have := h.books.reserve_le_owed hlt
    have := h.covered.owed_le
    have := hlaw.balance_le w
    have := h.reward_nonneg
    omega
  · exact hasset.lt_of_ne fun hzero => by simp [← hzero] at hpos
  · exact h.asset_le hlaw hlt

lemma unchanged (hpays : Pays qpi balance a w w' qu shares) (hqu : qu ≤ call.invocationReward)
    (hshares : shares ≤ 0) : Safe qpi balance s w' :=
  h.toEntered.unchanged hpays hqu hshares

/-- The pool of the asset changes, and the payments match. If shares come in, then of the asset
that backs the pool: both are issued then. -/
lemma pool (hlaw : qpi.Lawful SELF_INDEX balance)
    (hissues : qpi.Issues SELF_INDEX) (hbooks : Books s')
    {slot : Nat} (hslot : slot < QSWAP_MAX_POOL)
    (hid : (s.mPoolBasicStates slot).poolID = poolID a) {pool : PoolBasicState}
    (hpool : pool.poolID = poolID a)
    (hpools : s'.mPoolBasicStates = Function.update s.mPoolBasicStates slot pool)
    (hpays : Pays qpi balance a w w' qu shares)
    (hqu : pool.reservedQuAmount + s'.undistributed + qu ≤
      (s.mPoolBasicStates slot).reservedQuAmount + s.undistributed + call.invocationReward)
    (hshares : pool.reservedAssetAmount + shares ≤
      (s.mPoolBasicStates slot).reservedAssetAmount) :
    Safe qpi balance s' w' := by
  refine ⟨hbooks, ?_, fun i hi => ?_⟩
  · have := h.covered.owed_le
    have := hpays.balance_le
    have := Cells.sum_update hslot s.mPoolBasicStates pool PoolBasicState.reservedQuAmount
    simp only [State.owed, hpools] at *
    omega
  · obtain ⟨b, hidb, hold⟩ := h.covered.assets_le i hi
    rw [hpools]
    obtain rfl | hne := eq_or_ne i slot
    · rw [Function.update_self, hpool]
      have ha := hpays.shares_le
      obtain rfl | hba := eq_or_ne b a
      · exact ⟨b, rfl, by omega⟩
      have hb := hpays.others_le b hba
      have hnonneg : 0 ≤ sharesOf qpi a w SELF := hlaw.shares_nonneg a SELF w
      by_cases hcame : 0 < sharesOf qpi a w' SELF
      · have hnone : ¬0 < sharesOf qpi b w' SELF := fun hpos =>
          hba (hissues.distinct b a w' (hissues.isAssetIssued hpos) (hissues.isAssetIssued hcame)
            (hidb.trans hid))
        exact ⟨a, rfl, by omega⟩
      · exact ⟨b, hidb.trans hid, by omega⟩
    · rw [Function.update_of_ne hne]
      refine ⟨b, hidb, ?_⟩
      obtain rfl | hb' := eq_or_ne b a
      · -- another slot with the same id has no pool
        have hzero : (s.mPoolBasicStates i).poolID = 0 := by
          by_contra hused
          exact hne (h.books.distinct i hi slot hslot hused (by rw [← hidb, hid]))
        rw [((h.books.sound i hi).empty (h.books.vacant i hi hzero)).2]
        exact hlaw.shares_nonneg b SELF w'
      · exact hold.trans (hpays.others_le b hb')

end

end Called

/-! ## Swaps -/

section

variable (hlaw : qpi.Lawful SELF_INDEX balance)
  (hissues : qpi.Issues SELF_INDEX) {call : Invocation} {a : Asset}
  {s : State} {w : W} (h : Called qpi balance call a s w) {result : Int × State × W}
  {slot : Nat}

include hlaw h

lemma Refused.safe (hrefused : Refused qpi call a s w result) :
    Safe qpi balance result.2.1 result.2.2 := by
  obtain rfl | ⟨amount, hamount, rfl⟩ := hrefused
  · exact h.unchanged (transfer_pays hlaw w _ h.reward_nonneg) le_rfl le_rfl
  · have hsent : Pays qpi balance a w (sendShares qpi call a w amount).2 0 0 := by
      obtain hfail | rfl := hamount
      · exact sendShares_pays_of_neg hlaw call w hfail
      · exact sendShares_pays hlaw call w le_rfl
    exact h.unchanged (hsent.trans (transfer_pays hlaw _ _ h.reward_nonneg)) (by omega) le_rfl

lemma Declined.safe (hdeclined : Declined qpi call a s w result) :
    Safe qpi balance result.2.1 result.2.2 := by
  obtain ⟨rfl, -⟩ | ⟨hreward, hdeclined⟩ := hdeclined
  · exact h.unchanged (transfer_pays hlaw w _ h.reward_nonneg) le_rfl le_rfl
  have hexcess := returnExcess_pays hlaw (a := a) call w hreward
  obtain rfl | ⟨amount, hfailed, rfl⟩ := hdeclined
  · exact h.unchanged (hexcess.trans (transfer_pays hlaw _ _ (by decide))) (by omega) le_rfl
  · have hback := receiveShares_pays hlaw (a := a) (returnExcess qpi call w) h.caller amount
    rw [hfailed] at hback
    exact h.unchanged ((hexcess.trans hback).trans (transfer_pays hlaw _ _ (by decide))) (by omega)
      le_rfl

omit h hlaw in
/-- A swap leaves a sound pool, and books what it takes out of the reserve. -/
lemma afterSwap_books (hbooks : Books s) (hslot : findPoolSlotReadOnly s a = some slot)
    (hliquidity : (s.mPoolBasicStates slot).totalLiquidity ≠ 0) {pool : PoolBasicState}
    {qu asset : Int} {fees : Fees}
    (htraded : Traded (s.mPoolBasicStates slot) pool qu asset fees) :
    Books (s.afterSwap fees slot pool) ∧ (s.afterSwap fees slot pool).undistributed ≤
        s.undistributed + QSWAP_ADDITIONAL_FEE + fees.total := by
  obtain ⟨hlt, hid⟩ := findPoolSlotReadOnly_some hslot
  obtain ⟨-, -, hliquidity₀, hroot, -⟩ := hbooks.sound slot hlt
  constructor
  · refine hbooks.update hlt htraded.poolID_eq ?_ ⟨htraded.qu_pos.le, htraded.asset_pos.le, ?_, ?_,
      fun hzero => absurd (htraded.totalLiquidity_eq ▸ hzero) hliquidity⟩ rfl
      ((hbooks.counted.earnAdditionalFee.earnFees fees).setPool _ _) hbooks.proper rfl ?_
    · intro hzero
      exact hliquidity (hbooks.vacant slot hlt (htraded.poolID_eq ▸ hzero))
    · rw [htraded.totalLiquidity_eq]
      exact hliquidity₀
    · rw [htraded.totalLiquidity_eq]
      exact hroot.trans htraded.product_le
    · intro p
      rw [htraded.totalLiquidity_eq, sub_self, ite_self, add_zero]
      rfl
  · have h₁ := s.earnAdditionalFee.earnFees_undistributed_le htraded.exact
    have h₂ := s.earnAdditionalFee_undistributed_le
    change (s.earnAdditionalFee.earnFees fees).undistributed ≤ _
    omega

include hissues

lemma Sold.safe {quAmountIn assetAmountOut excess output : Int}
    (hsold : Sold qpi call a s w slot quAmountIn assetAmountOut excess output result)
    (hslot : findPoolSlotReadOnly s a = some slot)
    (hliquidity : (s.mPoolBasicStates slot).totalLiquidity ≠ 0)
    (hexcess : quAmountIn + QSWAP_ADDITIONAL_FEE + max excess 0 ≤ call.invocationReward)
    (htraded : Traded (s.mPoolBasicStates slot) ((s.mPoolBasicStates slot).sell quAmountIn
      assetAmountOut (swapFeeOn s.rates quAmountIn) (s.rates.split (swapFeeOn s.rates quAmountIn)))
      quAmountIn (-assetAmountOut) (s.rates.split (swapFeeOn s.rates quAmountIn))) :
    Safe qpi balance result.2.1 result.2.2 := by
  obtain ⟨hsuccess, rfl⟩ := hsold
  have hout : 0 ≤ assetAmountOut := by
    obtain ⟨hfail, -⟩ | ⟨-, hout, -⟩ := hlaw.transferShares a SELF assetAmountOut call.invocator w
    · exact absurd hsuccess (not_le.2 hfail)
    · exact hout
  obtain ⟨hlt, hid⟩ := findPoolSlotReadOnly_some hslot
  obtain ⟨hbooks, hfees⟩ := afterSwap_books h.books hslot hliquidity htraded
  have hsent := sendShares_pays hlaw (a := a) call w hout
  have hpays : Pays qpi balance a w (if excess > 0 then
      (qpi.transfer call.invocator excess (sendShares qpi call a w assetAmountOut).2).2
      else (sendShares qpi call a w assetAmountOut).2) (max excess 0) assetAmountOut := by
    split_ifs with hpos
    · exact (hsent.trans (transfer_pays hlaw _ _ hpos.le)).mono (by omega) (by omega)
    · exact hsent.mono (by omega) le_rfl
  refine h.pool hlaw hissues hbooks hlt hid (htraded.poolID_eq.trans hid) rfl hpays ?_ ?_
  · dsimp only
    rw [htraded.qu_eq]
    omega
  · rw [htraded.asset_eq]
    omega

lemma Bought.safe {assetAmountIn paid output : Int} {swapFee : Nat}
    (hbought : Bought qpi call a s w slot assetAmountIn paid output swapFee result)
    (hslot : findPoolSlotReadOnly s a = some slot)
    (hliquidity : (s.mPoolBasicStates slot).totalLiquidity ≠ 0) (hpaid : 0 ≤ paid)
    (htraded : Traded (s.mPoolBasicStates slot) ((s.mPoolBasicStates slot).payOut
      assetAmountIn paid swapFee (s.rates.split swapFee)) (-paid) assetAmountIn
      (s.rates.split swapFee)) :
    Safe qpi balance result.2.1 result.2.2 := by
  obtain ⟨hreward, hreceived, rfl⟩ := hbought
  obtain ⟨hlt, hid⟩ := findPoolSlotReadOnly_some hslot
  obtain ⟨hbooks, hfees⟩ := afterSwap_books h.books hslot hliquidity htraded
  have hcame := receiveShares_pays hlaw (a := a) (returnExcess qpi call w) h.caller assetAmountIn
  rw [if_pos hreceived] at hcame
  have hpays := ((returnExcess_pays hlaw call w hreward).trans hcame).trans
    (transfer_pays hlaw _ call.invocator hpaid)
  refine h.pool hlaw hissues hbooks hlt hid (htraded.poolID_eq.trans hid) rfl hpays ?_ ?_
  · dsimp only
    rw [htraded.qu_eq]
    omega
  · rw [htraded.asset_eq]
    omega

lemma Swap.safe (swap : Swap) :
    Safe qpi balance (swap.run qpi call a s w).2.1 (swap.run qpi call a s w).2.2 := by
  have hrates := h.books.rates
  cases swap with
  | exactQuForAsset assetAmountOutMin =>
    obtain hrefused | ⟨slot, quAmountIn, out, hslot, hpos, hin, hliquidity, rfl, hquote,
      hsold⟩ := swapExactQuForAsset_cases assetAmountOutMin
    · exact hrefused.safe hlaw h
    · exact hsold.safe hlaw hissues h hslot hliquidity (by omega)
        (sell_exactIn hrates (h.funded hlaw hslot hliquidity) hpos hquote)
  | quForExactAsset assetAmountOut =>
    obtain hrefused | ⟨slot, quAmountIn, hslot, hpos, hlt, hliquidity, hin, hquote, hle,
      hsold⟩ := swapQuForExactAsset_cases assetAmountOut
    · exact hrefused.safe hlaw h
    · have hreward := h.reward_le hlaw
      refine hsold.safe hlaw hissues h hslot hliquidity (by omega) (sell_exactOut hrates
        (h.funded hlaw hslot hliquidity) hpos hlt hin hquote ?_)
      simp only [QSWAP_ADDITIONAL_FEE] at hle
      omega
  | exactAssetForQu assetAmountIn quAmountOutMin =>
    obtain hdeclined | ⟨slot, gross, hslot, hpos, hliquidity, hgross, hquote, hbought⟩ :=
      swapExactAssetForQu_cases assetAmountIn quAmountOutMin
    · exact hdeclined.safe hlaw h
    · have hmem := getAmountOutTakeFeeFromOutToken_mem (hgross ▸ hquote)
      rw [← hgross] at hmem
      exact hbought.safe hlaw hissues h hslot hliquidity (hrates.afterSwapFee_le hmem.1 hmem.2).1
        (payOut_exactIn hrates (h.funded hlaw hslot hliquidity) hpos hgross hquote)
  | assetForExactQu assetAmountInMax quAmountOut =>
    obtain hdeclined | ⟨slot, assetAmountIn, hslot, hpos, hlt, hliquidity, hin, hquote, hle,
      hbought⟩ := swapAssetForExactQu_cases assetAmountInMax quAmountOut
    · exact hdeclined.safe hlaw h
    · exact hbought.safe hlaw hissues h hslot hliquidity hpos.le (payOut_exactOut hrates
        (h.funded hlaw hslot hliquidity) hpos hlt hin hquote (hle.trans (hlaw.shares_le a _ _)))

end

end QubicCore.Contracts.Qswap
