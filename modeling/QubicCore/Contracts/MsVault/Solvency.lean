import QubicCore.Contracts.MsVault.Approvals
import QubicCore.Library.Cells

/-!
# Solvency of MSVAULT

The balance of the contract covers the balances of the vaults and the revenue that is not yet
distributed. Each procedure collects the fee in force; the balance stays covered as long as this fee
is not negative after its conversion to `sint64`.
-/

namespace QubicCore.Contracts.MsVault

open Library Finset Relation

variable {W : Type} {qpi : Host W} {balance : W → Int} {call : Invocation} {s : State} {w : W}
  {v : Nat} {extra : Int} {w' : W}

/-- The vaults and the revenue that is not yet distributed. -/
def owed (s : State) : Nat :=
  ∑ v ∈ range MSVAULT_MAX_VAULTS, (s.vaults v).qubicBalance + undistributed s

/-- The balance covers what the contract owes, and an amount on top. -/
def Covers (balance : W → Int) (s : State) (w : W) (extra : Int) : Prop :=
  (owed s : Int) + extra ≤ balance w

/-! ## What the contract owes -/

lemma undistributed_addRevenue_le (s : State) (fee : Nat) :
    undistributed (s.addRevenue fee) ≤ undistributed s + fee := by
  unfold undistributed State.addRevenue addAmount uint64
  dsimp only
  omega

lemma owed_addRevenue_le (s : State) (fee : Nat) : owed (s.addRevenue fee) ≤ owed s + fee := by
  have := undistributed_addRevenue_le s fee
  have hvaults : (s.addRevenue fee).vaults = s.vaults := rfl
  unfold owed
  rw [hvaults]
  omega

lemma owed_setVault (s : State) (hv : v < MSVAULT_MAX_VAULTS) (vault : Vault) :
    owed (s.setVault v vault) + (s.vaults v).qubicBalance = owed s + vault.qubicBalance := by
  have hsum := Cells.sum_update hv s.vaults vault Vault.qubicBalance
  have hundistributed : undistributed (s.setVault v vault) = undistributed s := rfl
  have hvaults : (s.setVault v vault).vaults = Function.update s.vaults v vault := rfl
  unfold owed
  rw [hundistributed, hvaults]
  omega

lemma owed_setAssetPart (s : State) (v : Nat) (part : VaultAssetPart) :
    owed (s.setAssetPart v part) = owed s := rfl

lemma owed_openVault_le (s : State) (hv : v < MSVAULT_MAX_VAULTS)
    (hzero : (s.vaults v).qubicBalance = 0) (input : RegisterVaultInput) :
    owed (openVault s v input) ≤ owed s + s.liveRegisteringFee := by
  have hset := owed_setVault s hv (newVault input)
  have hempty : (newVault input).qubicBalance = 0 := rfl
  calc owed (openVault s v input)
      ≤ owed (s.setVault v (newVault input)) + s.liveRegisteringFee := owed_addRevenue_le _ _
    _ = owed s + s.liveRegisteringFee := by omega

lemma owed_of_sameBooks {s' : State} (h : SameBooks s s') : owed s' = owed s := by
  unfold owed undistributed
  rw [h.vaults_eq, h.totalRevenue_eq, h.distributed_eq]

lemma balance_le_owed (s : State) (hv : v < MSVAULT_MAX_VAULTS) :
    (s.vaults v).qubicBalance ≤ owed s := by
  have hle := single_le_sum (f := fun v => (s.vaults v).qubicBalance) (fun _ _ => Nat.zero_le _)
    (mem_range.2 hv)
  exact hle.trans (Nat.le_add_right _ _)

/-! ## Payments -/

lemma Covers.addRevenue {fee : Nat} (h : Covers balance s w (fee + extra)) :
    Covers balance (s.addRevenue fee) w extra := by
  have := owed_addRevenue_le s fee
  unfold Covers at *
  omega

lemma Covers.of_owed_le {s' : State} (h : Covers balance s w extra) (hle : owed s' ≤ owed s) :
    Covers balance s' w extra := by
  unfold Covers at *
  omega

lemma Covers.mono {extra' : Int} (h : Covers balance s w extra) (hle : extra' ≤ extra) :
    Covers balance s w extra' := by
  unfold Covers at *
  omega

lemma Covers.of_balance_le (h : Covers balance s w extra) (hle : balance w ≤ balance w') :
    Covers balance s w' extra := le_trans h hle

lemma Covers.pay {paid : Int} (h : Covers balance s w paid)
    (hle : balance w ≤ balance w' + paid) : Covers balance s w' 0 := by
  unfold Covers at *
  omega

lemma Covers.withdraw (h : Covers balance s w 0) (hv : v < MSVAULT_MAX_VAULTS) (vault : Vault)
    {amount : Nat} (hvault : vault.qubicBalance + amount = (s.vaults v).qubicBalance) :
    Covers balance (s.setVault v vault) w amount := by
  have := owed_setVault s hv vault
  unfold Covers at *
  omega

section

variable (hlaw : qpi.toQpi.Lawful SELF_INDEX balance)

include hlaw

lemma transfer_le (destination : M256i) {amount : Int} (hamount : 0 ≤ amount) (w : W) :
    balance w ≤ balance (qpi.transfer destination amount w).2 + amount :=
  (hlaw.transfer_loses destination hamount w).balance_le

lemma transferShares_le (a : Asset) (owner : M256i) (amount : Int) (newOwner : M256i) (w : W) :
    balance w ≤ balance (qpi.transferShareOwnershipAndPossession a.assetName a.issuer owner owner
      amount newOwner w).2 := by
  obtain ⟨-, hloses⟩ | ⟨-, -, hloses⟩ := hlaw.transferShares a owner amount newOwner w
  · simpa using hloses.balance_le
  · simpa using hloses.balance_le

lemma releaseShares_le (a : Asset) (owner : M256i) (amount : Int) (destination : Nat) (fee : Int)
    (w : W) :
    balance w ≤ balance (qpi.releaseShares a.issuer a.assetName owner owner amount destination
      destination fee w).2 + if (qpi.releaseShares a.issuer a.assetName owner owner amount
        destination destination fee w).1 < 0 then 0 else fee := by
  obtain ⟨hfail, hloses⟩ | ⟨hsuccess, hle, hloses⟩ :=
    hlaw.releaseShares a owner amount destination fee w _ rfl
  · rw [if_pos hfail]
    exact hloses.balance_le
  · have := hloses.balance_le
    omega

lemma Covers.le_max (h : Covers balance s w extra) :
    (owed s : Int) + extra ≤ MAX_AMOUNT := le_trans h (hlaw.balance_le w)

lemma Covers.refund {amount : Int} (h : Covers balance s w extra) (hamount : 0 ≤ amount)
    (hle : amount ≤ extra) (status : Nat) :
    Covers balance (refund qpi call status amount s w).state
      (refund qpi call status amount s w).world 0 :=
  (h.mono hle).pay (transfer_le hlaw call.invocator hamount w)

lemma Covers.refundExcess (h : Covers balance s w call.invocationReward) {fee : Nat}
    (hfee : fee < 2 ^ 63) (hle : (fee : Int) ≤ call.invocationReward) :
    Covers balance s (refundExcess qpi call fee w) fee := by
  have hmax := h.le_max hlaw
  have hsint : sint64 fee = fee := sint64_eq (by omega) (by omega)
  unfold MsVault.refundExcess
  rw [hsint]
  split
  next hlt =>
    have hexcess : sint64 (call.invocationReward - fee) = call.invocationReward - fee := by
      simp only [MAX_AMOUNT, ISSUANCE_RATE] at hmax
      exact sint64_eq (by omega) (by omega)
    rw [hexcess]
    have := transfer_le hlaw call.invocator (sub_nonneg.2 hle) w
    unfold Covers at *
    omega
  next => unfold Covers at *; omega

end

/-! ## Procedures -/

namespace Procedure

def fee (s : State) : Procedure → Nat
  | registerVault _ => s.liveRegisteringFee
  | deposit _ => s.liveDepositFee
  | revokeAssetManagementRights _ => MSVAULT_REVOKE_FEE
  | depositAsset _ => s.liveDepositFee
  | releaseTo _ => s.liveReleaseFee
  | releaseAssetTo _ => s.liveReleaseFee
  | resetRelease _ => s.liveReleaseResetFee
  | resetAssetRelease _ => s.liveReleaseResetFee
  | voteFeeChange _ => MSVAULT_VOTE_FEE_CHANGE_FEE

end Procedure

structure Entered (balance : W → Int) (call : Invocation) (s : State) (w : W) : Prop where
  reward_nonneg : 0 ≤ call.invocationReward
  covers : Covers balance s w call.invocationReward

def Result.Covered (balance : W → Int) (r : Result W) : Prop := Covers balance r.state r.world 0

lemma le_of_paysFee {fee : Nat} (hfee : fee < 2 ^ 63) (h : paysFee call fee) :
    (fee : Int) ≤ call.invocationReward := by
  rw [paysFee_iff, sint64_eq (by omega) (by omega)] at h
  exact h

section

variable (hlaw : qpi.toQpi.Lawful SELF_INDEX balance) (h : Entered balance call s w)

include hlaw h

lemma Entered.refundAll (status : Nat) :
    (refund qpi call status call.invocationReward s w).Covered balance :=
  h.covers.refund hlaw h.reward_nonneg le_rfl status

lemma Entered.refundFee {fee : Nat} (hfee : fee < 2 ^ 63) (hpays : paysFee call fee)
    (status : Nat) :
    (refund qpi call status (sint64 fee) s (refundExcess qpi call fee w)).Covered balance := by
  have hcovers := h.covers.refundExcess hlaw hfee (le_of_paysFee hfee hpays)
  rw [sint64_eq (by omega) (by omega)]
  exact hcovers.refund hlaw (Int.natCast_nonneg fee) le_rfl status

/-- The excess is paid back and the fee becomes revenue. -/
lemma Entered.earned {fee : Nat} (hfee : fee < 2 ^ 63)
    (hpays : sint64 fee ≤ call.invocationReward) :
    Covers balance (s.addRevenue fee) (refundExcess qpi call fee w) 0 :=
  Covers.addRevenue (by
    exact h.covers.refundExcess hlaw hfee (le_of_paysFee hfee (paysFee_iff.2 hpays)))

lemma registerVault_covered (input : RegisterVaultInput) (hfee : s.liveRegisteringFee < 2 ^ 63) :
    (registerVault qpi call input s w).Covered balance := by
  unfold registerVault
  dsimp only
  split
  next => exact h.refundAll hlaw 2
  next hpays =>
  have hpays : paysFee call s.liveRegisteringFee := by simpa using hpays
  split
  next => exact h.refundFee hlaw hfee hpays 5
  split
  next => exact h.refundFee hlaw hfee hpays 5
  split
  next => exact h.refundFee hlaw hfee hpays 7
  apply byCheck_cases
  · exact fun status _ => h.refundFee hlaw hfee hpays status
  · intro slotIndex hslot
    obtain ⟨hlt, -, hzero⟩ := emptySlot_ok hslot
    have hopened := owed_openVault_le s hlt hzero input
    have hcovers := h.covers.refundExcess hlaw hfee (le_of_paysFee hfee hpays)
    unfold Result.Covered Covers at *
    dsimp only
    omega

lemma deposit_covered (v : Nat) (hfee : s.liveDepositFee < 2 ^ 63) :
    (deposit qpi call v s w).Covered balance := by
  unfold deposit
  split
  next => exact h.refundAll hlaw 2
  next hpays =>
  have hpays := le_of_paysFee hfee (by simpa using hpays : paysFee call s.liveDepositFee)
  split
  next => exact h.refundAll hlaw 5
  split
  next => exact h.refundAll hlaw 3
  next hvalid =>
  split
  next => exact h.refundAll hlaw 3
  have hv : v < MSVAULT_MAX_VAULTS := isValidVaultId_iff.1 (by simpa using hvalid)
  have hmax := h.covers.le_max hlaw
  have hle := balance_le_owed s hv
  simp only [MAX_AMOUNT, ISSUANCE_RATE] at hmax
  -- nothing wraps: the amount and the balance are part of what the contract holds
  have hamount : amountToDeposit call s = (call.invocationReward - s.liveDepositFee).toNat := by
    rw [amountToDeposit, uint64_eq (by omega) (by omega)]
  have hsum : addAmount (s.vaults v).qubicBalance (amountToDeposit call s) =
      (s.vaults v).qubicBalance + (call.invocationReward - s.liveDepositFee).toNat := by
    rw [hamount, addAmount, Nat.mod_eq_of_lt (by omega)]
  have hset := owed_setVault (s.addRevenue s.liveDepositFee) hv { s.vaults v with
    qubicBalance := addAmount (s.vaults v).qubicBalance (amountToDeposit call s) }
  have hearned := owed_addRevenue_le s s.liveDepositFee
  have hvaults : (s.addRevenue s.liveDepositFee).vaults = s.vaults := rfl
  have hcovers := h.covers
  rw [hvaults] at hset
  unfold Result.Covered Covers at *
  dsimp only at *
  omega

lemma revokeAssetManagementRights_covered (input : RevokeInput) :
    (revokeAssetManagementRights qpi call input s w).Covered balance := by
  have hfee : MSVAULT_REVOKE_FEE < 2 ^ 63 := by decide
  unfold revokeAssetManagementRights
  dsimp only
  split
  next => exact h.refundAll hlaw 2
  next hpays =>
  split
  next => exact h.refundAll hlaw 5
  split
  next => exact h.refundAll hlaw 6
  have hcovers := h.covers.refundExcess hlaw hfee (not_lt.1 hpays)
  have hreleased := releaseShares_le hlaw input.asset call.invocator input.numberOfShares
    QX_CONTRACT_INDEX MSVAULT_REVOKE_FEE (refundExcess qpi call MSVAULT_REVOKE_FEE w)
  split
  next hfail =>
    rw [if_pos hfail] at hreleased
    exact (hcovers.of_balance_le (by simpa using hreleased)).mono (Int.natCast_nonneg _)
  next hsuccess =>
    rw [if_neg hsuccess] at hreleased
    exact hcovers.pay hreleased

lemma depositAsset_covered (input : DepositAssetInput) (hfee : s.liveDepositFee < 2 ^ 63) :
    (depositAsset qpi call input s w).Covered balance := by
  unfold depositAsset
  dsimp only
  split
  next => exact h.refundAll hlaw 2
  next hpays =>
  have hpays : paysFee call s.liveDepositFee := by simpa using hpays
  split
  next => exact h.refundFee hlaw hfee hpays 6
  split
  next => exact h.refundFee hlaw hfee hpays 3
  split
  next => exact h.refundFee hlaw hfee hpays 3
  split
  next => exact h.refundFee hlaw hfee hpays 7
  have hcovers := h.covers.refundExcess hlaw hfee (le_of_paysFee hfee hpays)
  have hsint : sint64 s.liveDepositFee = s.liveDepositFee := sint64_eq (by omega) (by omega)
  -- the shares move from the caller to the contract
  have hmoved : Covers balance s (qpi.transferShareOwnershipAndPossession input.asset.assetName
      input.asset.issuer call.invocator call.invocator (sint64 input.amount) SELF
      (refundExcess qpi call s.liveDepositFee w)).2 s.liveDepositFee :=
    hcovers.of_balance_le (transferShares_le hlaw input.asset call.invocator _ SELF _)
  split
  next =>
    rw [hsint]
    exact hmoved.refund hlaw (Int.natCast_nonneg _) le_rfl 8
  split
  next =>
    rw [hsint]
    exact hmoved.refund hlaw (Int.natCast_nonneg _) le_rfl 8
  next =>
    have hearned : Covers balance (s.addRevenue s.liveDepositFee) _ 0 :=
      Covers.addRevenue (by rwa [add_zero])
    exact hearned.of_owed_le (owed_setAssetPart _ _ _).le

lemma releaseTo_covered (input : ReleaseToInput) (hfee : s.liveReleaseFee < 2 ^ 63) :
    (releaseTo qpi call input s w).Covered balance := by
  apply asOwner_cases
  · exact fun status _ => h.refundAll hlaw status
  intro i hpays howns
  have hearned := h.earned hlaw hfee hpays
  dsimp only
  split
  next => exact h.refundAll hlaw 5
  split
  next => exact h.refundAll hlaw 6
  next hbalance =>
  split
  next =>
    split
    next =>
      have hmax := h.covers.le_max hlaw
      have hle := balance_le_owed s howns.lt_max
      have hreward := h.reward_nonneg
      simp only [MAX_AMOUNT, ISSUANCE_RATE] at hmax
      rw [sint64_eq (by omega) (by omega)]
      have hpaid := hearned.withdraw howns.lt_max (((s.vaults input.vaultId).request i input.amount
        input.destination).withdraw input.amount).resetReleaseRequests
        (Nat.sub_add_cancel (not_lt.1 hbalance))
      exact hpaid.pay (transfer_le hlaw input.destination (Int.natCast_nonneg _) _)
    next => exact hearned
  next => exact hearned.withdraw howns.lt_max _ rfl

omit h in
lemma payAssets_covered (h : Covers balance s w 0) (input : ReleaseAssetToInput)
    (assetIndex : Nat) (part : VaultAssetPart) (hv : input.vaultId < MSVAULT_MAX_VAULTS)
    (hbalance : MSVAULT_REVOKE_FEE ≤ (s.vaults input.vaultId).qubicBalance) :
    (payAssets qpi input assetIndex part s w).Covered balance := by
  have hmoved := h.of_balance_le
    (transferShares_le hlaw input.asset SELF (sint64 input.amount) input.destination w)
  unfold payAssets
  dsimp only
  split
  next => exact hmoved.of_owed_le (owed_setAssetPart _ _ _).le
  have hreleased := releaseShares_le hlaw input.asset input.destination (sint64 input.amount)
    QX_CONTRACT_INDEX MSVAULT_REVOKE_FEE (qpi.transferShareOwnershipAndPossession
      input.asset.assetName input.asset.issuer SELF SELF (sint64 input.amount)
      input.destination w).2
  have hpart := hmoved.of_owed_le (owed_setAssetPart s input.vaultId
    (part.withdraw assetIndex input.amount).resetRequests).le
  split
  next hfail =>
    rw [if_pos hfail, add_zero] at hreleased
    exact hpart.of_balance_le hreleased
  next hsuccess =>
    rw [if_neg hsuccess] at hreleased
    have hpaid := hpart.withdraw hv ((s.vaults input.vaultId).withdraw MSVAULT_REVOKE_FEE)
      (Nat.sub_add_cancel hbalance)
    exact hpaid.pay hreleased

lemma releaseAssetTo_covered (input : ReleaseAssetToInput) (hfee : s.liveReleaseFee < 2 ^ 63) :
    (releaseAssetTo qpi call input s w).Covered balance := by
  apply asOwner_cases
  · exact fun status _ => h.refundAll hlaw status
  intro i hpays howns
  have hearned := h.earned hlaw hfee hpays
  have hfiled : ∀ part, Covers balance ((s.addRevenue s.liveReleaseFee).setAssetPart input.vaultId
      part) (refundExcess qpi call s.liveReleaseFee w) 0 :=
    fun part => hearned.of_owed_le (owed_setAssetPart _ _ _).le
  dsimp only
  split
  next => exact h.refundAll hlaw 6
  next hbalance =>
  split
  next => exact h.refundAll hlaw 5
  split
  next => exact h.refundAll hlaw 5
  split
  next => exact h.refundAll hlaw 6
  split
  next =>
    split
    next => exact payAssets_covered hlaw hearned input _ _ howns.lt_max (not_lt.1 hbalance)
    next => exact hfiled _
  next => exact hfiled _

lemma voteFeeChange_covered (fs : MsVaultFeeVote) :
    (voteFeeChange qpi call fs s w).Covered balance := by
  have hstate : owed (voteFeeChange qpi call fs s w).state = owed s :=
    owed_of_sameBooks (voteFeeChange_books fs s w)
  suffices hworld : Covers balance s (voteFeeChange qpi call fs s w).world 0 from
    hworld.of_owed_le hstate.le
  have hback : Covers balance s (qpi.transfer call.invocator call.invocationReward w).2 0 :=
    h.refundAll hlaw 2
  unfold voteFeeChange
  dsimp only
  split
  next => exact hback
  split
  next => exact h.covers.mono h.reward_nonneg
  split
  next => exact hback
  next => exact hback

/-- A procedure whose fee is not negative as `sint64` leaves the contract covered. -/
lemma Procedure.run_covered (p : Procedure) (hfee : p.fee s < 2 ^ 63) :
    (p.run qpi call s w).Covered balance := by
  cases p with
  | registerVault input => exact registerVault_covered hlaw h input hfee
  | deposit vaultId => exact deposit_covered hlaw h vaultId hfee
  | revokeAssetManagementRights input => exact revokeAssetManagementRights_covered hlaw h input
  | depositAsset input => exact depositAsset_covered hlaw h input hfee
  | releaseTo input => exact releaseTo_covered hlaw h input hfee
  | releaseAssetTo input => exact releaseAssetTo_covered hlaw h input hfee
  | resetRelease vaultId =>
    apply asOwner_cases
    · exact fun status _ => h.refundAll hlaw status
    · exact fun i hpays howns => (h.earned hlaw hfee hpays).withdraw howns.lt_max _ rfl
  | resetAssetRelease vaultId =>
    apply asOwner_cases
    · exact fun status _ => h.refundAll hlaw status
    · exact fun i hpays howns =>
        (h.earned hlaw hfee hpays).of_owed_le (owed_setAssetPart _ _ _).le
  | voteFeeChange fs => exact voteFeeChange_covered hlaw h fs

end

/-- The last transfer is the release, and the balance covers it. -/
def PaidInFull (qpi : Host W) (balance : W → Int) (call : Invocation) (input : ReleaseToInput)
    (s : State) (w : W) : Prop :=
  ∃ w', (releaseTo qpi call input s w).world = (qpi.transfer input.destination input.amount w').2 ∧
    (input.amount : Int) ≤ balance w'

lemma releaseTo_paidInFull (hlaw : qpi.toQpi.Lawful SELF_INDEX balance)
    (h : Entered balance call s w) (input : ReleaseToInput) (hfee : s.liveReleaseFee < 2 ^ 63)
    (hstatus : (releaseTo qpi call input s w).status = 1) :
    PaidInFull qpi balance call input s w := by
  revert hstatus
  apply asOwner_cases (P := fun r => r.status = 1 → ∃ w', r.world = (qpi.transfer input.destination
    input.amount w').2 ∧ (input.amount : Int) ≤ balance w')
  · intro status hstatus h1
    simp only [refund] at h1
    omega
  intro i hpays howns
  have hearned := h.covers.refundExcess hlaw hfee (le_of_paysFee hfee (paysFee_iff.2 hpays))
  have hmax := h.covers.le_max hlaw
  have hreward := h.reward_nonneg
  have hle := balance_le_owed s howns.lt_max
  simp only [MAX_AMOUNT, ISSUANCE_RATE] at hmax
  dsimp only
  split
  next => exact fun h => by cases h
  split
  next => exact fun h => by cases h
  next hbalance =>
  split
  next =>
    split
    next =>
      intro _
      refine ⟨refundExcess qpi call s.liveReleaseFee w, ?_, ?_⟩
      · rw [sint64_eq (by omega) (by omega)]
      · unfold Covers at hearned
        omega
    next => exact fun h => by cases h
  next => exact fun h => by cases h

/-! ## The end of an epoch -/

lemma owed_collectHoldingFee_le (s : State) {i : Nat} (hi : i < MSVAULT_MAX_VAULTS) :
    owed (collectHoldingFee s i) ≤ owed s := by
  unfold collectHoldingFee
  dsimp only
  split
  next =>
    split
    next hfee =>
      have hset := owed_setVault (s.addRevenue s.liveHoldingFee) hi
        ((s.vaults i).withdraw s.liveHoldingFee)
      have hearned := owed_addRevenue_le s s.liveHoldingFee
      have hvaults : (s.addRevenue s.liveHoldingFee).vaults = s.vaults := rfl
      simp only [hvaults, Vault.withdraw] at hset ⊢
      omega
    next =>
      have hset := owed_setVault (s.addRevenue (s.vaults i).qubicBalance) hi emptyVault
      have hearned := owed_addRevenue_le s (s.vaults i).qubicBalance
      have hvaults : (s.addRevenue (s.vaults i).qubicBalance).vaults = s.vaults := rfl
      have hempty : emptyVault.qubicBalance = 0 := rfl
      have hclosed : owed (closeVault s i) =
          owed ((s.addRevenue (s.vaults i).qubicBalance).setVault i emptyVault) := rfl
      rw [hvaults] at hset
      omega
  next => exact le_rfl

lemma owed_collectHoldingFees_le (s : State) : owed (collectHoldingFees s) ≤ owed s :=
  Cells.foldl_range (fun _ s' => owed s' ≤ owed s) le_rfl fun _ hi s' hle =>
    (owed_collectHoldingFee_le s' hi).trans hle

lemma undistributed_sub (s : State) {part : Int} (hpart : 0 ≤ part)
    (hle : part ≤ undistributed s) : (undistributed { s with totalDistributedToShareholders :=
      (uint64 (s.totalDistributedToShareholders + part)).toNat } : Int) + part =
      undistributed s := by
  unfold undistributed uint64 at *
  dsimp only
  omega

lemma distribute_covered (hlaw : qpi.toQpi.Lawful SELF_INDEX balance)
    (h : Covers balance s w 0) : Covers balance (distribute qpi (amountToDistribute s) s w).1
      (distribute qpi (amountToDistribute s) s w).2 0 := by
  have hmax := h.le_max hlaw
  have hund : undistributed s ≤ owed s := Nat.le_add_left _ _
  have hdiv := Nat.div_mul_le_self (undistributed s) NUMBER_OF_COMPUTORS
  have hless := Nat.div_le_self (undistributed s) NUMBER_OF_COMPUTORS
  unfold amountToDistribute
  generalize undistributed s / NUMBER_OF_COMPUTORS = amount at *
  have hamount : sint64 amount = amount := by
    simp only [MAX_AMOUNT, ISSUANCE_RATE] at hmax
    exact sint64_eq (by omega) (by omega)
  rw [hamount]
  have hpart : (amount : Int) * NUMBER_OF_COMPUTORS ≤ undistributed s := by exact_mod_cast hdiv
  have hloses := hlaw.distributeDividends amount w (Int.natCast_nonneg _) (by omega)
  unfold distribute
  dsimp only
  split
  next =>
    split
    next hpaid =>
      rw [if_pos hpaid] at hloses
      have hrest := undistributed_sub s (mul_nonneg (Int.natCast_nonneg amount) (by decide)) hpart
      have hleft : Covers balance { s with totalDistributedToShareholders :=
          (uint64 (s.totalDistributedToShareholders + amount * NUMBER_OF_COMPUTORS)).toNat } w
          (amount * NUMBER_OF_COMPUTORS) := by
        unfold Covers owed at *
        dsimp only
        omega
      exact hleft.pay hloses.balance_le
    next hpaid =>
      rw [if_neg hpaid] at hloses
      exact h.of_balance_le (by simpa using hloses.balance_le)
  next => exact h

/-! ## Runs -/

/-- One step of the contract on a node, where `allowed` restricts the calls. The reward of a call
has arrived before the procedure starts. -/
inductive Transition (qpi : Host W) (balance : W → Int) (allowed : State → Procedure → Prop) :
    State × W → State × W → Prop
  | other {s : State} {w w' : W} (hkept : balance w ≤ balance w') :
    Transition qpi balance allowed (s, w) (s, w')
  | call {s : State} {w w' : W} (c : Invocation) (p : Procedure) (hallowed : allowed s p)
    (hreward : 0 ≤ c.invocationReward) (hpaid : balance w + c.invocationReward ≤ balance w') :
    Transition qpi balance allowed (s, w) ((p.run qpi c s w').state, (p.run qpi c s w').world)
  | endEpoch {s : State} {w : W} : Transition qpi balance allowed (s, w) (endEpoch qpi s w)

/-- The fee that the procedure reads is not negative as `sint64`. -/
def FeeFits (s : State) (p : Procedure) : Prop := p.fee s < 2 ^ 63

lemma Covers.entered (h : Covers balance s w 0) (hreward : 0 ≤ call.invocationReward)
    (hpaid : balance w + call.invocationReward ≤ balance w') : Entered balance call s w' := by
  refine ⟨hreward, ?_⟩
  unfold Covers at *
  omega

lemma Transition.covered (hlaw : qpi.toQpi.Lawful SELF_INDEX balance) {c c' : State × W}
    (hstep : Transition qpi balance FeeFits c c') (h : Covers balance c.1 c.2 0) :
    Covers balance c'.1 c'.2 0 := by
  cases hstep with
  | other hkept => exact h.of_balance_le hkept
  | call c p hfee hreward hpaid => exact p.run_covered hlaw (h.entered hreward hpaid) hfee
  | endEpoch => exact distribute_covered hlaw (h.of_owed_le (owed_collectHoldingFees_le _))

lemma owed_eq_zero (hvaults : ∀ v, (s.vaults v).qubicBalance = 0)
    (hrevenue : undistributed s = 0) : owed s = 0 := by
  have hsum : ∑ v ∈ range MSVAULT_MAX_VAULTS, (s.vaults v).qubicBalance = 0 :=
    sum_eq_zero fun v _ => hvaults v
  rw [owed, hsum, hrevenue]

lemma owed_initialState : owed initialState = 0 := owed_eq_zero (fun _ => rfl) (by decide)

lemma covers_of_run (hlaw : qpi.toQpi.Lawful SELF_INDEX balance) {w₀ : W} {c : State × W}
    (hrun : ReflTransGen (Transition qpi balance FeeFits) (initialState, w₀) c) :
    Covers balance c.1 c.2 0 := by
  induction hrun with
  | refl =>
    have := hlaw.balance_nonneg w₀
    unfold Covers
    rw [owed_initialState]
    simpa using this
  | tail _ hstep ih => exact hstep.covered hlaw ih

/-- From the initial state, in every run in which each called procedure reads a fee below `2^63`:
the balance of the contract covers the vaults and the revenue that is not yet distributed, and a
release that is approved can be paid in full. -/
theorem solvent_of_fees (hlaw : qpi.toQpi.Lawful SELF_INDEX balance) {w₀ w : W} {s : State}
    (hrun : ReflTransGen (Transition qpi balance FeeFits) (initialState, w₀) (s, w)) :
    (owed s : Int) ≤ balance w ∧
      ∀ (call : Invocation) (input : ReleaseToInput) (w' : W), FeeFits s (.releaseTo input) →
        0 ≤ call.invocationReward → balance w + call.invocationReward ≤ balance w' →
        (releaseTo qpi call input s w').status = 1 → PaidInFull qpi balance call input s w' := by
  have hcovers : Covers balance s w 0 := covers_of_run (c := (s, w)) hlaw hrun
  refine ⟨?_, fun call input w' hfee hreward hpaid => ?_⟩
  · simpa [Covers] using hcovers
  · exact releaseTo_paidInFull hlaw (hcovers.entered hreward hpaid) input hfee

/-! ## Runs on a ledger -/

def emptyLedger : Ledger := .empty

lemma run_ledgerCall {allowed : State → Procedure → Prop} {c₀ : State × Ledger} {l : Ledger}
    (hrun : ReflTransGen (Transition ledgerHost Ledger.balance allowed) c₀ (s, l)) (l' : Ledger)
    (c : Invocation) (p : Procedure) (hallowed : allowed s p)
    (hpaid : 0 ≤ c.invocationReward ∧ l.balance + c.invocationReward ≤ l'.balance) :
    ReflTransGen (Transition ledgerHost Ledger.balance allowed) c₀
      ((p.run ledgerHost c s l').state, (p.run ledgerHost c s l').world) :=
  hrun.tail (.call c p hallowed hpaid.1 hpaid.2)

def paidLedger : Ledger := .ofBalance 5000000 (by decide)

lemma run_opened {allowed : State → Procedure → Prop}
    (hallowed : allowed initialState (.registerVault twoOwners)) :
    ReflTransGen (Transition ledgerHost Ledger.balance allowed)
      (initialState, emptyLedger) (opened, paidLedger) := by
  have hrun := run_ledgerCall (.refl : ReflTransGen _ _ (initialState, emptyLedger))
    paidLedger ⟨firstOwner, MSVAULT_REGISTERING_FEE⟩ _ hallowed (by decide)
  rwa [Procedure.run, registerVault_opened] at hrun

/-- A first vault is registered from the initial state, and the contract is solvent. -/
theorem solvent_of_fees_twoOwners : ∃ s w,
    ReflTransGen (Transition ledgerHost Ledger.balance FeeFits) (initialState, emptyLedger) (s, w) ∧
    (s.vaults 0).isActive ∧ (owed s : Int) ≤ w.balance := by
  have hrun := run_opened (by unfold FeeFits; decide : FeeFits initialState _)
  exact ⟨_, _, hrun, rfl, (solvent_of_fees (Ledger.qpi_lawful SELF_INDEX) hrun).1⟩

/-- After a vote for a deposit fee of `2^63`, a deposit of nothing adds `2^63` to a vault. -/
theorem deposit_uncovered : ∃ s w,
    ReflTransGen (Transition ledgerHost Ledger.balance fun _ _ => True)
      (initialState, emptyLedger) (s, w) ∧
    (s.vaults 0).qubicBalance = 2 ^ 63 ∧ w.balance < owed s := by
  have hopen : ReflTransGen (Transition _ _ fun _ _ => True) _ (opened, _) := run_opened trivial
  have hvote := run_ledgerCall hopen smallLedger
    ⟨firstOwner, MSVAULT_VOTE_FEE_CHANGE_FEE⟩ (.voteFeeChange hugeDepositFee) trivial (by decide)
  have hdeposit := run_ledgerCall hvote _ ⟨firstOwner, 0⟩ (.deposit 0) trivial
    ⟨le_rfl, (add_zero _).le⟩
  refine ⟨_, _, hdeposit, by decide +kernel, ?_⟩
  -- no balance reaches `2^63`
  refine (Ledger.balance_le _).trans_lt (lt_of_lt_of_le ?_
    (Int.ofNat_le.2 (balance_le_owed _ (by decide : 0 < MSVAULT_MAX_VAULTS))))
  decide +kernel

end QubicCore.Contracts.MsVault
