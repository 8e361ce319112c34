import QubicCore.Contracts.Qswap.Solvency

/-!
# Deposits and withdrawals of liquidity

Without records of the older kind, a record is found under the hashed key alone. A deposit or a
withdrawal then changes the record of the caller, the total of the pool and the reserves together.
-/

namespace QubicCore.Contracts.Qswap

open Library Library.ConstantProduct

variable {W : Type} {qpi : Qpi W} {balance : W → Int} {call : Invocation} {a : Asset} {s : State}
  {w : W}
  {burnLiquidity : Int}

attribute [local irreducible] findPoolSlotReadOnly

lemma resolveLiquidityRecord_eq (h : s.mLiquidities.Proper) (p account : M256i) :
    resolveLiquidityRecord qpi s w p account = (s, s.mLiquidities.head? (.k12 p account)) := by
  have hpov : ∀ key, s.mLiquidities.head? (.pov key) = none := fun key => by
    rw [Liquidities.head?, h.pov, List.head?_nil]
  unfold resolveLiquidityRecord findLiquidityRecord
  simp only [hpov, Option.isNone_none, if_true]
  cases hrecord : s.mLiquidities.head? (.k12 p account) with
  | none => simp
  | some info => simp [hrecord]

/-! ## Outcomes -/

/-- A deposit is refused, possibly after fewer shares came than were asked for. -/
def DepositRefused (qpi : Qpi W) (call : Invocation) (a : Asset) (s : State) (w : W)
    (result : AddLiquidityOutput × State × W) : Prop :=
  result = refuseDeposit qpi call s w ∨ ∃ amount, (depositShares qpi call a w amount).1 = false ∧
      result = refuseDeposit qpi call s (depositShares qpi call a w amount).2

structure Deposit (call : Invocation) (a : Asset) (s : State) (slot : Nat)
    (qu asset increase userIncrease : Int) (liquidities : Liquidities) : Prop where
  found : findPoolSlotReadOnly s a = some slot
  qu_nonneg : 0 ≤ qu
  qu_le : qu ≤ call.invocationReward - QSWAP_ADDITIONAL_FEE
  asset_nonneg : 0 ≤ asset
  kind :
    (s.mPoolBasicStates slot).totalLiquidity = 0 ∧ 0 < asset ∧ increase = sqrt qu asset ∧
        QSWAP_MIN_LIQUIDITY ≤ increase ∧ userIncrease = increase - QSWAP_MIN_LIQUIDITY ∧
        s.mLiquidities.population + 2 ≤ Liquidities.capacity ∧
        liquidities = (s.mLiquidities.add (.k12 (poolID a) SELF) ⟨QSWAP_MIN_LIQUIDITY, 0, 0⟩).add
          (.k12 (poolID a) call.invocator) ⟨increase - QSWAP_MIN_LIQUIDITY, 0, 0⟩ ∨
    (s.mPoolBasicStates slot).totalLiquidity ≠ 0 ∧
        increaseFor (s.mPoolBasicStates slot) qu asset = some increase ∧
        userIncrease = increase ∧
        ¬((s.mLiquidities.head? (.k12 (poolID a) call.invocator)).isNone ∧
          s.mLiquidities.population = Liquidities.capacity) ∧
        liquidities = s.mLiquidities.credit (.k12 (poolID a) call.invocator)
          (s.mLiquidities.head? (.k12 (poolID a) call.invocator)) increase
          (s.mPoolBasicStates slot).accFeePerLPX64

def Deposited (qpi : Qpi W) (call : Invocation) (a : Asset) (s : State) (w : W)
    (result : AddLiquidityOutput × State × W) : Prop :=
  ∃ slot qu asset increase userIncrease liquidities,
    Deposit call a s slot qu asset increase userIncrease liquidities ∧
    asset ≤ sharesOf qpi a w call.invocator ∧ (depositShares qpi call a w asset).1 ∧
    result = finishDeposit qpi call s (depositShares qpi call a w asset).2 slot qu asset
      increase userIncrease liquidities

lemma addLiquidity_cases (h : s.mLiquidities.Proper)
    (assetAmountDesired quAmountMin assetAmountMin : Int) :
    DepositRefused qpi call a s w
      (addLiquidity qpi call a s w assetAmountDesired quAmountMin assetAmountMin) ∨
    Deposited qpi call a s w
      (addLiquidity qpi call a s w assetAmountDesired quAmountMin assetAmountMin) := by
  rw [addLiquidity]
  split
  · exact .inl (.inl rfl)
  rename_i hreward
  split
  · exact .inl (.inl rfl)
  rename_i hinput
  split
  · exact .inl (.inl rfl)
  rename_i slot hslot
  split
  · exact .inl (.inl rfl)
  rename_i qu asset hamounts
  obtain ⟨hqu, hqu', hasset⟩ := depositAmounts_some (by omega) (by omega) hamounts
  split
  · exact .inl (.inl rfl)
  rename_i henough
  split
  · rename_i hzero
    have hdesired : asset = assetAmountDesired := by
      rw [depositAmounts, if_pos hzero] at hamounts
      exact (Prod.mk.inj (Option.some.inj hamounts)).2.symm
    rw [firstDeposit]
    dsimp only
    split
    · exact .inl (.inl rfl)
    split
    · exact .inl (.inl rfl)
    split
    · rename_i hminimum hroom hreceived
      exact .inr ⟨slot, qu, asset, _, _, _, ⟨hslot, hqu, hqu', hasset, .inl ⟨hzero,
        by omega, rfl, not_lt.1 hminimum, rfl, by omega, rfl⟩⟩, by omega, hreceived, rfl⟩
    · rename_i hreceived
      exact .inl (.inr ⟨asset, by simpa using hreceived, rfl⟩)
  · rename_i hliquidity
    rw [furtherDeposit, resolveLiquidityRecord_eq h]
    dsimp only
    split
    · exact .inl (.inl rfl)
    rename_i increase hincrease
    split
    · exact .inl (.inl rfl)
    split
    · rename_i hroom hreceived
      exact .inr ⟨slot, qu, asset, _, _, _, ⟨hslot, hqu, hqu', hasset, .inr ⟨hliquidity,
        hincrease, rfl, hroom, rfl⟩⟩, by omega, hreceived, rfl⟩
    · rename_i hreceived
      exact .inl (.inr ⟨asset, by simpa using hreceived, rfl⟩)

/-! ## The books after a deposit -/

structure Added (s : State) (slot : Nat) (a : Asset) (qu asset increase userIncrease : Int)
    (liquidities : Liquidities) : Prop where
  increase_pos : 0 < increase
  qu_eq : ((s.mPoolBasicStates slot).deposit qu asset increase).reservedQuAmount =
    (s.mPoolBasicStates slot).reservedQuAmount + qu
  asset_eq : ((s.mPoolBasicStates slot).deposit qu asset increase).reservedAssetAmount =
    (s.mPoolBasicStates slot).reservedAssetAmount + asset
  liquidity_eq : ((s.mPoolBasicStates slot).deposit qu asset increase).totalLiquidity =
    (s.mPoolBasicStates slot).totalLiquidity + increase
  sound : ((s.mPoolBasicStates slot).deposit qu asset increase).Sound
  proper : liquidities.Proper
  recorded_eq : ∀ p, liquidities.recorded p =
    s.mLiquidities.recorded p + if p = poolID a then increase else 0
  qu_worth : userIncrease * ((s.mPoolBasicStates slot).reservedQuAmount + qu) ≤
    qu * ((s.mPoolBasicStates slot).totalLiquidity + increase)
  asset_worth : userIncrease * ((s.mPoolBasicStates slot).reservedAssetAmount + asset) ≤
    asset * ((s.mPoolBasicStates slot).totalLiquidity + increase)

lemma le_of_root {t x y m : Int} (hm : 0 ≤ m) (hx : 0 ≤ x) (hxm : x ≤ m) (hym : y ≤ m)
    (hroot : t * t ≤ x * y) : t ≤ m := by
  by_contra hlt
  have hsq : m * m < t * t := by nlinarith
  have hxy : x * y ≤ m * m := by nlinarith
  omega

lemma PoolBasicState.Funded.total_le {pool : PoolBasicState} (h : pool.Funded)
    (hsound : pool.Sound) : pool.totalLiquidity ≤ MAX_AMOUNT :=
  le_of_root (by decide) h.qu_pos.le h.qu_le h.asset_le hsound.root_le

lemma Liquidities.Proper.credit {l : Liquidities} (h : l.Proper) {p account : M256i}
    {increase : Int} (hpos : 0 < increase)
    (hroom : ¬((l.head? (.k12 p account)).isNone ∧ l.population = capacity))
    (hlt : ∀ info, l.head? (.k12 p account) = some info → info.liquidity + increase < 2 ^ 63)
    (accFeePerLPX64 : Nat) :
    (l.credit (.k12 p account) (l.head? (.k12 p account)) increase accFeePerLPX64).Proper ∧
      Moved l (l.credit (.k12 p account) (l.head? (.k12 p account)) increase accFeePerLPX64) p
        account increase := by
  cases hrecord : l.head? (.k12 p account) with
  | none =>
    have hless : l.population < capacity := by
      refine lt_of_le_of_ne h.population_le fun hfull => hroom ⟨?_, hfull⟩
      rw [hrecord]
      rfl
    exact ⟨h.add hpos.le, moved_add _ hless⟩
  | some info =>
    have hnonneg := (h.head_le hrecord).1
    have hsum : sint64 (info.liquidity + increase) = info.liquidity + increase :=
      sint64_eq (by omega) (by have := hlt info hrecord; omega)
    have hmoved := moved_replace { info.settle accFeePerLPX64 with
      liquidity := info.liquidity + increase } hrecord
    rw [add_sub_cancel_left] at hmoved
    simp only [Liquidities.credit, hsum]
    exact ⟨h.replace (add_nonneg hnonneg hpos.le), hmoved⟩

lemma Called.deposit_amounts (hlaw : qpi.Lawful SELF_INDEX balance)
    (h : Called qpi balance call a s w) {slot : Nat}
    (hslot : findPoolSlotReadOnly s a = some slot) {qu asset increase : Int} (hqu : 0 ≤ qu)
    (hqu' : qu ≤ call.invocationReward) (hasset : 0 ≤ asset)
    (hasset' : asset ≤ sharesOf qpi a w call.invocator) (hincrease : 0 < increase)
    (hroot : ((s.mPoolBasicStates slot).totalLiquidity + increase) *
      ((s.mPoolBasicStates slot).totalLiquidity + increase) ≤
      ((s.mPoolBasicStates slot).reservedQuAmount + qu) *
        ((s.mPoolBasicStates slot).reservedAssetAmount + asset)) :
    ((s.mPoolBasicStates slot).totalLiquidity + increase ≤ 2 * MAX_AMOUNT) ∧
    (s.mPoolBasicStates slot).deposit qu asset increase = { s.mPoolBasicStates slot with
      reservedQuAmount := (s.mPoolBasicStates slot).reservedQuAmount + qu
      reservedAssetAmount := (s.mPoolBasicStates slot).reservedAssetAmount + asset
      totalLiquidity := (s.mPoolBasicStates slot).totalLiquidity + increase } ∧
    ((s.mPoolBasicStates slot).deposit qu asset increase).Sound := by
  obtain ⟨hlt, hid⟩ := findPoolSlotReadOnly_some hslot
  obtain ⟨hQ, hA, ht, -, -⟩ := h.books.sound slot hlt
  have hQ' := h.books.reserve_le_owed hlt
  have hbalance := h.covered.owed_le
  have hmax := hlaw.balance_le w
  have hA' := h.asset_le hlaw hlt
  have hasset'' := hasset'.trans (hlaw.shares_le a call.invocator w)
  have hm : (0 : Int) ≤ MAX_AMOUNT := by decide
  have htotal := le_of_root (m := 2 * MAX_AMOUNT) (by omega) (by omega) (by omega) (by omega) hroot
  refine ⟨htotal, ?_⟩
  rw [PoolBasicState.deposit]
  simp only [MAX_AMOUNT, ISSUANCE_RATE] at *
  rw [sint64_eq (by omega) (by omega), sint64_eq (by omega) (by omega),
    sint64_eq (by omega) (by omega)]
  refine ⟨rfl, add_nonneg hQ hqu, add_nonneg hA hasset, add_nonneg ht hincrease.le, hroot, ?_⟩
  dsimp only
  omega

section

variable (hlaw : qpi.Lawful SELF_INDEX balance)
  (h : Called qpi balance call a s w) {slot : Nat}
  {qu asset increase userIncrease : Int} {liquidities : Liquidities}

include hlaw h

lemma Deposit.added
    (hdeposit : Deposit call a s slot qu asset increase userIncrease liquidities)
    (hasset' : asset ≤ sharesOf qpi a w call.invocator) :
    Added s slot a qu asset increase userIncrease liquidities := by
  obtain ⟨hslot, hqu, hqu', hasset, hkind⟩ := hdeposit
  obtain ⟨hlt, hid⟩ := findPoolSlotReadOnly_some hslot
  obtain ⟨hQ, hA, ht, hroot, hempty⟩ := h.books.sound slot hlt
  have hfee : (0 : Int) ≤ QSWAP_ADDITIONAL_FEE := by decide
  have hreward := h.reward_le hlaw
  have hassetMax := hasset'.trans (hlaw.shares_le a call.invocator w)
  have hproper := h.books.proper
  obtain ⟨hzero, hpos, rfl, hmin, rfl, hroom, rfl⟩ | ⟨hliquidity, hincrease, hsame, hroom, rfl⟩ :=
    hkind
  · -- the first deposit
    simp only [QSWAP_MIN_LIQUIDITY] at hmin
    have hsqrt : sqrt qu asset * sqrt qu asset ≤ qu * asset := by
      simp only [MAX_AMOUNT, ISSUANCE_RATE] at hreward hassetMax
      exact (sqrt_spec hqu (by omega) hasset (by omega)).1
    obtain ⟨hQ₀, hA₀⟩ := hempty hzero
    have hworth : ∀ x : Int, 0 ≤ x → (sqrt qu asset - QSWAP_MIN_LIQUIDITY) * (0 + x) ≤
        x * (0 + sqrt qu asset) := fun x hx => by
      rw [zero_add, zero_add, mul_comm]
      exact mul_le_mul_of_nonneg_left (by simp only [QSWAP_MIN_LIQUIDITY]; omega) hx
    obtain ⟨-, heq, hsound⟩ := h.deposit_amounts hlaw hslot hqu (by omega) hasset hasset'
      (show 0 < sqrt qu asset by omega) (by
        rw [hzero, zero_add]
        exact hsqrt.trans (mul_le_mul (by omega) (by omega) hasset (by omega)))
    refine ⟨by omega, by rw [heq], by rw [heq], by rw [heq], hsound, ?_, fun p => ?_,
      by rw [hQ₀, hzero]; exact hworth qu hqu, by rw [hA₀, hzero]; exact hworth asset hasset⟩
    · exact (hproper.add (by decide)).add (by simp only [QSWAP_MIN_LIQUIDITY]; omega)
    · have hpopulation : (s.mLiquidities.add (.k12 (poolID a) SELF)
          ⟨QSWAP_MIN_LIQUIDITY, 0, 0⟩).population < Liquidities.capacity := by
        rw [Liquidities.add, if_pos (by omega)]
        exact hroom
      rw [(Liquidities.moved_add _ hpopulation).recorded_eq, (Liquidities.moved_add _
        (by omega)).recorded_eq]
      dsimp only
      split_ifs <;> omega
  · have hfunded := h.funded hlaw hslot hliquidity
    have htotal := hfunded.total_le (h.books.sound slot hlt)
    have hbounds : ∀ x : Int, x ≤ MAX_AMOUNT → x < 2 ^ 63 := fun x hx => by
      simp only [MAX_AMOUNT, ISSUANCE_RATE] at hx
      omega
    obtain ⟨hincreasePos, hquLe, hassetLe⟩ := increaseFor_some hqu (hbounds qu (by omega)) hasset
      (hbounds asset hassetMax) ht (hbounds _ htotal) hfunded.qu_pos (hbounds _ hfunded.qu_le)
      hfunded.asset_pos (hbounds _ hfunded.asset_le) hincrease
    have hroot' := root_le_of_deposit hfunded.qu_pos hfunded.asset_pos ht hincreasePos.le hqu hasset
      hroot hquLe hassetLe
    obtain ⟨hnew, heq, hsound⟩ :=
      h.deposit_amounts hlaw hslot hqu (by omega) hasset hasset' hincreasePos hroot'
    have hall := h.books.recorded slot hlt
    rw [hid] at hall
    simp only [MAX_AMOUNT, ISSUANCE_RATE] at hnew
    obtain ⟨hproper', hmoved⟩ := hproper.credit hincreasePos hroom
      (fun info hrecord => by have := (hproper.head_le hrecord).2; omega)
      (s.mPoolBasicStates slot).accFeePerLPX64
    exact ⟨hincreasePos, by rw [heq], by rw [heq], by rw [heq], hsound, hproper',
      hmoved.recorded_eq, by rw [hsame]; linarith, by rw [hsame]; linarith⟩

lemma DepositRefused.safe {result : AddLiquidityOutput × State × W}
    (hrefused : DepositRefused qpi call a s w result) :
    Safe qpi balance result.2.1 result.2.2 := by
  obtain rfl | ⟨amount, hfailed, rfl⟩ := hrefused
  · exact h.unchanged (transfer_pays hlaw w _ h.reward_nonneg) le_rfl le_rfl
  · have hcame := depositShares_pays hlaw (a := a) w h.caller amount
    rw [hfailed] at hcame
    exact h.unchanged (hcame.trans (transfer_pays hlaw _ _ h.reward_nonneg)) (by omega) le_rfl

/-- Deposits go to pools only: there are no shares of an asset without a name. -/
lemma Deposit.poolID_ne_zero
    (hdeposit : Deposit call a s slot qu asset increase userIncrease liquidities)
    (hasset' : asset ≤ sharesOf qpi a w call.invocator) : poolID a ≠ 0 := by
  intro hzero
  obtain ⟨hlt, hid⟩ := findPoolSlotReadOnly_some hdeposit.found
  obtain ⟨-, hpos, -⟩ | ⟨hliquidity, -⟩ := hdeposit.kind
  · have hname : a.assetName = 0 := by
      have hnat := congrArg (fun k : M256i => k.bits.toNat) hzero
      simp only [poolID, Asset.issuerAndAssetName, BitVec.toNat_append] at hnat
      have hhigh := (Nat.or_eq_zero_iff.1 hnat).1
      rw [Nat.shiftLeft_eq, BitVec.toNat_ofNat, Nat.mod_eq_of_lt h.name_lt] at hhigh
      simpa using hhigh
    have hnone : sharesOf qpi a w call.invocator = 0 := by
      have := hlaw.shares_unnamed a.issuer call.invocator w
      rwa [← hname] at this
    omega
  · exact hliquidity (h.books.vacant slot hlt (hid.trans hzero))

lemma Deposited.safe (hissues : qpi.Issues SELF_INDEX)
    {result : AddLiquidityOutput × State × W} (hdeposited : Deposited qpi call a s w result) :
    Safe qpi balance result.2.1 result.2.2 := by
  obtain ⟨slot, qu, asset, increase, userIncrease, liquidities, hdeposit, hasset', hcame,
    rfl⟩ := hdeposited
  obtain ⟨hlt, hid⟩ := findPoolSlotReadOnly_some hdeposit.found
  have hadded := hdeposit.added hlaw h hasset'
  have hused := hdeposit.poolID_ne_zero hlaw h hasset'
  have hsame : ((s.mPoolBasicStates slot).deposit qu asset increase).poolID =
      (s.mPoolBasicStates slot).poolID := rfl
  have hbooks : Books (finishDeposit qpi call s (depositShares qpi call a w asset).2 slot qu
      asset increase userIncrease liquidities).2.1 := by
    refine h.books.update hlt hsame (hsame ▸ hid ▸ hused) hadded.sound rfl
      ((h.books.counted.earnAdditionalFee.withLiquidities liquidities).setPool _ _) hadded.proper
      rfl fun p => ?_
    rw [hadded.liquidity_eq, add_sub_cancel_left]
    exact hadded.recorded_eq p |>.trans (by rw [← hid]; rfl)
  have hshares := depositShares_pays hlaw (a := a) w h.caller asset
  rw [if_pos hcame] at hshares
  have hle := hdeposit.qu_le
  have hpays : Pays qpi balance a w (finishDeposit qpi call s
      (depositShares qpi call a w asset).2 slot qu asset increase userIncrease liquidities).2.2
      (call.invocationReward - qu - QSWAP_ADDITIONAL_FEE) (-asset) := by
    simp only [finishDeposit]
    split_ifs with hexcess
    · exact (hshares.trans (transfer_pays hlaw _ _ (by omega))).mono (by omega) (by omega)
    · exact hshares.mono (by omega) le_rfl
  have hfees := s.earnAdditionalFee_undistributed_le
  refine h.pool hlaw hissues hbooks hlt hid (hsame.trans hid) rfl hpays ?_ ?_
  · rw [hadded.qu_eq]
    change _ + s.earnAdditionalFee.undistributed + _ ≤ _
    omega
  · rw [hadded.asset_eq]
    omega

end

/-! ## Withdrawals -/

def WithdrawalRefused (qpi : Qpi W) (call : Invocation) (s : State) (w : W)
    (result : RemoveLiquidityOutput × State × W) : Prop :=
  result = (⟨0, 0⟩, s, (qpi.transfer call.invocator call.invocationReward w).2) ∨
    QSWAP_ADDITIONAL_FEE ≤ call.invocationReward ∧
      result = refuseWithdrawal qpi call s (returnExcess qpi call w)

structure Withdrawal (call : Invocation) (a : Asset) (s : State) (slot : Nat)
    (info : LiquidityInfo) (burnLiquidity : Int) : Prop where
  reward_le : QSWAP_ADDITIONAL_FEE ≤ call.invocationReward
  found : findPoolSlotReadOnly s a = some slot
  record : s.mLiquidities.head? (.k12 (poolID a) call.invocator) = some info
  burn_pos : 0 < burnLiquidity
  burn_le : burnLiquidity ≤ info.liquidity
  burn_le_total : burnLiquidity ≤ (s.mPoolBasicStates slot).totalLiquidity

def Withdrawn (qpi : Qpi W) (call : Invocation) (a : Asset) (s : State) (w : W)
    (burnLiquidity : Int) (result : RemoveLiquidityOutput × State × W) : Prop :=
  ∃ slot info, Withdrawal call a s slot info burnLiquidity ∧
    result = withdraw qpi call a s (returnExcess qpi call w) slot info burnLiquidity
      (redeemed burnLiquidity (s.mPoolBasicStates slot).reservedQuAmount
        (s.mPoolBasicStates slot).totalLiquidity)
      (redeemed burnLiquidity (s.mPoolBasicStates slot).reservedAssetAmount
        (s.mPoolBasicStates slot).totalLiquidity)

lemma removeLiquidity_cases (h : s.mLiquidities.Proper)
    (burnLiquidity quAmountMin assetAmountMin : Int) :
    WithdrawalRefused qpi call s w
      (removeLiquidity qpi call a s w burnLiquidity quAmountMin assetAmountMin) ∨
    Withdrawn qpi call a s w burnLiquidity
      (removeLiquidity qpi call a s w burnLiquidity quAmountMin assetAmountMin) := by
  rw [removeLiquidity]
  split
  · exact .inl (.inl rfl)
  rename_i hreward
  rw [not_lt] at hreward
  dsimp only
  split
  · exact .inl (.inr ⟨hreward, rfl⟩)
  rename_i hinput
  split
  · exact .inl (.inr ⟨hreward, rfl⟩)
  split
  · exact .inl (.inr ⟨hreward, rfl⟩)
  rename_i slot hslot
  rw [resolveLiquidityRecord_eq h]
  cases hrecord : s.mLiquidities.head? (.k12 (poolID a) call.invocator) with
  | none => exact .inl (.inr ⟨hreward, rfl⟩)
  | some info =>
    dsimp only
    split
    · exact .inl (.inr ⟨hreward, rfl⟩)
    rename_i hburn
    split
    · exact .inl (.inr ⟨hreward, rfl⟩)
    · exact .inr ⟨slot, info, ⟨hreward, hslot, hrecord, by omega, by omega, by omega⟩, rfl⟩

structure Redeemed (pool : PoolBasicState) (burnLiquidity qu asset : Int) : Prop where
  qu_nonneg : 0 ≤ qu
  asset_nonneg : 0 ≤ asset
  withdraw_eq : pool.withdraw qu asset burnLiquidity = { pool with
    totalLiquidity := pool.totalLiquidity - burnLiquidity
    reservedQuAmount := pool.reservedQuAmount - qu
    reservedAssetAmount := pool.reservedAssetAmount - asset }
  sound : (pool.withdraw qu asset burnLiquidity).Sound

lemma PoolBasicState.Funded.redeemed {pool : PoolBasicState} (h : pool.Funded)
    (hsound : pool.Sound) (hpos : 0 < burnLiquidity)
    (hle : burnLiquidity ≤ pool.totalLiquidity) :
    Redeemed pool burnLiquidity
      (redeemed burnLiquidity pool.reservedQuAmount pool.totalLiquidity)
      (redeemed burnLiquidity pool.reservedAssetAmount pool.totalLiquidity) := by
  have htotal := h.total_le hsound
  obtain ⟨hQ, hA, -, hroot, -⟩ := hsound
  obtain ⟨-, hQ', -, hA'⟩ := h
  simp only [MAX_AMOUNT, ISSUANCE_RATE] at hQ' hA' htotal
  have htpos : 0 < pool.totalLiquidity := by omega
  rw [redeemed_eq hpos.le hle htpos (by omega) hQ (by omega),
    redeemed_eq hpos.le hle htpos (by omega) hA (by omega)]
  obtain ⟨hqu, hqu'⟩ := redeem_mem hQ htpos hpos.le hle
  obtain ⟨hasset, hasset'⟩ := redeem_mem hA htpos hpos.le hle
  have hroot' := root_le_of_redeem hQ hA htpos hle hroot
    (Int.ediv_mul_le (burnLiquidity * pool.reservedQuAmount) htpos.ne')
    (Int.ediv_mul_le (burnLiquidity * pool.reservedAssetAmount) htpos.ne')
  have hempty : pool.totalLiquidity - burnLiquidity = 0 →
      pool.reservedQuAmount - burnLiquidity * pool.reservedQuAmount / pool.totalLiquidity = 0 ∧
      pool.reservedAssetAmount - burnLiquidity * pool.reservedAssetAmount / pool.totalLiquidity =
        0 := by
    intro hzero
    obtain rfl : burnLiquidity = pool.totalLiquidity := by omega
    rw [Int.mul_ediv_cancel_left _ htpos.ne', Int.mul_ediv_cancel_left _ htpos.ne', sub_self,
      sub_self]
    exact ⟨rfl, rfl⟩
  generalize burnLiquidity * pool.reservedQuAmount / pool.totalLiquidity = qu at *
  generalize burnLiquidity * pool.reservedAssetAmount / pool.totalLiquidity = asset at *
  have heq : pool.withdraw qu asset burnLiquidity = { pool with
      totalLiquidity := pool.totalLiquidity - burnLiquidity
      reservedQuAmount := pool.reservedQuAmount - qu
      reservedAssetAmount := pool.reservedAssetAmount - asset } := by
    rw [PoolBasicState.withdraw, sint64_eq (by omega) (by omega), sint64_eq (by omega) (by omega),
      sint64_eq (by omega) (by omega)]
  refine ⟨hqu, hasset, heq, ?_⟩
  rw [heq]
  exact ⟨sub_nonneg.2 hqu', sub_nonneg.2 hasset', sub_nonneg.2 hle, hroot', hempty⟩

lemma Liquidities.Proper.debit {l : Liquidities} (h : l.Proper) {p account : M256i}
    {info : LiquidityInfo} (hrecord : l.head? (.k12 p account) = some info)
    (hpos : 0 < burnLiquidity) (hle : burnLiquidity ≤ info.liquidity)
    (hlt : info.liquidity < 2 ^ 63) (accFeePerLPX64 : Nat) :
    (l.debit (.k12 p account) info burnLiquidity accFeePerLPX64).Proper ∧
      Moved l (l.debit (.k12 p account) info burnLiquidity accFeePerLPX64) p account
        (-burnLiquidity) := by
  have hrest : sint64 (info.liquidity - burnLiquidity) = info.liquidity - burnLiquidity :=
    sint64_eq (by omega) (by omega)
  simp only [Liquidities.debit, hrest]
  split_ifs with hzero
  · refine ⟨h.remove, ?_⟩
    obtain rfl : info.liquidity = burnLiquidity := by omega
    exact moved_remove hrecord
  · refine ⟨h.replace (sub_nonneg.2 hle), ?_⟩
    have hmoved := moved_replace { info.settle accFeePerLPX64 with
      liquidity := info.liquidity - burnLiquidity } hrecord
    rwa [show info.liquidity - burnLiquidity - info.liquidity = -burnLiquidity by omega] at hmoved

section

variable (hlaw : qpi.Lawful SELF_INDEX balance)
  (h : Called qpi balance call a s w)

include hlaw h

lemma WithdrawalRefused.safe {result : RemoveLiquidityOutput × State × W}
    (hrefused : WithdrawalRefused qpi call s w result) :
    Safe qpi balance result.2.1 result.2.2 := by
  obtain rfl | ⟨hreward, rfl⟩ := hrefused
  · exact h.unchanged (transfer_pays hlaw w _ h.reward_nonneg) le_rfl le_rfl
  · exact h.unchanged ((returnExcess_pays hlaw call w hreward).trans
      (transfer_pays hlaw _ _ (by decide))) (by omega) le_rfl

lemma Withdrawn.safe (hissues : qpi.Issues SELF_INDEX)
    {result : RemoveLiquidityOutput × State × W}
    (hwithdrawn : Withdrawn qpi call a s w burnLiquidity result) :
    Safe qpi balance result.2.1 result.2.2 := by
  obtain ⟨slot, info, ⟨hreward, hslot, hrecord, hpos, hle, hle'⟩, rfl⟩ := hwithdrawn
  obtain ⟨hlt, hid⟩ := findPoolSlotReadOnly_some hslot
  have hsound := h.books.sound slot hlt
  have hliquidity : (s.mPoolBasicStates slot).totalLiquidity ≠ 0 := by omega
  have hfunded := h.funded hlaw hslot hliquidity
  have htotal := hfunded.total_le hsound
  obtain ⟨hqu, hasset, heq, hsound'⟩ := hfunded.redeemed hsound hpos hle'
  obtain ⟨-, hinfo⟩ := h.books.proper.head_le hrecord
  have hall := h.books.recorded slot hlt
  rw [hid] at hall
  simp only [MAX_AMOUNT, ISSUANCE_RATE] at htotal
  obtain ⟨hproper, hmoved⟩ := h.books.proper.debit hrecord hpos hle (by omega)
    (s.mPoolBasicStates slot).accFeePerLPX64
  generalize redeemed burnLiquidity (s.mPoolBasicStates slot).reservedQuAmount
    (s.mPoolBasicStates slot).totalLiquidity = qu at *
  generalize redeemed burnLiquidity (s.mPoolBasicStates slot).reservedAssetAmount
    (s.mPoolBasicStates slot).totalLiquidity = asset at *
  have hsame : ((s.mPoolBasicStates slot).withdraw qu asset burnLiquidity).poolID =
      (s.mPoolBasicStates slot).poolID := rfl
  have hbooks : Books (withdraw qpi call a s (returnExcess qpi call w) slot info burnLiquidity
      qu asset).2.1 := by
    refine h.books.update hlt hsame ?_ hsound' rfl
      ((h.books.counted.earnAdditionalFee.withLiquidities _).setPool _ _) hproper rfl fun p => ?_
    · exact fun hzero => hliquidity (h.books.vacant slot hlt (hsame ▸ hzero))
    · rw [heq, sub_sub_cancel_left]
      exact (hmoved.recorded_eq p).trans (by rw [← hid])
  have hpays := ((returnExcess_pays hlaw (a := a) call w hreward).trans
    (transfer_pays hlaw _ call.invocator hqu)).trans (sendShares_pays hlaw call _ hasset)
  have hfees := s.earnAdditionalFee_undistributed_le
  refine h.pool hlaw hissues hbooks hlt hid (hsame.trans hid) rfl hpays ?_ ?_
  · rw [heq]
    change _ + s.earnAdditionalFee.undistributed + _ ≤ _
    dsimp only
    omega
  · rw [heq]
    dsimp only
    omega

end

end QubicCore.Contracts.Qswap
