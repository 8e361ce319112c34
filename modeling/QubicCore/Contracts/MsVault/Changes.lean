import QubicCore.Contracts.MsVault.Basic

/-!
# What the procedures of MSVAULT do to the vaults

`Changes` lists the ways in which a call changes the vaults, each with the status that the call
returns and with what the call checked. Everything about balances and requests is read off it.
-/

namespace QubicCore.Contracts.MsVault

open Function List

variable {W : Type} {qpi : Host W} {call : Invocation} {vaultId fee i : Nat} {s : State}

/-! ## Owners -/

lemma isValidVaultId_iff :
    isValidVaultId vaultId ↔ vaultId < MSVAULT_MAX_VAULTS := decide_eq_true_iff

lemma paysFee_iff : paysFee call fee ↔ sint64 fee ≤ call.invocationReward := decide_eq_true_iff

structure Owns (caller : M256i) (s : State) (vaultId ownerIndex : Nat) : Prop where
  lt_max : vaultId < MSVAULT_MAX_VAULTS
  isActive : (s.vaults vaultId).isActive
  lt_numberOfOwners : ownerIndex < (s.vaults vaultId).numberOfOwners
  owner_eq : (s.vaults vaultId).owners ownerIndex = caller

lemma findOwnerIndexInVault_some {vault : Vault} {ownerID : M256i}
    (h : vault.findOwnerIndexInVault ownerID = some i) :
    i < vault.numberOfOwners ∧ vault.owners i = ownerID := by
  have hmem := mem_of_find?_eq_some h
  have howner := List.find?_some h
  exact ⟨mem_range.1 hmem, of_decide_eq_true howner⟩

lemma authorize_ok (h : authorize call s fee vaultId = .ok i) :
    sint64 fee ≤ call.invocationReward ∧ Owns call.invocator s vaultId i := by
  unfold authorize at h
  split at h
  · cases h
  split at h
  · cases h
  split at h
  · cases h
  split at h
  · cases h
  next hfee hmax hactive _ j hj =>
    cases h
    obtain ⟨hlt, howner⟩ := findOwnerIndexInVault_some hj
    exact ⟨paysFee_iff.1 (by simpa using hfee), isValidVaultId_iff.1 (by simpa using hmax),
      by simpa using hactive, hlt, howner⟩

lemma authorize_error {status : Nat} (h : authorize call s fee vaultId = .error status) :
    status = 2 ∨ status = 3 ∨ status = 4 := by
  unfold authorize at h
  repeat' split at h
  all_goals cases h <;> simp

lemma byCheck_cases {P : Result W → Prop} {refuse run : Nat → Result W} {r : Except Nat Nat}
    (hrefuse : ∀ status, r = .error status → P (refuse status))
    (hrun : ∀ i, r = .ok i → P (run i)) : P (byCheck refuse run r) := by
  cases r with
  | error status => exact hrefuse status rfl
  | ok i => exact hrun i rfl

/-- A procedure of an owner pays the reward back, or runs for an owner who sent the fee. -/
lemma asOwner_cases {P : Result W → Prop} {run : Nat → Result W} {w : W}
    (hrefuse : ∀ status, status = 2 ∨ status = 3 ∨ status = 4 →
      P (refund qpi call status call.invocationReward s w))
    (hrun : ∀ i, sint64 fee ≤ call.invocationReward → Owns call.invocator s vaultId i → P (run i)) :
    P (asOwner qpi call fee vaultId run s w) := by
  apply byCheck_cases
  · exact fun status h => hrefuse status (authorize_error h)
  · intro i h
    obtain ⟨hfee, howns⟩ := authorize_ok h
    exact hrun i hfee howns

lemma emptySlot_ok (h : emptySlot s = .ok i) :
    i < MSVAULT_MAX_VAULTS ∧ (s.vaults i).isActive = false ∧ (s.vaults i).qubicBalance = 0 := by
  unfold emptySlot at h
  cases hfind : (List.range MSVAULT_MAX_VAULTS).find? fun i => !(s.vaults i).isActive &&
      (s.vaults i).numberOfOwners = 0 && (s.vaults i).qubicBalance = 0 with
  | none =>
    rw [hfind] at h
    cases h
  | some j =>
    rw [hfind] at h
    cases h
    have hmem := mem_of_find?_eq_some hfind
    have hempty := List.find?_some hfind
    simp only [Bool.and_eq_true, Bool.not_eq_true', decide_eq_true_eq] at hempty
    exact ⟨mem_range.1 hmem, hempty.1.1, hempty.2⟩

/-! ## Changes -/

/-- The checks that `deposit` makes before the call changes anything. -/
structure Depositable (call : Invocation) (s : State) (v : Nat) : Prop where
  fee : paysFee call s.liveDepositFee
  amount : amountToDeposit call s ≠ 0
  valid : isValidVaultId v
  isActive : (s.vaults v).isActive

inductive Changes (call : Invocation) (s : State) : Procedure → Nat → (Nat → Vault) → Prop
  | none {p : Procedure} {status : Nat}
      (hrelease : ∀ input, p = .releaseTo input → status ≠ 1 ∧ status ≠ 9)
      (hreset : ∀ vaultId, p = .resetRelease vaultId → status ≠ 1)
      (hdeposit : ∀ vaultId, p = .deposit vaultId → ¬Depositable call s vaultId) :
      Changes call s p status s.vaults
  | registered (input : RegisterVaultInput) (v : Nat) (hactive : (s.vaults v).isActive = false)
      (hbalance : (s.vaults v).qubicBalance = 0) :
      Changes call s (.registerVault input) 1 (update s.vaults v (newVault input))
  | deposited (v : Nat) (h : Depositable call s v) :
      Changes call s (.deposit v) 1 (update s.vaults v { s.vaults v with
        qubicBalance := addAmount (s.vaults v).qubicBalance (amountToDeposit call s) })
  | requested (input : ReleaseToInput) (i : Nat) (howns : Owns call.invocator s input.vaultId i) :
      Changes call s (.releaseTo input) 9 (update s.vaults input.vaultId
        ((s.vaults input.vaultId).request i input.amount input.destination))
  | released (input : ReleaseToInput) (i : Nat) (howns : Owns call.invocator s input.vaultId i)
      (hamount : input.amount ≠ 0)
      (hbalance : input.amount ≤ (s.vaults input.vaultId).qubicBalance)
      (happroved : (s.vaults input.vaultId).requiredApprovals ≤
        ((s.vaults input.vaultId).request i input.amount input.destination).approvals
          input.amount input.destination) :
      Changes call s (.releaseTo input) 1 (update s.vaults input.vaultId
        (((s.vaults input.vaultId).request i input.amount input.destination).withdraw
          input.amount).resetReleaseRequests)
  | feePaid (input : ReleaseAssetToInput)
      (hbalance : MSVAULT_REVOKE_FEE ≤ (s.vaults input.vaultId).qubicBalance) :
      Changes call s (.releaseAssetTo input) 1 (update s.vaults input.vaultId
        ((s.vaults input.vaultId).withdraw MSVAULT_REVOKE_FEE))
  | reset (v i : Nat) (howns : Owns call.invocator s v i) :
      Changes call s (.resetRelease v) 1
        (update s.vaults v ((s.vaults v).request i 0 NULL_ID))

/-! ## Votes -/

structure SameBooks (s s' : State) : Prop where
  vaults_eq : s'.vaults = s.vaults
  vaultAssetParts_eq : s'.vaultAssetParts = s.vaultAssetParts
  totalRevenue_eq : s'.totalRevenue = s.totalRevenue
  distributed_eq : s'.totalDistributedToShareholders = s.totalDistributedToShareholders

lemma SameBooks.trans {s' s'' : State} (h : SameBooks s s') (h' : SameBooks s' s'') :
    SameBooks s s'' :=
  ⟨h'.vaults_eq.trans h.vaults_eq, h'.vaultAssetParts_eq.trans h.vaultAssetParts_eq,
    h'.totalRevenue_eq.trans h.totalRevenue_eq, h'.distributed_eq.trans h.distributed_eq⟩

lemma SameBooks.foldl {f : State → Nat → State} (hf : ∀ s i, SameBooks s (f s i)) (l : List Nat)
    (s : State) : SameBooks s (l.foldl f s) := by
  induction l generalizing s with
  | nil => exact ⟨rfl, rfl, rfl, rfl⟩
  | cons i l ih => exact (hf s i).trans (ih (f s i))

lemma refreshVote_books (fs : MsVaultFeeVote) (w : W) (s : State) (i : Nat) :
    SameBooks s (refreshVote qpi call fs w s i) := by
  unfold refreshVote
  dsimp only
  split <;> exact ⟨rfl, rfl, rfl, rfl⟩

lemma recordVote_books (fs : MsVaultFeeVote) (s : State) (w : W) :
    SameBooks s (recordVote qpi call fs s w) := by
  have hrefresh : SameBooks s
      ((List.range s.feeVotesAddrCount).foldl (refreshVote qpi call fs w) s) :=
    SameBooks.foldl (refreshVote_books fs w) _ s
  unfold recordVote
  dsimp only
  split
  · exact hrefresh.trans ⟨rfl, rfl, rfl, rfl⟩
  · exact hrefresh

lemma rankVote_books (s : State) (i : Nat) : SameBooks s (rankVote s i) := by
  unfold rankVote
  dsimp only
  split
  · exact ⟨rfl, rfl, rfl, rfl⟩
  · split <;> exact ⟨rfl, rfl, rfl, rfl⟩

lemma rankVotes_books (s : State) : SameBooks s (rankVotes s) := by
  have hreset : SameBooks s { s with
      uniqueFeeVotesCount := 0, uniqueFeeVotesRanking := fun _ => 0 } := ⟨rfl, rfl, rfl, rfl⟩
  exact hreset.trans (SameBooks.foldl rankVote_books _ _)

lemma adoptFees_books (s : State) : SameBooks s (adoptFees s) := by
  unfold adoptFees
  split <;> exact ⟨rfl, rfl, rfl, rfl⟩

lemma voteFeeChange_books (fs : MsVaultFeeVote) (s : State) (w : W) :
    SameBooks s (voteFeeChange qpi call fs s w).state := by
  unfold voteFeeChange
  dsimp only
  split
  · exact ⟨rfl, rfl, rfl, rfl⟩
  split
  · exact ⟨rfl, rfl, rfl, rfl⟩
  split
  · exact recordVote_books fs s _
  · exact ((recordVote_books fs s _).trans (rankVotes_books _)).trans (adoptFees_books _)

/-! ## Procedures -/

section

variable (s : State) (w : W)

lemma registerVault_changes (input : RegisterVaultInput) :
    Changes call s (.registerVault input) (registerVault qpi call input s w).status
      (registerVault qpi call input s w).state.vaults := by
  have hnone : ∀ status, Changes call s (.registerVault input) status s.vaults :=
    fun status => .none (by simp) (by simp) (by simp)
  unfold registerVault
  dsimp only
  split
  · exact hnone _
  split
  · exact hnone _
  split
  · exact hnone _
  split
  · exact hnone _
  apply byCheck_cases (P := fun r => Changes call s (.registerVault input) r.status r.state.vaults)
  · exact fun status _ => hnone _
  · intro slotIndex hslot
    obtain ⟨-, hactive, hbalance⟩ := emptySlot_ok hslot
    exact .registered input slotIndex hactive hbalance

lemma deposit_changes (v : Nat) :
    Changes call s (.deposit v) (deposit qpi call v s w).status
      (deposit qpi call v s w).state.vaults := by
  have hnone : ¬Depositable call s v → ∀ status, Changes call s (.deposit v) status s.vaults :=
    fun h status => .none (by simp) (by simp) (by simpa using h)
  unfold deposit
  split
  next hfee => exact hnone (fun h => by simp [h.fee] at hfee) _
  split
  next hamount => exact hnone (·.amount hamount) _
  split
  next hvalid => exact hnone (fun h => by simp [h.valid] at hvalid) _
  split
  next hactive => exact hnone (fun h => by simp [h.isActive] at hactive) _
  next hfee hamount hvalid hactive =>
    exact .deposited v ⟨by simpa using hfee, hamount, by simpa using hvalid, by simpa using hactive⟩

lemma releaseTo_changes (input : ReleaseToInput) :
    Changes call s (.releaseTo input) (releaseTo qpi call input s w).status
      (releaseTo qpi call input s w).state.vaults := by
  have hnone : ∀ status, status ≠ 1 ∧ status ≠ 9 →
      Changes call s (.releaseTo input) status s.vaults :=
    fun status h => .none (fun _ _ => h) (by simp) (by simp)
  apply asOwner_cases (P := fun r => Changes call s (.releaseTo input) r.status r.state.vaults)
  · intro status hstatus
    refine hnone _ ?_
    obtain rfl | rfl | rfl := hstatus <;> simp [refund]
  · intro i _ howns
    dsimp only
    split
    · exact hnone _ (by simp [refund])
    next hparams =>
    split
    · exact hnone _ (by simp [refund])
    next hbalance =>
    split
    · next happroved =>
      split
      · exact .released input i howns (not_or.1 hparams).1 (not_lt.1 hbalance) happroved
      · exact hnone _ (by simp)
    · exact .requested input i howns

lemma releaseAssetTo_changes (input : ReleaseAssetToInput) :
    Changes call s (.releaseAssetTo input) (releaseAssetTo qpi call input s w).status
      (releaseAssetTo qpi call input s w).state.vaults := by
  have hnone : ∀ status, Changes call s (.releaseAssetTo input) status s.vaults :=
    fun status => .none (by simp) (by simp) (by simp)
  apply asOwner_cases
    (P := fun r => Changes call s (.releaseAssetTo input) r.status r.state.vaults)
  · exact fun status _ => hnone _
  · intro i _ _
    dsimp only
    split
    · exact hnone _
    next hbalance =>
    split
    · exact hnone _
    split
    · exact hnone _
    split
    · exact hnone _
    split
    · split
      · unfold payAssets
        dsimp only
        split
        · exact hnone _
        split
        · exact hnone _
        · exact .feePaid input (not_lt.1 hbalance)
      · exact hnone _
    · exact hnone _

lemma Procedure.run_changes (p : Procedure) :
    Changes call s p (p.run qpi call s w).status (p.run qpi call s w).state.vaults := by
  cases p with
  | registerVault input => exact registerVault_changes s w input
  | deposit vaultId => exact deposit_changes s w vaultId
  | releaseTo input => exact releaseTo_changes s w input
  | releaseAssetTo input => exact releaseAssetTo_changes s w input
  | revokeAssetManagementRights input =>
    have hvaults : (MsVault.revokeAssetManagementRights qpi call input s w).state.vaults =
        s.vaults := by
      unfold MsVault.revokeAssetManagementRights
      dsimp only
      repeat' split
      all_goals rfl
    exact hvaults ▸ .none (by simp) (by simp) (by simp)
  | depositAsset input =>
    have hvaults : (MsVault.depositAsset qpi call input s w).state.vaults = s.vaults := by
      unfold MsVault.depositAsset
      dsimp only
      repeat' split
      all_goals rfl
    exact hvaults ▸ .none (by simp) (by simp) (by simp)
  | resetRelease v =>
    apply asOwner_cases (P := fun r => Changes call s (.resetRelease v) r.status r.state.vaults)
    · intro status hstatus
      refine .none (by simp) (fun _ _ => ?_) (by simp)
      obtain rfl | rfl | rfl := hstatus <;> simp [refund]
    · exact fun i _ howns => .reset v i howns
  | resetAssetRelease v =>
    apply asOwner_cases
      (P := fun r => Changes call s (.resetAssetRelease v) r.status r.state.vaults)
    · exact fun status _ => .none (by simp) (by simp) (by simp)
    · exact fun i _ _ => .none (by simp) (by simp) (by simp)
  | voteFeeChange fs =>
    exact (voteFeeChange_books fs s w).vaults_eq ▸ .none (by simp) (by simp) (by simp)

end

/-! ## The end of an epoch -/

def closes (fee : Nat) (vault : Vault) : Bool := vault.isActive && vault.qubicBalance < fee

def afterHoldingFee (fee : Nat) (vault : Vault) : Vault :=
  if closes fee vault then emptyVault
  else if vault.isActive then vault.withdraw fee else vault

lemma collectHoldingFee_vaults (s : State) (i : Nat) :
    (collectHoldingFee s i).vaults =
      update s.vaults i (afterHoldingFee s.liveHoldingFee (s.vaults i)) := by
  unfold collectHoldingFee afterHoldingFee closes
  dsimp only
  split
  next hactive =>
    split
    next hfee =>
      rw [if_neg (by simp [hfee])]
      rfl
    next hfee =>
      rw [if_pos (by simp [hactive, not_le.1 hfee])]
      rfl
  next hactive => rw [if_neg (by simp [hactive]), update_eq_self]

lemma collectHoldingFee_liveHoldingFee (s : State) (i : Nat) :
    (collectHoldingFee s i).liveHoldingFee = s.liveHoldingFee := by
  unfold collectHoldingFee
  dsimp only
  split
  · split <;> rfl
  · rfl

lemma foldl_collectHoldingFee (s : State) (n : Nat) :
    ((List.range n).foldl collectHoldingFee s).liveHoldingFee = s.liveHoldingFee ∧
      ∀ v, ((List.range n).foldl collectHoldingFee s).vaults v =
        if v < n then afterHoldingFee s.liveHoldingFee (s.vaults v) else s.vaults v := by
  induction n with
  | zero => exact ⟨rfl, fun v => rfl⟩
  | succ n ih =>
    obtain ⟨hfee, hvaults⟩ := ih
    rw [range_succ, foldl_append, foldl_cons, foldl_nil]
    refine ⟨(collectHoldingFee_liveHoldingFee _ n).trans hfee, fun v => ?_⟩
    rw [collectHoldingFee_vaults, hfee, update_apply]
    split
    next hv => rw [hvaults, if_neg (by omega), if_pos (by omega), hv]
    next hv =>
      rw [hvaults]
      exact if_congr (by omega) rfl rfl

lemma distribute_vaults (amount : Int) (s : State) (w : W) :
    (distribute qpi amount s w).1.vaults = s.vaults := by
  unfold distribute
  dsimp only
  split
  · split <;> rfl
  · rfl

lemma endEpoch_eq (s : State) (w : W) : endEpoch qpi s w =
    distribute qpi (amountToDistribute (collectHoldingFees s)) (collectHoldingFees s) w := rfl

lemma endEpoch_vaults (s : State) (w : W) (v : Nat) : (endEpoch qpi s w).1.vaults v =
    if v < MSVAULT_MAX_VAULTS then afterHoldingFee s.liveHoldingFee (s.vaults v)
    else s.vaults v := by
  rw [endEpoch_eq, distribute_vaults, collectHoldingFees]
  exact (foldl_collectHoldingFee s MSVAULT_MAX_VAULTS).2 v

/-! ## Requests for shares -/

/-- The filed requests for shares are the same. -/
structure VaultAssetPart.SameRequests (part part' : VaultAssetPart) : Prop where
  assets_eq : part'.releaseAssets = part.releaseAssets
  amounts_eq : part'.releaseAssetAmounts = part.releaseAssetAmounts
  destinations_eq : part'.releaseAssetDestinations = part.releaseAssetDestinations

/-- What a call can do to the requests for shares in a vault: it leaves them, or the caller owns the
vault, or the vault is a new one. -/
def AssetsKeep (call : Invocation) (s s' : State) (v : Nat) : Prop :=
  (s.vaultAssetParts v).SameRequests (s'.vaultAssetParts v) ∨ (∃ i, Owns call.invocator s v i) ∨
    ((s.vaults v).isActive = false ∧ (s'.vaults v).isActive ∧ s'.vaultAssetParts v = emptyAssetPart)

section

variable {s s' : State} {v : Nat}

lemma AssetsKeep.of_eq (h : s'.vaultAssetParts = s.vaultAssetParts) :
    AssetsKeep call s s' v := by
  refine .inl ?_
  rw [h]
  exact ⟨rfl, rfl, rfl⟩

lemma AssetsKeep.of_update {u : Nat} {part : VaultAssetPart}
    (h : s'.vaultAssetParts = update s.vaultAssetParts u part)
    (hu : v = u → (s.vaultAssetParts u).SameRequests part ∨ (∃ i, Owns call.invocator s u i)) :
    AssetsKeep call s s' v := by
  by_cases hv : v = u
  · subst hv
    obtain hsame | howns := hu rfl
    · refine .inl ?_
      rwa [h, update_self]
    · exact .inr (Or.inl howns)
  · refine .inl ?_
    rw [h, update_of_ne hv]
    exact ⟨rfl, rfl, rfl⟩

lemma VaultAssetPart.add_sameRequests (part : VaultAssetPart) (assetIndex : Option Nat)
    (asset : Asset) (amount : Nat) : part.SameRequests (part.add assetIndex asset amount) := by
  cases assetIndex <;> exact ⟨rfl, rfl, rfl⟩

lemma registerVault_assets (input : RegisterVaultInput) (w : W) :
    AssetsKeep call s (registerVault qpi call input s w).state v := by
  have hnone : AssetsKeep call s s v := .of_eq rfl
  unfold registerVault
  dsimp only
  split
  · exact hnone
  split
  · exact hnone
  split
  · exact hnone
  split
  · exact hnone
  apply byCheck_cases (P := fun r => AssetsKeep call s r.state v)
  · exact fun status _ => hnone
  · intro slotIndex hslot
    by_cases hv : v = slotIndex
    · subst hv
      refine .inr (Or.inr ⟨(emptySlot_ok hslot).2.1, ?_, ?_⟩)
      · exact congrArg Vault.isActive (update_self v (newVault input) s.vaults)
      · exact update_self v emptyAssetPart s.vaultAssetParts
    · refine .inl ?_
      have hpart : (openVault s slotIndex input).vaultAssetParts v = s.vaultAssetParts v := by
        change update s.vaultAssetParts slotIndex emptyAssetPart v = _
        rw [update_of_ne hv]
      rw [hpart]
      exact ⟨rfl, rfl, rfl⟩

lemma releaseAssetTo_assets (input : ReleaseAssetToInput) (w : W) :
    AssetsKeep call s (releaseAssetTo qpi call input s w).state v := by
  have hnone : AssetsKeep call s s v := .of_eq rfl
  apply asOwner_cases (P := fun r => AssetsKeep call s r.state v)
  · exact fun status _ => hnone
  · intro i _ howns
    have hset : ∀ {s' : State} {part : VaultAssetPart},
        s'.vaultAssetParts = update s.vaultAssetParts input.vaultId part →
        AssetsKeep call s s' v := fun h => .of_update h fun _ => .inr ⟨i, howns⟩
    dsimp only
    split
    · exact hnone
    split
    · exact hnone
    split
    · exact hnone
    split
    · exact hnone
    split
    · split
      · unfold payAssets
        dsimp only
        split
        · exact hset rfl
        split
        · exact hset rfl
        · exact hset rfl
      · exact hset rfl
    · exact hset rfl

lemma Procedure.run_assets (p : Procedure) (w : W) :
    AssetsKeep call s (p.run qpi call s w).state v := by
  cases p with
  | registerVault input => exact registerVault_assets input w
  | releaseAssetTo input => exact releaseAssetTo_assets input w
  | deposit u =>
    refine .of_eq ?_
    dsimp only [Procedure.run, MsVault.deposit]
    repeat' split
    all_goals rfl
  | revokeAssetManagementRights input =>
    refine .of_eq ?_
    dsimp only [Procedure.run, MsVault.revokeAssetManagementRights]
    repeat' split
    all_goals rfl
  | depositAsset input =>
    dsimp only [Procedure.run, MsVault.depositAsset]
    repeat' split
    all_goals first
      | exact .of_eq rfl
      | exact .of_update rfl fun _ => .inl (VaultAssetPart.add_sameRequests _ _ _ _)
  | releaseTo input =>
    refine .of_eq ?_
    apply asOwner_cases (P := fun r => r.state.vaultAssetParts = s.vaultAssetParts)
    · exact fun status _ => rfl
    · intro i _ _
      dsimp only
      repeat' split
      all_goals rfl
  | resetRelease u =>
    refine .of_eq ?_
    apply asOwner_cases (P := fun r => r.state.vaultAssetParts = s.vaultAssetParts)
    · exact fun status _ => rfl
    · exact fun i _ _ => rfl
  | resetAssetRelease u =>
    apply asOwner_cases (P := fun r => AssetsKeep call s r.state v)
    · exact fun status _ => .of_eq rfl
    · exact fun i _ howns => .of_update rfl fun _ => .inr ⟨i, howns⟩
  | voteFeeChange fs => exact .of_eq (voteFeeChange_books fs s w).vaultAssetParts_eq

end

def Cleared (s : State) : Prop :=
  ∀ v, (s.vaults v).isActive = false → emptyAssetPart.SameRequests (s.vaultAssetParts v)

lemma Cleared.collectHoldingFee (h : Cleared s) (i : Nat) : Cleared (collectHoldingFee s i) := by
  intro v hactive
  rw [collectHoldingFee_vaults] at hactive
  by_cases hv : v = i
  · subst hv
    rw [update_self] at hactive
    unfold MsVault.collectHoldingFee
    dsimp only
    split
    next hbefore =>
      split
      next hfee =>
        -- a vault that pays the fee stays active
        rw [afterHoldingFee, closes, hbefore, Bool.true_and, if_neg (by simpa using hfee),
          if_pos rfl] at hactive
        exact absurd hactive (by simp [Vault.withdraw, hbefore])
      next =>
        have hpart : (closeVault s v).vaultAssetParts v = emptyAssetPart := by
          change update s.vaultAssetParts v emptyAssetPart v = _
          rw [update_self]
        rw [hpart]
        exact ⟨rfl, rfl, rfl⟩
    next hbefore => exact h v (by simpa using hbefore)
  · rw [update_of_ne hv] at hactive
    have hpart : (MsVault.collectHoldingFee s i).vaultAssetParts v = s.vaultAssetParts v := by
      unfold MsVault.collectHoldingFee
      dsimp only
      split
      · split
        · rfl
        · change update s.vaultAssetParts i emptyAssetPart v = _
          rw [update_of_ne hv]
      · rfl
    rw [hpart]
    exact h v hactive

lemma Cleared.distribute (h : Cleared s) (amount : Int) (w : W) :
    Cleared (MsVault.distribute qpi amount s w).1 := by
  unfold MsVault.distribute
  dsimp only
  split
  · split
    · exact h
    · exact h
  · exact h

lemma Cleared.endEpoch (h : Cleared s) (w : W) : Cleared (MsVault.endEpoch qpi s w).1 := by
  have hfold : ∀ (l : List Nat) (s : State), Cleared s →
      Cleared (l.foldl MsVault.collectHoldingFee s) := by
    intro l
    induction l with
    | nil => exact fun s h => h
    | cons i l ih => exact fun s h => ih _ (h.collectHoldingFee i)
  have hcollected : Cleared (collectHoldingFees s) := hfold _ s h
  exact hcollected.distribute _ w

end QubicCore.Contracts.MsVault
