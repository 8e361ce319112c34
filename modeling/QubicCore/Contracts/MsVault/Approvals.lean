import QubicCore.Contracts.MsVault.Changes
import QubicCore.Contracts.Ledger

/-!
# Requests and approvals in MSVAULT

A run is kept together with its history, the newest event first. A request of an owner stands in a
history if the owner has filed it and nothing has withdrawn it since: no payment from the vault, no
other request and no reset by the owner, no closing of the vault.
-/

namespace QubicCore.Contracts.MsVault

open Function Finset

variable {s : State}

/-- What happens to the contract. At the end of an epoch some vaults are closed. -/
inductive Event where
  | call (call : Invocation) (p : Procedure) (status : Nat)
  | endEpoch (closed : Nat → Bool)

inductive Step {W : Type} (qpi : Host W) (s : State) : Event → State → Prop
  | call (call : Invocation) (p : Procedure) (w : W) :
      Step qpi s (.call call p (p.run qpi call s w).status) (p.run qpi call s w).state
  | endEpoch (w : W) :
      Step qpi s (.endEpoch fun v => v < MSVAULT_MAX_VAULTS ∧ closes s.liveHoldingFee (s.vaults v))
        (endEpoch qpi s w).1

inductive Run {W : Type} (qpi : Host W) : List Event → State → Prop
  | start : Run qpi [] initialState
  | step {history : List Event} {s s' : State} {e : Event} (hrun : Run qpi history s)
      (hstep : Step qpi s e s') : Run qpi (e :: history) s'

/-! ## Standing requests -/

def Event.submits (owner : M256i) (request : ReleaseToInput) : Event → Prop
  | .call c (.releaseTo input) status => c.invocator = owner ∧ input = request ∧ status = 9
  | _ => False

def Event.withdraws (owner : M256i) (vaultId : Nat) : Event → Prop
  | .call c (.releaseTo input) status =>
    input.vaultId = vaultId ∧ (status = 1 ∨ status = 9 ∧ c.invocator = owner)
  | .call c (.resetRelease v) status => v = vaultId ∧ c.invocator = owner ∧ status = 1
  | .endEpoch closed => closed vaultId
  | _ => False

inductive Stands (owner : M256i) (request : ReleaseToInput) : List Event → Prop
  | filed {e : Event} {history : List Event} (h : e.submits owner request) :
      Stands owner request (e :: history)
  | kept {e : Event} {history : List Event} (h : Stands owner request history)
      (he : ¬e.withdraws owner request.vaultId) : Stands owner request (e :: history)

def Vault.IsOwner (vault : Vault) (o : M256i) : Prop :=
  ∃ i < vault.numberOfOwners, vault.owners i = o

def Approved (history : List Event) (caller : M256i) (request : ReleaseToInput) (vault : Vault) :
    Prop :=
  ∃ approvers : Finset M256i, vault.requiredApprovals ≤ approvers.card ∧
    ∀ o ∈ approvers, vault.IsOwner o ∧ (o = caller ∨ Stands o request history)

inductive Leaves (history : List Event) (s : State) (vaultId : Nat) : Event → Nat → Prop
  | holdingFee (closed : Nat → Bool) :
      Leaves history s vaultId (.endEpoch closed) s.liveHoldingFee
  | closing (closed : Nat → Bool) (h : closed vaultId) :
      Leaves history s vaultId (.endEpoch closed) (s.vaults vaultId).qubicBalance
  | shareRelease (call : Invocation) (input : ReleaseAssetToInput) (h : input.vaultId = vaultId) :
      Leaves history s vaultId (.call call (.releaseAssetTo input) 1) MSVAULT_REVOKE_FEE
  | release (call : Invocation) (input : ReleaseToInput) (h : input.vaultId = vaultId)
      (happroved : Approved history call.invocator input (s.vaults vaultId)) :
      Leaves history s vaultId (.call call (.releaseTo input) 1) input.amount

def Vault.SameRequests (vault vault' : Vault) : Prop :=
  vault'.releaseAmounts = vault.releaseAmounts ∧
    vault'.releaseDestinations = vault.releaseDestinations

/-- After a history, an event takes from the balances only what it may take, and leaves the requests
of the vaults that the caller does not own. -/
structure Guarded (history : List Event) (s : State) (e : Event) (s' : State) : Prop where
  leaves : ∀ v, (s'.vaults v).qubicBalance < (s.vaults v).qubicBalance →
    Leaves history s v e ((s.vaults v).qubicBalance - (s'.vaults v).qubicBalance)
  requests : ∀ call p status, e = .call call p status → ∀ v,
    ¬(s.vaults v).IsOwner call.invocator → (s.vaults v).SameRequests (s'.vaults v) ∧
      (s.vaultAssetParts v).SameRequests (s'.vaultAssetParts v)

/-- A deposit that carries the balance of a vault beyond `uint64`. -/
def Event.overflows (s : State) : Event → Prop
  | .call c (.deposit v) _ =>
    Depositable c s v ∧ 2 ^ 64 ≤ (s.vaults v).qubicBalance + amountToDeposit c s
  | _ => False

/-! ## Owners are different -/

lemma tempOwners_nodup (owners : Nat → M256i) : (tempOwners owners).Nodup := by
  have hfold : ∀ (l : List Nat) (temp : List M256i), temp.Nodup →
      (l.foldl (fun temp i => if owners i ≠ NULL_ID ∧ owners i ∉ temp then temp ++ [owners i]
        else temp) temp).Nodup := by
    intro l
    induction l with
    | nil => exact fun temp h => h
    | cons i l ih =>
      intro temp htemp
      apply ih
      dsimp only
      split
      next hi => grind
      next => exact htemp
  exact hfold _ [] List.nodup_nil

lemma newVault_owners_inj (input : RegisterVaultInput) {i j : Nat}
    (hi : i < (newVault input).numberOfOwners) (hj : j < (newVault input).numberOfOwners)
    (h : (newVault input).owners i = (newVault input).owners j) : i = j := by
  simp only [newVault, List.getD_eq_getElem _ _ hi, List.getD_eq_getElem _ _ hj] at h
  exact (tempOwners_nodup input.owners).getElem_inj_iff.1 h

/-! ## Stored requests stand -/

structure VaultKept (history : List Event) (vaultId : Nat) (vault : Vault) : Prop where
  owners_inj : ∀ i < vault.numberOfOwners, ∀ j < vault.numberOfOwners,
    vault.owners i = vault.owners j → i = j
  empty_of_inactive : vault.isActive = false → vault = emptyVault
  stands : ∀ i < vault.numberOfOwners, vault.releaseAmounts i ≠ 0 →
    Stands (vault.owners i) ⟨vaultId, vault.releaseAmounts i, vault.releaseDestinations i⟩ history

def Kept (history : List Event) (s : State) : Prop := ∀ v, VaultKept history v (s.vaults v)

namespace VaultKept

variable {history : List Event} {e : Event} {v : Nat} {vault vault' : Vault}

lemma keep (h : VaultKept history v vault) (he : ∀ o, ¬e.withdraws o v) :
    VaultKept (e :: history) v vault :=
  ⟨h.owners_inj, h.empty_of_inactive, fun i hi hne => .kept (h.stands i hi hne) (he _)⟩

lemma setBalance (h : VaultKept history v vault) (hactive : vault.isActive)
    (balance : Nat) : VaultKept history v { vault with qubicBalance := balance } := by
  refine ⟨h.owners_inj, fun hinactive => ?_, h.stands⟩
  exact absurd hactive (by simp_all)

lemma of_cleared (hinj : ∀ i < vault.numberOfOwners, ∀ j < vault.numberOfOwners,
      vault.owners i = vault.owners j → i = j) (hactive : vault.isActive)
    (hclear : ∀ i, vault.releaseAmounts i = 0) : VaultKept history v vault :=
  ⟨hinj, fun h => by simp_all, fun i _ hne => absurd (hclear i) hne⟩

lemma empty : VaultKept history v emptyVault :=
  ⟨fun i hi => absurd hi (Nat.not_lt_zero i), fun _ => rfl,
    fun i hi => absurd hi (Nat.not_lt_zero i)⟩

/-- One owner files another request, or none; the requests of the others stand. -/
lemma request (h : VaultKept history v vault) {i amount : Nat} {destination : M256i}
    (hi : i < vault.numberOfOwners) (hactive : vault.isActive)
    (hown : amount ≠ 0 → e.submits (vault.owners i) ⟨v, amount, destination⟩)
    (hother : ∀ o ≠ vault.owners i, ¬e.withdraws o v) :
    VaultKept (e :: history) v (vault.request i amount destination) := by
  refine ⟨h.owners_inj, fun hinactive => absurd hactive (by simp_all [Vault.request]), ?_⟩
  intro j hj hne
  simp only [Vault.request] at hj hne ⊢
  by_cases hji : j = i
  · subst hji
    rw [update_self] at hne
    rw [update_self, update_self]
    exact .filed (hown hne)
  · rw [update_of_ne hji] at hne
    rw [update_of_ne hji, update_of_ne hji]
    exact .kept (h.stands j hj hne) (hother _ fun heq => hji (h.owners_inj j hj i hi heq))

end VaultKept

section

variable {W : Type} {qpi : Host W} {history : List Event} {s s' : State} {e : Event}
  {c : Invocation} {p : Procedure} {status v : Nat} {vaults : Nat → Vault}

lemma Kept.update (h : Kept history s) {u : Nat} {vault : Vault}
    (hother : ∀ v ≠ u, ∀ o, ¬e.withdraws o v) (hu : VaultKept (e :: history) u vault)
    (v : Nat) : VaultKept (e :: history) v (update s.vaults u vault v) := by
  by_cases hv : v = u
  · subst hv
    rwa [update_self]
  · rw [update_of_ne hv]
    exact (h v).keep (hother v hv)

lemma Kept.changes (h : Kept history s) (hc : Changes c s p status vaults) (v : Nat) :
    VaultKept (.call c p status :: history) v (vaults v) := by
  cases hc with
  | none hrelease hreset hdeposit =>
    refine (h v).keep fun o => ?_
    cases p with
    | releaseTo input => grind [Event.withdraws]
    | resetRelease u => grind [Event.withdraws]
    | _ => exact id
  | registered input u hactive hbalance =>
    refine h.update (fun _ _ _ => id) (.of_cleared ?_ rfl fun _ => rfl) v
    exact fun i hi j hj => newVault_owners_inj input hi hj
  | deposited u hdep =>
    exact h.update (fun _ _ _ => id) (((h u).keep fun _ => id).setBalance hdep.isActive _) v
  | requested input i howns =>
    refine h.update (e := .call c (.releaseTo input) 9) (fun u hu o hw => hu hw.1.symm) ?_ v
    refine (h _).request howns.lt_numberOfOwners howns.isActive ?_ ?_
    · exact fun _ => ⟨howns.owner_eq.symm, rfl, rfl⟩
    · rintro o ho ⟨-, h1 | ⟨-, hcaller⟩⟩
      · cases h1
      · exact ho (hcaller.symm.trans howns.owner_eq.symm)
  | released input i howns hamount hbalance happroved =>
    refine h.update (e := .call c (.releaseTo input) 1) (fun u hu o hw => hu hw.1.symm) ?_ v
    exact .of_cleared (h _).owners_inj howns.isActive fun _ => rfl
  | feePaid input hbalance =>
    refine h.update (fun _ _ _ => id) ?_ v
    have hkept := (h input.vaultId).keep (e := .call c (.releaseAssetTo input) 1) fun _ => id
    refine ⟨hkept.owners_inj, fun hinactive => ?_, hkept.stands⟩
    -- an inactive vault has no balance to pay the fee from
    rw [hkept.empty_of_inactive hinactive] at hbalance
    exact absurd hbalance (by decide)
  | reset u i howns =>
    refine h.update (e := .call c (.resetRelease u) 1) (fun u' hu o hw => hu hw.1.symm) ?_ v
    refine (h u).request howns.lt_numberOfOwners howns.isActive (absurd rfl) ?_
    rintro o ho ⟨-, hcaller, -⟩
    exact ho (hcaller.symm.trans howns.owner_eq.symm)

lemma Kept.endEpoch (h : Kept history s) (w : W) : Kept (.endEpoch (fun v =>
    v < MSVAULT_MAX_VAULTS ∧ closes s.liveHoldingFee (s.vaults v)) :: history)
      (MsVault.endEpoch qpi s w).1 := by
  intro v
  rw [endEpoch_vaults]
  split
  next hv =>
    unfold afterHoldingFee
    split
    next => exact .empty
    next hcloses =>
      have hkept := (h v).keep (e := .endEpoch fun v =>
        v < MSVAULT_MAX_VAULTS ∧ closes s.liveHoldingFee (s.vaults v)) fun o hw => by
          simp [Event.withdraws, hcloses] at hw
      split
      next hactive => exact hkept.setBalance hactive _
      next => exact hkept
  next hv =>
    refine (h v).keep fun o hw => ?_
    simp [Event.withdraws, hv] at hw

lemma Step.kept (hstep : Step qpi s e s') (h : Kept history s) : Kept (e :: history) s' := by
  cases hstep with
  | call c p w => exact h.changes (p.run_changes s w)
  | endEpoch w => exact h.endEpoch w

lemma Run.kept (hrun : Run qpi history s) : Kept history s := by
  induction hrun with
  | start => exact fun v => .empty
  | step hrun hstep ih => exact hstep.kept ih

lemma Cleared.changes (h : Cleared s) (hc : Changes c s p status s'.vaults)
    (hassets : ∀ v, AssetsKeep c s s' v) : Cleared s' := by
  intro v hinactive
  have hbefore : (s.vaults v).isActive = false := by
    generalize s'.vaults = vaults at hc hinactive
    by_contra hactive
    cases hc <;> grind [update_apply, newVault, Vault.request, Vault.withdraw,
      Vault.resetReleaseRequests]
  obtain hsame | ⟨i, howns⟩ | ⟨-, hactive, -⟩ := hassets v
  · have hclear := h v hbefore
    exact ⟨hsame.assets_eq.trans hclear.assets_eq, hsame.amounts_eq.trans hclear.amounts_eq,
      hsame.destinations_eq.trans hclear.destinations_eq⟩
  · exact absurd howns.isActive (by simp [hbefore])
  · exact absurd hactive (by simp [hinactive])

lemma Run.cleared (hrun : Run qpi history s) : Cleared s := by
  induction hrun with
  | start => exact fun v _ => ⟨rfl, rfl, rfl⟩
  | step hrun hstep ih =>
    cases hstep with
    | call c p w => exact ih.changes (p.run_changes _ w) fun v => p.run_assets w
    | endEpoch w => exact ih.endEpoch w

/-- A call leaves the requests for shares in a vault whose owner is not the caller. -/
lemma Cleared.sameRequests (h : Cleared s) (hassets : AssetsKeep c s s' v)
    (howner : ¬(s.vaults v).IsOwner c.invocator) :
    (s.vaultAssetParts v).SameRequests (s'.vaultAssetParts v) := by
  obtain hsame | ⟨i, howns⟩ | ⟨hinactive, -, hempty⟩ := hassets
  · exact hsame
  · exact absurd ⟨i, howns.lt_numberOfOwners, howns.owner_eq⟩ howner
  · have hclear := h v hinactive
    rw [hempty]
    exact ⟨hclear.assets_eq.symm, hclear.amounts_eq.symm, hclear.destinations_eq.symm⟩

/-! ## Payments -/

/-- The owners whose request is counted approve it. -/
lemma Kept.approved (h : Kept history s) {input : ReleaseToInput} {i : Nat}
    (howns : Owns c.invocator s input.vaultId i) (hamount : input.amount ≠ 0)
    (happrovals : (s.vaults input.vaultId).requiredApprovals ≤
      ((s.vaults input.vaultId).request i input.amount input.destination).approvals
        input.amount input.destination) :
    Approved history c.invocator input (s.vaults input.vaultId) := by
  set vault := s.vaults input.vaultId with hvault
  set voters := (range vault.numberOfOwners).filter fun j =>
    (vault.request i input.amount input.destination).releaseAmounts j = input.amount ∧
      (vault.request i input.amount input.destination).releaseDestinations j =
        input.destination with hvoters
  have hcount : (vault.request i input.amount input.destination).approvals input.amount
      input.destination = voters.card := by
    rw [Vault.approvals, List.countP_eq_length_filter]
    rfl
  refine ⟨voters.image vault.owners, ?_, ?_⟩
  · rw [card_image_of_injOn, ← hcount]
    · exact happrovals
    · intro j hj k hk heq
      simp only [hvoters, coe_filter, mem_range, Set.mem_ofPred_eq] at hj hk
      exact (h input.vaultId).owners_inj j hj.1 k hk.1 heq
  · intro o ho
    obtain ⟨j, hj, rfl⟩ := mem_image.1 ho
    obtain ⟨hlt, hrequest⟩ := mem_filter.1 hj
    rw [mem_range] at hlt
    refine ⟨⟨j, hlt, rfl⟩, ?_⟩
    by_cases hji : j = i
    · subst hji
      exact .inl howns.owner_eq
    · simp only [Vault.request, update_of_ne hji] at hrequest
      have hstands := (h input.vaultId).stands j hlt (by rw [← hvault, hrequest.1]; exact hamount)
      rw [← hvault, hrequest.1, hrequest.2] at hstands
      exact .inr hstands

lemma amountToDeposit_lt (c : Invocation) (s : State) : amountToDeposit c s < 2 ^ 64 := by
  have := Int.emod_lt_of_pos (c.invocationReward - s.liveDepositFee) (b := 2 ^ 64) (by norm_num)
  unfold amountToDeposit uint64
  omega

lemma addAmount_lt_iff {x y : Nat} (hy : y < 2 ^ 64) : addAmount x y < x ↔ 2 ^ 64 ≤ x + y := by
  unfold addAmount
  constructor
  · intro h
    by_contra hlt
    omega
  · intro h
    have := Nat.mod_le (x + y - 2 ^ 64) (2 ^ 64)
    omega

lemma eq_of_balance_lt {u : Nat} {vault : Vault}
    (h : (update vaults u vault v).qubicBalance < (vaults v).qubicBalance) : v = u := by
  by_contra hv
  rw [update_of_ne hv] at h
  exact absurd h (lt_irrefl _)

lemma Kept.leaves (h : Kept history s) (hc : Changes c s p status vaults)
    (hfits : ¬(Event.call c p status).overflows s)
    (hlt : (vaults v).qubicBalance < (s.vaults v).qubicBalance) :
    Leaves history s v (.call c p status)
      ((s.vaults v).qubicBalance - (vaults v).qubicBalance) := by
  cases hc with
  | none => exact absurd hlt (lt_irrefl _)
  | registered input u hactive hbalance =>
    obtain rfl := eq_of_balance_lt hlt
    rw [hbalance] at hlt
    exact absurd hlt (Nat.not_lt_zero _)
  | deposited u hdep =>
    obtain rfl := eq_of_balance_lt hlt
    rw [update_self] at hlt
    exact absurd ⟨hdep, (addAmount_lt_iff (amountToDeposit_lt c s)).1 hlt⟩ hfits
  | requested input i howns | reset u i howns =>
    obtain rfl := eq_of_balance_lt hlt
    rw [update_self] at hlt
    exact absurd hlt (lt_irrefl _)
  | released input i howns hamount hbalance happroved =>
    obtain rfl := eq_of_balance_lt hlt
    rw [update_self]
    have hpaid : (s.vaults input.vaultId).qubicBalance -
        ((s.vaults input.vaultId).qubicBalance - input.amount) = input.amount := by omega
    simp only [Vault.resetReleaseRequests, Vault.withdraw, Vault.request, hpaid]
    exact .release c input rfl (h.approved howns hamount happroved)
  | feePaid input hbalance =>
    obtain rfl := eq_of_balance_lt hlt
    rw [update_self]
    simp only [Vault.withdraw, Nat.sub_sub_self hbalance]
    exact .shareRelease c input rfl

/-- A call leaves the requests of a vault whose owner is not the caller. -/
lemma Kept.sameRequests (h : Kept history s) (hc : Changes c s p status vaults)
    (howner : ¬(s.vaults v).IsOwner c.invocator) : (s.vaults v).SameRequests (vaults v) := by
  have hupdate : ∀ {u : Nat} {vault : Vault}, (u = v → (s.vaults u).SameRequests vault) →
      (s.vaults v).SameRequests (Function.update s.vaults u vault v) := by
    intro u vault hu
    by_cases hv : v = u
    · subst hv
      rw [Function.update_self]
      exact hu rfl
    · rw [Function.update_of_ne hv]
      exact ⟨rfl, rfl⟩
  have hnot : ∀ {u i : Nat}, Owns c.invocator s u i → u ≠ v := by
    rintro u i howns rfl
    exact howner ⟨i, howns.lt_numberOfOwners, howns.owner_eq⟩
  cases hc with
  | none => exact ⟨rfl, rfl⟩
  | registered input u hactive hbalance =>
    refine hupdate fun _ => ?_
    -- the slot was cleared when its vault was closed
    rw [(h u).empty_of_inactive hactive]
    exact ⟨rfl, rfl⟩
  | deposited u hdep | feePaid input hbalance => exact hupdate fun _ => ⟨rfl, rfl⟩
  | requested input i howns | released input i howns | reset u i howns =>
    exact hupdate fun hu => absurd hu (hnot howns)

lemma leaves_endEpoch (w : W)
    (hlt : ((endEpoch qpi s w).1.vaults v).qubicBalance < (s.vaults v).qubicBalance) :
    Leaves history s v (.endEpoch fun v =>
      v < MSVAULT_MAX_VAULTS ∧ closes s.liveHoldingFee (s.vaults v))
      ((s.vaults v).qubicBalance - ((endEpoch qpi s w).1.vaults v).qubicBalance) := by
  rw [endEpoch_vaults] at hlt ⊢
  split at hlt
  next hv =>
    rw [if_pos hv]
    unfold afterHoldingFee at hlt ⊢
    split at hlt
    next hcloses =>
      rw [if_pos hcloses]
      exact .closing _ (by simp [hv, hcloses])
    next hcloses =>
      rw [if_neg hcloses]
      split at hlt
      next hactive =>
        rw [if_pos hactive]
        have hfee : s.liveHoldingFee ≤ (s.vaults v).qubicBalance := by
          simpa [closes, hactive] using hcloses
        simp only [Vault.withdraw, Nat.sub_sub_self hfee]
        exact .holdingFee _
      next => exact absurd hlt (lt_irrefl _)
  next => exact absurd hlt (lt_irrefl _)

lemma not_guarded_of_overflows (hc : Changes c s p status s'.vaults)
    (hover : (Event.call c p status).overflows s) :
    ¬Guarded history s (.call c p status) s' := by
  intro hguarded
  cases p with
  | deposit v =>
    obtain ⟨hdep, hover⟩ := hover
    generalize hvaults : s'.vaults = vaults at hc
    cases hc with
    | none hrelease hreset hdeposit => exact hdeposit v rfl hdep
    | deposited =>
      have hlt := (addAmount_lt_iff (amountToDeposit_lt c s)).2 hover
      have hleaves := hguarded.leaves v (by rwa [hvaults, update_self])
      cases hleaves
  | _ => exact hover

/-- In every run, an event takes QU from a vault only as the holding fee, at its closing, as the fee
for releasing shares or by an approved release, and leaves the requests of vaults that the caller
does not own; except that a deposit overflows. -/
theorem step_guarded_iff (hrun : Run qpi history s) (hstep : Step qpi s e s') :
    Guarded history s e s' ↔ ¬e.overflows s := by
  have hkept := hrun.kept
  constructor
  · intro hguarded hover
    cases hstep with
    | call c p w => exact not_guarded_of_overflows (p.run_changes s w) hover hguarded
    | endEpoch w => exact hover
  · intro hfits
    cases hstep with
    | call c p w =>
      refine ⟨fun v => hkept.leaves (p.run_changes s w) hfits, fun c' p' status heq v howner => ?_⟩
      cases heq
      exact ⟨hkept.sameRequests (p.run_changes s w) howner,
        hrun.cleared.sameRequests (p.run_assets w) howner⟩
    | endEpoch w => exact ⟨fun v => leaves_endEpoch w, fun _ _ _ heq => by cases heq⟩

end

/-! ## Runs on a ledger -/

def firstOwner : M256i := ⟨1⟩
def secondOwner : M256i := ⟨2⟩

/-- All shares of the contract belong to the first owner. -/
def ledgerHost : Host Ledger :=
  { Ledger.qpi with numberOfShares := fun _ owner _ _ => if owner = firstOwner then 676 else 0 }

def twoOwners : RegisterVaultInput where
  vaultName := NULL_ID
  owners := fun i => if i = 0 then firstOwner else if i = 1 then secondOwner else NULL_ID
  requiredApprovals := 2

def smallLedger : Ledger := .ofBalance 100000000 (by decide)

def opened : State := openVault initialState 0 twoOwners

lemma registerVault_opened (w : Ledger) :
    registerVault ledgerHost ⟨firstOwner, MSVAULT_REGISTERING_FEE⟩ twoOwners initialState w =
      { status := 1, state := opened, world := w } := by
  have hinactive : ∀ v, (initialState.vaults v).isActive = false := fun _ => rfl
  have hlimit : ((tempOwners twoOwners.owners).any fun owner =>
      MSVAULT_MAX_COOWNER ≤ coOwned initialState owner) ≠ true := by
    simp [coOwned, hinactive, MSVAULT_MAX_COOWNER]
  have hslot : emptySlot initialState = .ok 0 := by
    have hmax : MSVAULT_MAX_VAULTS = 131071 + 1 := rfl
    rw [emptySlot, hmax, List.range_succ_eq_map, List.find?_cons_of_pos rfl, Option.elim_some]
  unfold registerVault
  dsimp only
  rw [if_neg (by decide), if_neg (by decide), if_neg (by decide), if_neg hlimit, hslot,
    byCheck, refundExcess, if_neg (by decide), opened]

lemma opened_reached : ∃ history, Run ledgerHost history opened := by
  have hstep : Step ledgerHost initialState _ _ :=
    .call ⟨firstOwner, MSVAULT_REGISTERING_FEE⟩ (.registerVault twoOwners) smallLedger
  rw [Procedure.run, registerVault_opened] at hstep
  exact ⟨_, Run.start.step hstep⟩

def askedVault : State :=
  let s := (deposit ledgerHost ⟨firstOwner, 7⟩ 0 opened smallLedger).state
  (releaseTo ledgerHost ⟨secondOwner, MSVAULT_RELEASE_FEE⟩ ⟨0, 5, secondOwner⟩ s smallLedger).state

/-- The first owner joins the second, and the payment is made. -/
theorem step_guarded_iff_twoOwners : ∃ history s', Run ledgerHost history askedVault ∧
    Step ledgerHost askedVault
      (.call ⟨firstOwner, MSVAULT_RELEASE_FEE⟩ (.releaseTo ⟨0, 5, secondOwner⟩) 1) s' ∧
    (askedVault.vaults 0).qubicBalance = 7 ∧ (s'.vaults 0).qubicBalance = 2 ∧
    Guarded history askedVault
      (.call ⟨firstOwner, MSVAULT_RELEASE_FEE⟩ (.releaseTo ⟨0, 5, secondOwner⟩) 1) s' := by
  obtain ⟨_, hopen⟩ := opened_reached
  have hdeposit := hopen.step (.call ⟨firstOwner, 7⟩ (.deposit 0) smallLedger)
  have hasked := hdeposit.step (.call ⟨secondOwner, MSVAULT_RELEASE_FEE⟩
    (.releaseTo ⟨0, 5, secondOwner⟩) smallLedger)
  have hstep : Step ledgerHost askedVault
      (.call ⟨firstOwner, MSVAULT_RELEASE_FEE⟩ (.releaseTo ⟨0, 5, secondOwner⟩) 1) _ :=
    .call ⟨firstOwner, MSVAULT_RELEASE_FEE⟩ (.releaseTo ⟨0, 5, secondOwner⟩) smallLedger
  exact ⟨_, _, hasked, hstep, by decide +kernel, by decide +kernel,
    (step_guarded_iff hasked hstep).2 id⟩

/-- The fees in force, with a deposit fee that is negative as `sint64`. -/
def hugeDepositFee : MsVaultFeeVote :=
  ⟨MSVAULT_REGISTERING_FEE, MSVAULT_RELEASE_FEE, MSVAULT_RELEASE_RESET_FEE, MSVAULT_HOLDING_FEE,
    2 ^ 63⟩

def afterVote : State := (voteFeeChange ledgerHost ⟨firstOwner, MSVAULT_VOTE_FEE_CHANGE_FEE⟩
  hugeDepositFee opened smallLedger).state

/-- A second deposit of nothing takes the balance of a vault from `2^63` to 0. -/
theorem deposit_overflows : ∃ history s s', Run ledgerHost history s ∧
    Step ledgerHost s (.call ⟨firstOwner, 0⟩ (.deposit 0) 1) s' ∧
    (s.vaults 0).qubicBalance = 2 ^ 63 ∧ (s'.vaults 0).qubicBalance = 0 ∧
    ¬Guarded history s (.call ⟨firstOwner, 0⟩ (.deposit 0) 1) s' := by
  obtain ⟨_, hopen⟩ := opened_reached
  have hvote := hopen.step
    (.call ⟨firstOwner, MSVAULT_VOTE_FEE_CHANGE_FEE⟩ (.voteFeeChange hugeDepositFee) smallLedger)
  have hdeposit := hvote.step (.call ⟨firstOwner, 0⟩ (.deposit 0) smallLedger)
  have hagain : Step ledgerHost
      (deposit ledgerHost ⟨firstOwner, 0⟩ 0 afterVote smallLedger).state _ _ :=
    .call ⟨firstOwner, 0⟩ (.deposit 0) smallLedger
  refine ⟨_, _, _, hdeposit, hagain, by decide +kernel, by decide +kernel, ?_⟩
  exact not_guarded_of_overflows (Procedure.run_changes _ smallLedger (.deposit 0))
    ⟨⟨by decide +kernel, by decide +kernel, by decide, by decide +kernel⟩, by decide +kernel⟩

end QubicCore.Contracts.MsVault
