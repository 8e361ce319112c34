import QubicCore.Contracts.Qpi

/-!
# Proposals of the administrators of VOTTUNBRIDGE

Administrative actions of the bridge are proposed by one administrator and carried out when enough
of them have approved the proposal. Proposals are kept in 32 slots, each with the identities that
approved it.

The identities are not looked at again when an administrator is replaced: an approval of somebody
who is no administrator any more still counts.
-/

namespace QubicCore.Contracts.VottunBridge

open Function List

inductive EthBridgeError where
  | invalidAmount
  | invalidOrderState
  | notAuthorized
  | proposalNotFound
  | proposalAlreadyExecuted
  | proposalAlreadyApproved
  | notOwner
  | maxProposalsReached
deriving DecidableEq

def PROPOSAL_SET_ADMIN : Nat := 1
def PROPOSAL_ADD_MANAGER : Nat := 2
def PROPOSAL_REMOVE_MANAGER : Nat := 3
def PROPOSAL_WITHDRAW_FEES : Nat := 4
def PROPOSAL_CHANGE_THRESHOLD : Nat := 5

structure AdminProposal where
  (proposalId proposalType : Nat)
  (targetAddress oldAddress : M256i)
  amount : UInt64
  approvals : Nat → M256i
  approvalsCount : Nat
  (executed active : Bool)

/-- What the procedures for proposals read and write. -/
structure State where
  feeRecipient : M256i
  managers : Nat → M256i
  (earnedFees distributedFees reservedFees : UInt64)
  admins : Nat → M256i
  (numberOfAdmins requiredApprovals : Nat)
  proposals : Nat → AdminProposal
  nextProposalId : Nat

/-- The state after `INITIALIZE`, for any identities. -/
def State.init (feeRecipient manager admin₁ admin₂ admin₃ : M256i) : State where
  feeRecipient := feeRecipient
  managers := update (fun _ => 0) 0 manager
  earnedFees := 0
  distributedFees := 0
  reservedFees := 0
  admins := update (update (update (fun _ => 0) 0 admin₁) 1 admin₂) 2 admin₃
  numberOfAdmins := 3
  requiredApprovals := 2
  proposals _ := ⟨0, 0, 0, 0, 0, fun _ => 0, 0, false, false⟩
  nextProposalId := 1

def isMultisigAdmin (s : State) (input : M256i) : Bool :=
  (List.range s.numberOfAdmins).any fun i => s.admins i = input

/-! ## `createProposal` -/

structure CreateProposalInput where
  proposalType : Nat
  (targetAddress oldAddress : M256i)
  amount : UInt64

def CreateProposalInput.isValid (input : CreateProposalInput) : Bool :=
  ¬(input.proposalType < PROPOSAL_SET_ADMIN ∨ input.proposalType > PROPOSAL_CHANGE_THRESHOLD) ∧
    ((input.proposalType = PROPOSAL_SET_ADMIN ∨ input.proposalType = PROPOSAL_ADD_MANAGER ∨
      input.proposalType = PROPOSAL_REMOVE_MANAGER) → input.targetAddress ≠ 0) ∧
    (input.proposalType = PROPOSAL_SET_ADMIN → input.oldAddress ≠ 0)

variable (p : AdminProposal)

def AdminProposal.isEmptySlot : Bool := ¬p.active ∧ p.proposalId = 0

def AdminProposal.isRecyclable : Bool :=
  ¬p.isEmptySlot ∧ (p.executed ∨ (¬p.active ∧ p.proposalId > 0))

variable (s : State)

def findSlot : Option Nat :=
  ((List.range 32).find? fun i => (s.proposals i).isEmptySlot).or
    ((List.range 32).find? fun i => (s.proposals i).isRecyclable)

variable (invocator : M256i)

def newProposal (input : CreateProposalInput) : AdminProposal where
  proposalId := s.nextProposalId
  proposalType := input.proposalType
  targetAddress := input.targetAddress
  oldAddress := input.oldAddress
  amount := input.amount
  approvals := update (fun _ => 0) 0 invocator
  approvalsCount := 1
  executed := false
  active := true

def State.setProposal (i : Nat) (p : AdminProposal) : State :=
  { s with proposals := update s.proposals i p }

/-- The status zero is `none`. -/
def createProposal (input : CreateProposalInput) (s : State) : Option EthBridgeError × State :=
  if !isMultisigAdmin s invocator then (some .notOwner, s)
  else if !input.isValid then (some .invalidAmount, s)
  else match findSlot s with
    | none => (some .maxProposalsReached, s)
    | some slotIndex =>
      (none, { s.setProposal slotIndex (newProposal s invocator input) with
        nextProposalId := (s.nextProposalId + 1) % 2 ^ 64 })

/-! ## `approveProposal` -/

def findProposal (proposalId : Nat) : Option Nat :=
  (List.range 32).find? fun i =>
    (s.proposals i).proposalId = proposalId ∧ (s.proposals i).active

/-- The identities that approved the proposal; an `Array` of 16 entries masks its index. -/
def AdminProposal.approvers : List M256i :=
  (List.range p.approvalsCount).map fun i => p.approvals (i % 16)

def AdminProposal.approve : AdminProposal :=
  { p with
    approvals := update p.approvals (p.approvalsCount % 16) invocator
    approvalsCount := (p.approvalsCount + 1) % 2 ^ 8 }

def setAdmin : Bool × State :=
  if isMultisigAdmin s p.targetAddress then (false, s)
  else match (List.range 16).find? fun i => s.admins i = p.oldAddress with
    | none => (false, s)
    | some i => (true, { s with admins := update s.admins i p.targetAddress })

/-- At most three managers. -/
def addManager : Bool × State :=
  if (List.range 16).any (fun i => s.managers i = p.targetAddress) ∨
      (List.range 16).countP (fun i => s.managers i ≠ 0) ≥ 3 then (false, s)
  else match (List.range 16).find? fun i => s.managers i = 0 with
    | none => (false, s)
    | some i => (true, { s with managers := update s.managers i p.targetAddress })

def removeManager : Bool × State :=
  match (List.range 16).find? fun i => s.managers i = p.targetAddress with
  | none => (false, s)
  | some i => (true, { s with managers := update s.managers i 0 })

def availableFees : UInt64 :=
  if s.earnedFees > s.distributedFees + s.reservedFees then
    s.earnedFees - s.distributedFees - s.reservedFees
  else 0

def changeThreshold : Bool × State :=
  if 2 ≤ p.amount.toNat ∧ p.amount.toNat ≤ s.numberOfAdmins then
    (true, { s with requiredApprovals := p.amount.toNat % 2 ^ 8 })
  else (false, s)

section

variable {W : Type} (qpi : Qpi W)

def withdrawFees (p : AdminProposal) (s : State) (w : W) : Bool × State × W :=
  if p.amount ≤ availableFees s ∧ p.amount > 0 then
    let (result, w) := qpi.transfer s.feeRecipient (sint64 p.amount.toNat) w
    if result ≥ 0 then (true, { s with distributedFees := s.distributedFees + p.amount }, w)
    else (false, s, w)
  else (false, s, w)

/-- Whether the action succeeded. -/
def carryOut (p : AdminProposal) (s : State) (w : W) : Bool × State × W :=
  let pure (r : Bool × State) : Bool × State × W := (r.1, r.2, w)
  if p.proposalType = PROPOSAL_SET_ADMIN then pure (setAdmin p s)
  else if p.proposalType = PROPOSAL_ADD_MANAGER then pure (addManager p s)
  else if p.proposalType = PROPOSAL_REMOVE_MANAGER then pure (removeManager p s)
  else if p.proposalType = PROPOSAL_WITHDRAW_FEES then withdrawFees qpi p s w
  else if p.proposalType = PROPOSAL_CHANGE_THRESHOLD then pure (changeThreshold p s)
  else pure (false, s)

/-- The output of `approveProposal`, and the state and the node after it. -/
structure Approval (W : Type) where
  status : Option EthBridgeError
  executed : Bool
  state : State
  world : W

/-- The part that follows the checks, for the proposal in slot `i`. -/
def addApproval (invocator : M256i) (i : Nat) (s : State) (w : W) : Approval W :=
  let p := (s.proposals i).approve invocator
  if p.approvalsCount ≥ s.requiredApprovals then
    let (actionSucceeded, s, w) := carryOut qpi p s w
    if actionSucceeded then ⟨none, true, s.setProposal i { p with executed := true }, w⟩
    else ⟨some .invalidOrderState, false, s.setProposal i { p with active := false }, w⟩
  else ⟨none, false, s.setProposal i p, w⟩

def approveProposal (invocator : M256i) (proposalId : Nat) (s : State) (w : W) : Approval W :=
  if !isMultisigAdmin s invocator then ⟨some .notOwner, false, s, w⟩
  else match findProposal s proposalId with
    | none => ⟨some .proposalNotFound, false, s, w⟩
    | some i =>
      if (s.proposals i).executed then ⟨some .proposalAlreadyExecuted, false, s, w⟩
      else if invocator ∈ (s.proposals i).approvers then
        ⟨some .proposalAlreadyApproved, false, s, w⟩
      else addApproval qpi invocator i s w

end

/-- Only the creator, who is the first approver, can cancel. -/
def cancelProposal (proposalId : Nat) (s : State) : Option EthBridgeError × State :=
  match findProposal s proposalId with
  | none => (some .proposalNotFound, s)
  | some i =>
    if (s.proposals i).executed then (some .proposalAlreadyExecuted, s)
    else if (s.proposals i).approvals 0 ≠ invocator then (some .notAuthorized, s)
    else (none, s.setProposal i { s.proposals i with active := false })

/-! ## Histories -/

/-- Which identities approved which proposals, and what became of these. -/
structure History where
  approvals : List (Nat × M256i)
  (executed cancelled : List Nat)

structure Config (W : Type) where
  state : State
  world : W
  history : History

inductive Action where
  | createProposal (invocator : M256i) (input : CreateProposalInput)
  | approveProposal (invocator : M256i) (proposalId : Nat)
  | cancelProposal (invocator : M256i) (proposalId : Nat)
  /-- Orders and the end of a tick, which change the fees. -/
  | other

section

variable {W : Type} (qpi : Qpi W)

/-- The approval counts if the proposal took it, also if its action then failed. -/
def Approval.history (a : Approval W) (invocator : M256i) (proposalId : Nat) (h : History) :
    History where
  approvals := if a.status = none ∨ a.status = some .invalidOrderState then
    (proposalId, invocator) :: h.approvals else h.approvals
  executed := if a.executed then proposalId :: h.executed else h.executed
  cancelled := h.cancelled

def afterCreation (c : Config W) (invocator : M256i) (input : CreateProposalInput) : Config W :=
  let r := createProposal invocator input c.state
  { c with
    state := r.2
    history.approvals := if r.1 = none then
      (c.state.nextProposalId, invocator) :: c.history.approvals else c.history.approvals }

def afterApproval (c : Config W) (invocator : M256i) (proposalId : Nat) : Config W :=
  let a := approveProposal qpi invocator proposalId c.state c.world
  ⟨a.state, a.world, a.history invocator proposalId c.history⟩

inductive Step (c : Config W) : Action → Config W → Prop where
  | createProposal (invocator : M256i) (input : CreateProposalInput) :
    Step c (.createProposal invocator input) (afterCreation c invocator input)
  | approveProposal (invocator : M256i) (proposalId : Nat) :
    Step c (.approveProposal invocator proposalId) (afterApproval qpi c invocator proposalId)
  | cancelProposal (invocator : M256i) (proposalId : Nat) :
    Step c (.cancelProposal invocator proposalId)
      { c with
        state := (cancelProposal invocator proposalId c.state).2
        history.cancelled := if (cancelProposal invocator proposalId c.state).1 = none then
          proposalId :: c.history.cancelled else c.history.cancelled }
  | other (earnedFees distributedFees reservedFees : UInt64) (w : W) :
    Step c .other
      { c with
        state.earnedFees := earnedFees
        state.distributedFees := distributedFees
        state.reservedFees := reservedFees
        world := w }

def AdminProposal.Pending (p : AdminProposal) : Prop := p.active ∧ p.executed = false

/-- The last approval of a new administrator comes when no other pending proposal has the approval
of the replaced one. -/
def Meets (c : Config W) : Action → Prop
  | .createProposal .. => c.state.nextProposalId + 1 < 2 ^ 64
  | .approveProposal invocator proposalId => isMultisigAdmin c.state invocator →
      ∀ i, findProposal c.state proposalId = some i → (c.state.proposals i).executed = false →
        invocator ∉ (c.state.proposals i).approvers →
        c.state.requiredApprovals ≤ ((c.state.proposals i).approvalsCount + 1) % 2 ^ 8 →
        (c.state.proposals i).proposalType = PROPOSAL_SET_ADMIN →
        isMultisigAdmin c.state (c.state.proposals i).targetAddress = false →
        ∀ j ≠ i, (c.state.proposals j).Pending →
          (c.state.proposals i).oldAddress ∉ (c.state.proposals j).approvers
  | _ => True

def Run (ok : Config W → Action → Prop) : Config W → Config W → Prop :=
  Relation.ReflTransGen fun c c' => ∃ a, Step qpi c a c' ∧ ok c a

/-- Enough administrators approved the proposal, which was open. -/
def Authorized (c c' : Config W) (proposalId : Nat) : Prop :=
  (∃ approvers : List M256i, approvers.Nodup ∧ c.state.requiredApprovals ≤ approvers.length ∧
    ∀ x ∈ approvers, isMultisigAdmin c.state x ∧ (proposalId, x) ∈ c'.history.approvals) ∧
  proposalId ∉ c.history.executed ∧ proposalId ∉ c.history.cancelled

end

/-! ## What an approval does -/

section

variable {W : Type} {qpi : Qpi W} {s s₁ : State} {w : W} {p : AdminProposal} {x invocator : M256i}
  {i proposalId : Nat}

lemma isMultisigAdmin_iff : isMultisigAdmin s x ↔ ∃ i < s.numberOfAdmins, s.admins i = x := by
  simp [isMultisigAdmin]

lemma findProposal_spec (h : findProposal s proposalId = some i) :
    (s.proposals i).proposalId = proposalId ∧ (s.proposals i).active := by
  simpa using List.find?_some h

/-- An action leaves the proposals alone, and only the administrator that it replaces goes. -/
structure CarriedOut (p : AdminProposal) (s s₁ : State) : Prop where
  proposals : s₁.proposals = s.proposals
  nextProposalId : s₁.nextProposalId = s.nextProposalId
  numberOfAdmins : s₁.numberOfAdmins = s.numberOfAdmins
  required : s.requiredApprovals ≤ s.numberOfAdmins → s₁.requiredApprovals ≤ s.numberOfAdmins
  admins : ∀ x, isMultisigAdmin s x →
    (p.proposalType = PROPOSAL_SET_ADMIN → isMultisigAdmin s p.targetAddress = false →
      x ≠ p.oldAddress) → isMultisigAdmin s₁ x

lemma CarriedOut.of_same (hproposals : s₁.proposals = s.proposals)
    (hnext : s₁.nextProposalId = s.nextProposalId) (hnumber : s₁.numberOfAdmins = s.numberOfAdmins)
    (hrequired : s₁.requiredApprovals = s.requiredApprovals) (hadmins : s₁.admins = s.admins) :
    CarriedOut p s s₁ := by
  refine ⟨hproposals, hnext, hnumber, fun h => hrequired ▸ h, fun x hx _ => ?_⟩
  rw [isMultisigAdmin, hadmins, hnumber]
  exact hx

lemma carriedOut_setAdmin (htype : p.proposalType = PROPOSAL_SET_ADMIN) :
    CarriedOut p s (setAdmin p s).2 := by
  unfold setAdmin
  split
  · exact .of_same rfl rfl rfl rfl rfl
  next hnew =>
  split
  · exact .of_same rfl rfl rfl rfl rfl
  next k hk =>
    refine ⟨rfl, rfl, rfl, id, fun x hx hold => ?_⟩
    obtain ⟨j, hj, rfl⟩ := isMultisigAdmin_iff.mp hx
    have hold' : s.admins k = p.oldAddress := by simpa using List.find?_some hk
    have hjk : j ≠ k := fun heq => hold htype (by simpa using hnew) (heq ▸ hold')
    exact isMultisigAdmin_iff.mpr ⟨j, hj, update_of_ne hjk _ _⟩

lemma carryOut_spec (qpi : Qpi W) (p : AdminProposal) (s : State) (w : W) :
    CarriedOut p s (carryOut qpi p s w).2.1 ∧
      ((carryOut qpi p s w).1 = false → (carryOut qpi p s w).2.1 = s) := by
  unfold carryOut
  split_ifs with hset
  · refine ⟨carriedOut_setAdmin hset, ?_⟩
    unfold setAdmin
    split_ifs
    · exact fun _ => rfl
    · split <;> simp
  · unfold addManager
    split_ifs
    · exact ⟨.of_same rfl rfl rfl rfl rfl, fun _ => rfl⟩
    · split <;> exact ⟨.of_same rfl rfl rfl rfl rfl, by simp⟩
  · unfold removeManager
    split <;> exact ⟨.of_same rfl rfl rfl rfl rfl, by simp⟩
  · unfold withdrawFees
    dsimp only
    split_ifs <;> exact ⟨.of_same rfl rfl rfl rfl rfl, by simp⟩
  · unfold changeThreshold
    split_ifs with hamount
    · refine ⟨⟨rfl, rfl, rfl, fun _ => ?_, fun _ hx _ => hx⟩, nofun⟩
      exact (Nat.mod_le _ _).trans hamount.2
    · exact ⟨.of_same rfl rfl rfl rfl rfl, fun _ => rfl⟩
  · exact ⟨.of_same rfl rfl rfl rfl rfl, fun _ => rfl⟩

/-- The three ways in which an approval is taken. -/
lemma addApproval_cases (qpi : Qpi W) (invocator : M256i) (i : Nat) (s : State) (w : W) :
    addApproval qpi invocator i s w =
        ⟨none, false, s.setProposal i ((s.proposals i).approve invocator), w⟩ ∧
      ((s.proposals i).approve invocator).approvalsCount < s.requiredApprovals ∨
    (∃ s₁ w₁, addApproval qpi invocator i s w =
        ⟨none, true,
          s₁.setProposal i { (s.proposals i).approve invocator with executed := true }, w₁⟩ ∧
      s.requiredApprovals ≤ ((s.proposals i).approve invocator).approvalsCount ∧
      CarriedOut (s.proposals i) s s₁) ∨
    ∃ w₁, addApproval qpi invocator i s w = ⟨some .invalidOrderState, false,
      s.setProposal i { (s.proposals i).approve invocator with active := false }, w₁⟩ := by
  unfold addApproval
  dsimp only
  obtain ⟨hout, hfail⟩ := carryOut_spec qpi ((s.proposals i).approve invocator) s w
  generalize carryOut qpi ((s.proposals i).approve invocator) s w = r at hout hfail
  split_ifs with hcount hsucceeded
  · refine .inr (.inl ⟨r.2.1, r.2.2, rfl, hcount, ?_⟩)
    exact { hout with }
  · rw [hfail (by simpa using hsucceeded)]
    exact .inr (.inr ⟨r.2.2, rfl⟩)
  · exact .inl ⟨rfl, not_le.mp hcount⟩

/-- An approval is refused without effect, or taken from an administrator who has not approved. -/
lemma approveProposal_cases (qpi : Qpi W) (invocator : M256i) (proposalId : Nat) (s : State)
    (w : W) :
    (∃ e ≠ .invalidOrderState,
      approveProposal qpi invocator proposalId s w = ⟨some e, false, s, w⟩) ∨
    ∃ i, findProposal s proposalId = some i ∧ isMultisigAdmin s invocator ∧
      (s.proposals i).executed = false ∧ invocator ∉ (s.proposals i).approvers ∧
      approveProposal qpi invocator proposalId s w = addApproval qpi invocator i s w := by
  unfold approveProposal
  split_ifs with hadmin
  · exact .inl ⟨_, by decide, rfl⟩
  split
  · exact .inl ⟨_, by decide, rfl⟩
  next i hi =>
  split_ifs with hexecuted hbefore
  · exact .inl ⟨_, by decide, rfl⟩
  · exact .inl ⟨_, by decide, rfl⟩
  · exact .inr ⟨i, hi, by simpa using hadmin, by simpa using hexecuted, hbefore, rfl⟩

lemma approve_count (h : p.approvalsCount ≤ 2) :
    (p.approve x).approvalsCount = p.approvalsCount + 1 :=
  Nat.mod_eq_of_lt (by omega)

lemma approvers_approve (h : p.approvalsCount ≤ 2) :
    (p.approve x).approvers = p.approvers ++ [x] := by
  rw [AdminProposal.approvers, approve_count h, range_succ, map_append]
  refine congrArg₂ _ (map_congr_left fun j hj => ?_) ?_
  · have hlt := mem_range.mp hj
    exact update_of_ne (by omega) _ _
  · simp [AdminProposal.approve]

end

/-! ## Runs -/

section

variable {W : Type} {qpi : Qpi W} {s s' : State} {h h' : History} {p : AdminProposal}
  {c c' : Config W}

/-- What holds of a pending proposal: its approvers are administrators. -/
structure Sound (s : State) (h : History) (p : AdminProposal) : Prop where
  count : p.approvalsCount ≤ 2
  nodup : p.approvers.Nodup
  admins : ∀ x ∈ p.approvers, isMultisigAdmin s x
  recorded : ∀ x ∈ p.approvers, (p.proposalId, x) ∈ h.approvals
  notExecuted : p.proposalId ∉ h.executed
  notCancelled : p.proposalId ∉ h.cancelled

structure Inv (c : Config W) : Prop where
  numberOfAdmins : c.state.numberOfAdmins = 3
  required : c.state.requiredApprovals ≤ c.state.numberOfAdmins
  pending : ∀ i, (c.state.proposals i).Pending → Sound c.state c.history (c.state.proposals i)
  unique : ∀ i j, (c.state.proposals i).active → (c.state.proposals j).active →
    (c.state.proposals i).proposalId = (c.state.proposals j).proposalId → i = j
  lt : ∀ i, (c.state.proposals i).active → (c.state.proposals i).proposalId < c.state.nextProposalId
  executed_lt : ∀ id ∈ c.history.executed, id < c.state.nextProposalId
  cancelled_lt : ∀ id ∈ c.history.cancelled, id < c.state.nextProposalId

lemma Sound.mono (hp : Sound s h p)
    (hadmins : ∀ x ∈ p.approvers, isMultisigAdmin s x → isMultisigAdmin s' x)
    (happrovals : h.approvals ⊆ h'.approvals) (hexecuted : p.proposalId ∉ h'.executed)
    (hcancelled : p.proposalId ∉ h'.cancelled) : Sound s' h' p :=
  ⟨hp.count, hp.nodup, fun x hx => hadmins x hx (hp.admins x hx),
    fun x hx => happrovals (hp.recorded x hx), hexecuted, hcancelled⟩

/-- A proposal is written to a slot: one that was there before, or one with a new number. -/
lemma Inv.setSlot (hinv : Inv c) {i : Nat}
    (hproposals : c'.state.proposals = update c.state.proposals i p)
    (hne : ∀ j ≠ i, (c.state.proposals j).active → (c.state.proposals j).proposalId ≠ p.proposalId)
    (hnext : c.state.nextProposalId ≤ c'.state.nextProposalId)
    (hlt : p.proposalId < c'.state.nextProposalId)
    (hnumber : c'.state.numberOfAdmins = c.state.numberOfAdmins)
    (hrequired : c'.state.requiredApprovals ≤ c.state.numberOfAdmins)
    (hp : p.Pending → Sound c'.state c'.history p)
    (hothers : ∀ j ≠ i, (c.state.proposals j).Pending →
      Sound c'.state c'.history (c.state.proposals j))
    (hexecuted : ∀ id ∈ c'.history.executed, id ∈ c.history.executed ∨ id = p.proposalId)
    (hcancelled : ∀ id ∈ c'.history.cancelled, id ∈ c.history.cancelled ∨ id = p.proposalId) :
    Inv c' := by
  have hself : c'.state.proposals i = p := by rw [hproposals, update_self]
  have hother : ∀ j ≠ i, c'.state.proposals j = c.state.proposals j := fun j hj => by
    rw [hproposals, update_of_ne hj]
  refine ⟨hnumber.trans hinv.numberOfAdmins, hnumber ▸ hrequired, fun j hj => ?_,
    fun j k hj hk heq => ?_, fun j hj => ?_, fun id hmem => ?_, fun id hmem => ?_⟩
  · obtain rfl | hji := eq_or_ne j i
    · rw [hself] at hj ⊢
      exact hp hj
    · rw [hother j hji] at hj ⊢
      exact hothers j hji hj
  · obtain rfl | hji := eq_or_ne j i <;> obtain rfl | hki := eq_or_ne k j
    · rfl
    · rw [hother k hki] at hk heq
      exact absurd (heq.symm.trans (congrArg _ hself)) (hne k hki hk)
    · rfl
    · rw [hother j hji] at hj heq
      obtain rfl | hki' := eq_or_ne k i
      · exact absurd (heq.trans (congrArg _ hself)) (hne j hji hj)
      · rw [hother k hki'] at hk heq
        exact hinv.unique j k hj hk heq
  · obtain rfl | hji := eq_or_ne j i
    · rw [hself]
      exact hlt
    · rw [hother j hji] at hj ⊢
      exact (hinv.lt j hj).trans_le hnext
  · obtain hold | rfl := hexecuted id hmem
    · exact (hinv.executed_lt id hold).trans_le hnext
    · exact hlt
  · obtain hold | rfl := hcancelled id hmem
    · exact (hinv.cancelled_lt id hold).trans_le hnext
    · exact hlt

lemma Inv.init (feeRecipient manager admin₁ admin₂ admin₃ : M256i) (w : W) :
    Inv ⟨State.init feeRecipient manager admin₁ admin₂ admin₃, w, ⟨[], [], []⟩⟩ where
  numberOfAdmins := rfl
  required := Nat.le_succ 2
  pending := fun _ hi => nomatch hi.1
  unique := fun _ _ hi => nomatch hi
  lt := fun _ hi => nomatch hi
  executed_lt := nofun
  cancelled_lt := nofun

lemma createProposal_cases (invocator : M256i) (input : CreateProposalInput) (s : State) :
    (∃ e, createProposal invocator input s = (some e, s)) ∨
    ∃ i, isMultisigAdmin s invocator ∧ createProposal invocator input s =
      (none, { s.setProposal i (newProposal s invocator input) with
        nextProposalId := (s.nextProposalId + 1) % 2 ^ 64 }) := by
  unfold createProposal
  split_ifs with hadmin hvalid
  · exact .inl ⟨_, rfl⟩
  · exact .inl ⟨_, rfl⟩
  split
  · exact .inl ⟨_, rfl⟩
  next i hi => exact .inr ⟨i, by simpa using hadmin, rfl⟩

lemma Inv.createProposal (hinv : Inv c) (invocator : M256i) (input : CreateProposalInput)
    (hmeets : c.state.nextProposalId + 1 < 2 ^ 64)
    (hstep : Step qpi c (.createProposal invocator input) c') : Inv c' := by
  cases hstep
  unfold afterCreation
  dsimp only
  obtain ⟨e, he⟩ | ⟨i, hadmin, he⟩ := createProposal_cases invocator input c.state
  · rw [he, if_neg (Option.some_ne_none e)]
    exact hinv
  rw [he, if_pos rfl, Nat.mod_eq_of_lt hmeets]
  have happrovers : (newProposal c.state invocator input).approvers = [invocator] := rfl
  refine hinv.setSlot rfl (fun j _ hj => Nat.ne_of_lt (hinv.lt j hj)) (Nat.le_succ _)
    (Nat.lt_succ_self _) rfl hinv.required (fun _ => ⟨Nat.le_succ 1, ?_, ?_, ?_, ?_, ?_⟩)
    (fun j _ hj => ?_) (fun _ => .inl) fun _ => .inl
  · exact nodup_singleton _
  · rintro x hx
    exact mem_singleton.mp hx ▸ hadmin
  · rintro x hx
    exact mem_singleton.mp hx ▸ mem_cons_self
  · exact fun hmem => absurd (hinv.executed_lt _ hmem) (lt_irrefl _)
  · exact fun hmem => absurd (hinv.cancelled_lt _ hmem) (lt_irrefl _)
  · have hsound := hinv.pending j hj
    exact hsound.mono (fun _ _ hx => hx) (subset_cons_self _ _) hsound.notExecuted
      hsound.notCancelled

lemma Inv.ne_of_active (hinv : Inv c) {i j : Nat} (hi : (c.state.proposals i).active)
    (hji : j ≠ i) (hj : (c.state.proposals j).active) :
    (c.state.proposals j).proposalId ≠ (c.state.proposals i).proposalId :=
  fun heq => hji (hinv.unique j i hj hi heq)

lemma cancelProposal_cases (invocator : M256i) (proposalId : Nat) (s : State) :
    (∃ e, cancelProposal invocator proposalId s = (some e, s)) ∨
    ∃ i, findProposal s proposalId = some i ∧ cancelProposal invocator proposalId s =
      (none, s.setProposal i { s.proposals i with active := false }) := by
  unfold cancelProposal
  split
  · exact .inl ⟨_, rfl⟩
  next i hi =>
  split_ifs
  · exact .inl ⟨_, rfl⟩
  · exact .inl ⟨_, rfl⟩
  · exact .inr ⟨i, hi, rfl⟩

lemma Inv.cancelProposal (hinv : Inv c) (invocator : M256i) (proposalId : Nat)
    (hstep : Step qpi c (.cancelProposal invocator proposalId) c') : Inv c' := by
  cases hstep
  obtain ⟨e, he⟩ | ⟨i, hi, he⟩ := cancelProposal_cases invocator proposalId c.state
  · rw [he, if_neg (Option.some_ne_none e)]
    exact hinv
  obtain ⟨rfl, hactive⟩ := findProposal_spec hi
  rw [he, if_pos rfl]
  refine hinv.setSlot rfl (fun j hji hj => hinv.ne_of_active hactive hji hj) le_rfl
    (hinv.lt i hactive) rfl hinv.required (fun hp => nomatch hp.1) (fun j hji hj => ?_)
    (fun _ => .inl) fun id hmem => (mem_cons.mp hmem).symm
  have hsound := hinv.pending j hj
  refine hsound.mono (fun _ _ hx => hx) (List.Subset.refl _) hsound.notExecuted fun hmem => ?_
  obtain heq | hold := mem_cons.mp hmem
  · exact hinv.ne_of_active hactive hji hj.1 heq
  · exact hsound.notCancelled hold

lemma Sound.approve {invocator : M256i} (hp : Sound s h p)
    (hadmin : isMultisigAdmin s invocator) (hnew : invocator ∉ p.approvers) :
    (p.approve invocator).approvalsCount = (p.approve invocator).approvers.length ∧
      (p.approve invocator).approvers.Nodup ∧
      ∀ x ∈ (p.approve invocator).approvers, isMultisigAdmin s x ∧
        (p.proposalId, x) ∈ (p.proposalId, invocator) :: h.approvals := by
  refine ⟨by simp [AdminProposal.approvers], ?_, fun x hx => ?_⟩
  · rw [approvers_approve hp.count]
    exact hp.nodup.append (nodup_singleton _) (disjoint_singleton.mpr hnew)
  · rw [approvers_approve hp.count] at hx
    obtain hx | hx := mem_append.mp hx
    · exact ⟨hp.admins x hx, mem_cons_of_mem _ (hp.recorded x hx)⟩
    · obtain rfl := mem_singleton.mp hx
      exact ⟨hadmin, mem_cons_self⟩

/-- What an approval leads to: an action is authorized, and the invariant is kept if the condition
is met. -/
lemma Inv.approveProposal (hinv : Inv c) (invocator : M256i) (proposalId : Nat) :
    ((approveProposal qpi invocator proposalId c.state c.world).executed →
      Authorized c (afterApproval qpi c invocator proposalId) proposalId) ∧
    (Meets c (.approveProposal invocator proposalId) →
      Inv (afterApproval qpi c invocator proposalId)) := by
  unfold afterApproval Meets
  obtain ⟨e, hne, he⟩ | ⟨i, hi, hadmin, hexecuted, hnew, he⟩ :=
    approveProposal_cases qpi invocator proposalId c.state c.world
  · rw [he]
    refine ⟨nofun, fun _ => ?_⟩
    have hkept : (⟨some e, false, c.state, c.world⟩ : Approval W).history invocator proposalId
        c.history = c.history := by
      simp [Approval.history, hne]
    simpa only [hkept] using hinv
  obtain ⟨rfl, hactive⟩ := findProposal_spec hi
  have hsound := hinv.pending i ⟨hactive, hexecuted⟩
  obtain ⟨hcount, hnodup, happrovers⟩ := hsound.approve hadmin hnew
  have hothers : ∀ j ≠ i, (c.state.proposals j).Pending →
      (c.state.proposals j).proposalId ≠ (c.state.proposals i).proposalId :=
    fun j hji hj => hinv.ne_of_active hactive hji hj.1
  have hsub := subset_cons_self ((c.state.proposals i).proposalId, invocator) c.history.approvals
  rw [he]
  obtain ⟨ha, hbelow⟩ | ⟨s₁, w₁, ha, hreached, hout⟩ | ⟨w₁, ha⟩ :=
    addApproval_cases qpi invocator i c.state c.world
  · rw [ha]
    refine ⟨nofun, fun _ => hinv.setSlot rfl (fun j hji hj => hinv.ne_of_active hactive hji hj)
      le_rfl (hinv.lt i hactive) rfl hinv.required (fun _ => ⟨?_, hnodup,
        fun x hx => (happrovers x hx).1, fun x hx => (happrovers x hx).2, hsound.notExecuted,
        hsound.notCancelled⟩) (fun j hji hj => ?_) (fun _ => .inl) fun _ => .inl⟩
    · have hrequired := hinv.required
      rw [hinv.numberOfAdmins] at hrequired
      omega
    · have hsound' := hinv.pending j hj
      exact hsound'.mono (fun _ _ hx => hx) hsub hsound'.notExecuted hsound'.notCancelled
  · rw [ha]
    refine ⟨fun _ => ⟨⟨_, hnodup, hcount ▸ hreached, happrovers⟩, hsound.notExecuted,
      hsound.notCancelled⟩, fun hmeets => ?_⟩
    refine hinv.setSlot (p := { (c.state.proposals i).approve invocator with executed := true })
      (congrArg (update · i _) hout.proposals)
      (fun j hji hj => hinv.ne_of_active hactive hji hj) hout.nextProposalId.ge
      (hout.nextProposalId ▸ hinv.lt i hactive) hout.numberOfAdmins (hout.required hinv.required)
      (fun hp => nomatch hp.2) (fun j hji hj => ?_)
      (fun id hmem => (mem_cons.mp hmem).symm) fun _ => .inl
    have hsound' := hinv.pending j hj
    refine hsound'.mono (fun x hx hx' => ?_) hsub (fun hmem => ?_) hsound'.notCancelled
    · refine hout.admins x hx' fun htype htarget heq => ?_
      exact hmeets hadmin i hi hexecuted hnew hreached htype htarget j hji hj (heq ▸ hx)
    · obtain heq | hold := mem_cons.mp hmem
      · exact hothers j hji hj heq
      · exact hsound'.notExecuted hold
  · rw [ha]
    refine ⟨nofun, fun _ => hinv.setSlot rfl (fun j hji hj => hinv.ne_of_active hactive hji hj)
      le_rfl (hinv.lt i hactive) rfl hinv.required (fun hp => nomatch hp.1) (fun j hji hj => ?_)
      (fun _ => .inl) fun _ => .inl⟩
    have hsound' := hinv.pending j hj
    exact hsound'.mono (fun _ _ hx => hx) hsub hsound'.notExecuted hsound'.notCancelled

lemma Inv.step (hinv : Inv c) {a : Action} (hmeets : Meets c a) (hstep : Step qpi c a c') :
    Inv c' := by
  cases a with
  | createProposal invocator input => exact hinv.createProposal invocator input hmeets hstep
  | approveProposal invocator proposalId =>
    cases hstep
    exact (hinv.approveProposal invocator proposalId).2 hmeets
  | cancelProposal invocator proposalId => exact hinv.cancelProposal invocator proposalId hstep
  | other =>
    cases hstep
    exact
      { hinv with
        pending := fun i hi => (hinv.pending i hi).mono (fun _ _ hx => hx) (List.Subset.refl _)
          (hinv.pending i hi).notExecuted (hinv.pending i hi).notCancelled }

lemma Inv.run (hinv : Inv c) (hrun : Run qpi Meets c c') : Inv c' := by
  induction hrun with
  | refl => exact hinv
  | tail _ hstep ih =>
    obtain ⟨a, hstep, hmeets⟩ := hstep
    exact ih.step hmeets hstep

/-- In every run in which no administrator is replaced whose approval is pending, an action is
carried out only with the approvals of enough administrators, once, and not after its
cancellation. -/
theorem actions_authorized (feeRecipient manager admin₁ admin₂ admin₃ : M256i) (w : W)
    (hrun : Run qpi Meets
      ⟨State.init feeRecipient manager admin₁ admin₂ admin₃, w, ⟨[], [], []⟩⟩ c)
    (invocator : M256i) (proposalId : Nat)
    (hexecuted : (approveProposal qpi invocator proposalId c.state c.world).executed) :
    Authorized c (afterApproval qpi c invocator proposalId) proposalId :=
  (((Inv.init feeRecipient manager admin₁ admin₂ admin₃ w).run hrun).approveProposal invocator
    proposalId).1 hexecuted

end

/-! ## An administrator who is replaced -/

def idleQpi : Qpi Unit where
  transfer _ _ _ := (0, ())
  burn _ _ := (0, ())
  distributeDividends _ _ := (false, ())
  isAssetIssued _ _ _ := false
  issueAsset _ _ _ _ _ _ := (0, ())
  numberOfPossessedShares _ _ _ _ _ _ _ := 0
  transferShareOwnershipAndPossession _ _ _ _ _ _ _ := (0, ())
  releaseShares _ _ _ _ _ _ _ _ _ := (0, ())

def threeAdmins : Config Unit := ⟨State.init ⟨100⟩ ⟨1⟩ ⟨1⟩ ⟨2⟩ ⟨3⟩, (), ⟨[], [], []⟩⟩

def managerProposed : Config Unit := afterCreation threeAdmins ⟨1⟩ ⟨PROPOSAL_ADD_MANAGER, ⟨9⟩, 0, 0⟩

theorem actions_authorized_managerProposed :
    (approveProposal idleQpi ⟨2⟩ 1 managerProposed.state ()).executed ∧
      Authorized managerProposed (afterApproval idleQpi managerProposed ⟨2⟩ 1) 1 := by
  have hmeets : Meets threeAdmins
      (.createProposal ⟨1⟩ ⟨PROPOSAL_ADD_MANAGER, ⟨9⟩, 0, 0⟩) := by
    change (1 : Nat) + 1 < 2 ^ 64
    decide
  have hexecuted : (approveProposal idleQpi ⟨2⟩ 1 managerProposed.state ()).executed := rfl
  exact ⟨hexecuted, actions_authorized ⟨100⟩ ⟨1⟩ ⟨1⟩ ⟨2⟩ ⟨3⟩ ()
    (.single ⟨_, .createProposal ⟨1⟩ _, hmeets⟩) ⟨2⟩ 1 hexecuted⟩

def adminReplaced : Config Unit :=
  afterApproval idleQpi
    (afterCreation managerProposed ⟨2⟩ ⟨PROPOSAL_SET_ADMIN, ⟨4⟩, ⟨1⟩, 0⟩) ⟨3⟩ 2

/-- The manager is added with the approval of one administrator where two are required. -/
theorem replaced_admin_counts :
    Run idleQpi (fun _ _ => True) threeAdmins adminReplaced ∧
      (approveProposal idleQpi ⟨2⟩ 1 adminReplaced.state ()).executed ∧
      ¬Authorized adminReplaced (afterApproval idleQpi adminReplaced ⟨2⟩ 1) 1 := by
  refine ⟨?_, rfl, ?_⟩
  · have hproposed : Run idleQpi (fun _ _ => True) threeAdmins managerProposed :=
      .single ⟨_, .createProposal ⟨1⟩ _, trivial⟩
    exact (hproposed.tail ⟨_, .createProposal ⟨2⟩ _, trivial⟩).tail
      ⟨_, .approveProposal ⟨3⟩ 2, trivial⟩
  · rintro ⟨⟨approvers, hnodup, hlength, happrovers⟩, -⟩
    have hhistory : (afterApproval idleQpi adminReplaced ⟨2⟩ 1).history.approvals =
        [(1, ⟨2⟩), (2, ⟨3⟩), (2, ⟨2⟩), (1, ⟨1⟩)] := rfl
    have hsub : approvers ⊆ [⟨2⟩] := by
      intro x hx
      obtain ⟨hadmin, hmem⟩ := happrovers x hx
      rw [hhistory] at hmem
      obtain rfl | rfl : x = ⟨2⟩ ∨ x = ⟨1⟩ := by simpa using hmem
      · exact mem_singleton_self _
      · exact absurd hadmin (by decide)
    have hone := (hnodup.subperm hsub).length_le
    have htwo : adminReplaced.state.requiredApprovals = 2 := rfl
    rw [length_singleton] at hone
    omega

end QubicCore.Contracts.VottunBridge
