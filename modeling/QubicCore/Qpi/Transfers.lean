import QubicCore.Library.Outcome
import QubicCore.MathLib
import QubicCore.Node
import QubicCore.Spectrum.Operations

/-!
# `qpi.transfer` and `qpi.burn`

A running contract sends an amount to an entity, or burns it for the fee reserve of a contract. Both
look up the slot of the contract, compare its energy with the amount and debit it. The callback
`POST_INCOMING_TRANSFER` of a contract that receives an amount is a parameter.
-/

namespace QubicCore.Qpi.Transfers

open Library Spectrum MathLib Outcome EntityRecord

inductive TransferType where
  | standardTransaction
  | procedureTransaction
  | qpiTransfer
  | qpiDistributeDividends
  | revenueDonation
  | ipoBidRefund
  | procedureInvocationByOtherContract
deriving DecidableEq

def INVALID_AMOUNT : Int := -2 ^ 63

structure QuTransfer where
  (sourcePublicKey destinationPublicKey : M256i)
  amount : Int
deriving DecidableEq

/-- The node and the actions tracked since the procedure was invoked. -/
structure World where
  node : Node
  actions : List QuTransfer

structure PostIncomingTransferInput where
  sourceId : M256i
  amount : Int
  type : TransferType

structure ExecEnv extends Env where
  maxActions : Nat
  /-- `contractSystemProcedures[contractIndex][POST_INCOMING_TRANSFER]` -/
  postIncomingTransfer : Nat → Option (PostIncomingTransferInput → World →
    Outcome ContractError World)

structure Context where
  currentContractIndex : Nat
  currentContractId : M256i
  /-- `contractCallbacksRunning & ContractCallbackPostIncomingTransfer` -/
  postIncomingTransferRunning : Bool

section

variable (env : ExecEnv) (ctx : Context)

def getEntity (s : Spectrum) (id : M256i) : Option (Bool × EntityRecord) := do
  let index ← spectrumIndex env.spectrumDepth s id
  return if index < 0 then (false, { zero with publicKey := id })
    else (true, s.spectrum index.toNat)

variable (w : World)

def addToContractFeeReserve (contractIndex : Nat) (addAmount : Int) : World :=
  let amount := if addAmount > INT64_MAX then INT64_MAX else addAmount
  { w with
    node.contractFeeReserves :=
      Function.update w.node.contractFeeReserves contractIndex
        (sadd (w.node.contractFeeReserves contractIndex) amount) }

/-- The contract whose reserve is filled: the running one if the index is not one of a contract. -/
def burnedFor (contractIndexBurnedFor : Nat) : Nat :=
  if contractIndexBurnedFor < 1 ∨ contractIndexBurnedFor ≥ env.contractCount then
    ctx.currentContractIndex
  else contractIndexBurnedFor

def burn (amount : Int) (contractIndexBurnedFor : Nat) : Outcome ContractError (Int × World) :=
  if amount < 0 ∨ amount > MAX_AMOUNT then pure (-(MAX_AMOUNT + 1), w)
  else do
    let index ← .ofOption (spectrumIndex env.spectrumDepth w.node.spectrum ctx.currentContractId)
    if index < 0 then pure (-amount, w)
    else
      let contractIndex := burnedFor env ctx contractIndexBurnedFor
      if w.node.contractError contractIndex = .ipoFailed then pure (-amount, w)
      else
        let remainingAmount := sint64 (energy w.node.spectrum index.toNat - amount)
        if remainingAmount < 0 then pure (remainingAmount, w)
        else
          let (decreased, s) := decreaseEnergy env.tick w.node.spectrum index.toNat amount
          pure (remainingAmount, if decreased then
            addToContractFeeReserve { w with node.spectrum := s } contractIndex
              (uint64 amount) else w)

def canRun (n : Node) (contractIndex : Nat) : Bool :=
  n.contractError contractIndex = .noContractError ∧
    (env.contractDescriptions contractIndex).constructionEpoch ≤ env.epoch ∧
    env.epoch < (env.contractDescriptions contractIndex).destructionEpoch

def qpiNotifyPostIncomingTransfer (source dest : M256i) (amount : Int)
    (type : TransferType) : Outcome ContractError World :=
  if !isPublicKeyOfContract env.toEnv dest ∨ amount ≤ 0 then pure w
  else match env.postIncomingTransfer (contractIndexOf dest) with
    | none => pure w
    | some procedure =>
      if canRun env w.node (contractIndexOf dest) then procedure ⟨source, amount, type⟩ w
      else pure w

variable (destination : M256i)

/-- What follows a successful debit in `__transfer`. -/
def deliver (amount : Int) (transferType : TransferType) :
    Outcome ContractError World := do
  let s ← .ofOption (increaseEnergy env.spectrumDepth env.k12 env.tick w.node.spectrum
    destination amount)
  if w.actions.length = env.maxActions then .aborted .tooManyActions
  else
    qpiNotifyPostIncomingTransfer env
      { node := { w.node with spectrum := s }
        actions := w.actions ++ [⟨ctx.currentContractId, destination, amount⟩] }
      ctx.currentContractId destination amount transferType

/-- The function `__transfer`. -/
def transferOfType (amount : Int)
    (transferType : TransferType) : Outcome ContractError (Int × World) :=
  if ctx.postIncomingTransferRunning && isPublicKeyOfContract env.toEnv destination then
    pure (INVALID_AMOUNT, w)
  else if isPublicKeyOfContract env.toEnv destination &&
      !canRun env w.node (contractIndexOf destination) then pure (INVALID_AMOUNT, w)
  else if amount < 0 ∨ amount > MAX_AMOUNT then pure (-(MAX_AMOUNT + 1), w)
  else do
    let index ← .ofOption (spectrumIndex env.spectrumDepth w.node.spectrum ctx.currentContractId)
    if index < 0 then pure (-amount, w)
    else
      let remainingAmount := sint64 (energy w.node.spectrum index.toNat - amount)
      if remainingAmount < 0 then pure (remainingAmount, w)
      else
        let (decreased, s) := decreaseEnergy env.tick w.node.spectrum index.toNat amount
        if decreased then
          let w ← deliver env ctx { w with node.spectrum := s } destination amount
            transferType
          pure (remainingAmount, w)
        else pure (remainingAmount, w)

def transfer (amount : Int) : Outcome ContractError (Int × World) :=
  transferOfType env ctx w destination amount .qpiTransfer

/-! ## What a call moves -/

inductive Call where
  | transfer (destination : M256i) (amount : Int)
  | burn (amount : Int) (contractIndexBurnedFor : Nat)

def Call.run : Call → Outcome ContractError (Int × World)
  | .transfer destination amount => Transfers.transfer env ctx w destination amount
  | .burn amount contractIndexBurnedFor => Transfers.burn env ctx w amount contractIndexBurnedFor

def Call.amount : Call → Int
  | .transfer _ amount => amount
  | .burn amount _ => amount

/-- The balance of an entity; zero if it does not exist. -/
def balanceOf (id : M256i) : Int :=
  match getEntity env w.node.spectrum id with
  | some (_, entity) => entity.balance
  | none => 0

/-- The entity that receives the amount of a transfer; a transfer to the zero id has none. -/
def Call.recipient : Call → Option M256i
  | .transfer destination _ => if destination = 0 then none else some destination
  | .burn .. => none

def Call.reserve : Call → Option Nat
  | .transfer .. => none
  | .burn _ contractIndexBurnedFor => some (burnedFor env ctx contractIndexBurnedFor)

/-- The amount of the call left the balance of the contract and arrived where it should, and
nothing else changed. -/
structure Call.Moved (call : Call) (w w' : World) : Prop where
  balance : ∀ id, balanceOf env w' id = balanceOf env w id -
    (if id = ctx.currentContractId then call.amount else 0) +
    (if some id = call.recipient then call.amount else 0)
  feeReserve : ∀ i, w'.node.contractFeeReserves i = w.node.contractFeeReserves i +
    (if some i = call.reserve env ctx then call.amount else 0)
  entity : ∀ id ≠ ctx.currentContractId, some id ≠ call.recipient →
    getEntity env w'.node.spectrum id = getEntity env w.node.spectrum id
  assets : w'.node.assets = w.node.assets
  ipos : w'.node.ipos = w.node.ipos
  contractError : w'.node.contractError = w.node.contractError

/-- A negative result means that nothing happened, any other result is the remaining balance
after the amount has been moved. -/
def Call.Accounted (call : Call) (w : World) (out : Int × World) : Prop :=
  (out.1 < 0 → out.2 = w) ∧
    (0 ≤ out.1 → call.Moved env ctx w out.2 ∧ out.1 = balanceOf env out.2 ctx.currentContractId)

/-- No dust is burned, the receiver is another entity whose callback does nothing, and the fee
reserve does not saturate. -/
def Call.Undisturbed : Call → Prop
  | .transfer destination _ => isCrowded env.spectrumDepth w.node.spectrum = false ∧
      destination ≠ ctx.currentContractId ∧
      ∀ procedure, env.postIncomingTransfer (contractIndexOf destination) = some procedure →
        ∀ input w', procedure input w' = .returned w'
  | .burn amount contractIndexBurnedFor =>
      w.node.contractFeeReserves (burnedFor env ctx contractIndexBurnedFor) + amount ≤ INT64_MAX

def Call.EmptyBurnForFailedIPO : Call → Prop
  | .transfer .. => False
  | .burn amount contractIndexBurnedFor => amount = 0 ∧
      w.node.contractError (burnedFor env ctx contractIndexBurnedFor) = .ipoFailed ∧
      balanceOf env w ctx.currentContractId ≠ 0

end

/-! ## Entities -/

section

variable {env : ExecEnv} {c c' : Int} {s s' : Spectrum} {id : M256i} {w : World} {amount : Int}
  {r : Nat}

section

variable (h : Inv env.spectrumDepth c s)
include h

lemma getEntity_of_slot {i : Nat} (hi : i < 2 ^ env.spectrumDepth)
    (hid : (s.spectrum i).publicKey = id) (hne : id ≠ 0) :
    getEntity env s id = some (true, s.spectrum i) := by
  subst hid
  simp [getEntity, h.spectrumIndex_of_slot hi hne]

lemma getEntity_absent (habsent : id = 0 ∨ ¬Present env.spectrumDepth s.spectrum id) :
    getEntity env s id = some (false, { zero with publicKey := id }) := by
  obtain ⟨i, hi, hid, hne, -⟩ | ⟨-, hindex⟩ := h.spectrumIndex_cases id
  · exact absurd ⟨i, hi, hid⟩ (habsent.resolve_left hne)
  · simp [getEntity, hindex]

/-- An entity is found as before if the slots that hold its key, before or after, are the same. -/
lemma getEntity_congr (h' : Inv env.spectrumDepth c' s')
    (hsame : ∀ i < 2 ^ env.spectrumDepth, id ≠ 0 →
      (s.spectrum i).publicKey = id ∨ (s'.spectrum i).publicKey = id →
      s'.spectrum i = s.spectrum i) :
    getEntity env s' id = getEntity env s id := by
  by_cases hne : id = 0
  · rw [getEntity_absent h (.inl hne), getEntity_absent h' (.inl hne)]
  by_cases hp : Present env.spectrumDepth s.spectrum id
  · obtain ⟨i, hi, hid⟩ := hp
    have he := hsame i hi hne (.inl hid)
    rw [getEntity_of_slot h hi hid hne, getEntity_of_slot h' hi (he ▸ hid) hne, he]
  · have hp' : ¬Present env.spectrumDepth s'.spectrum id := by
      rintro ⟨i, hi, hid⟩
      exact hp ⟨i, hi, hsame i hi hne (.inr hid) ▸ hid⟩
    rw [getEntity_absent h (.inr hp), getEntity_absent h' (.inr hp')]

omit h in
lemma balanceOf_of_slot (h : Inv env.spectrumDepth c w.node.spectrum) {i : Nat}
    (hi : i < 2 ^ env.spectrumDepth) (hid : (w.node.spectrum.spectrum i).publicKey = id)
    (hne : id ≠ 0) : balanceOf env w id = (w.node.spectrum.spectrum i).balance := by
  simp [balanceOf, getEntity_of_slot h hi hid hne]

omit h in
lemma balanceOf_absent (h : Inv env.spectrumDepth c w.node.spectrum)
    (habsent : id = 0 ∨ ¬Present env.spectrumDepth w.node.spectrum.spectrum id) :
    balanceOf env w id = 0 := by
  simp [balanceOf, getEntity_absent h habsent, balance_eq_zero, zero]

omit h in
lemma balanceOf_congr {w' : World}
    (h : getEntity env w'.node.spectrum id = getEntity env w.node.spectrum id) :
    balanceOf env w' id = balanceOf env w id := by
  simp only [balanceOf, h]

lemma getEntity_withdrawal (h' : Inv env.spectrumDepth c' s')
    (hw : Withdrawal env.spectrumDepth s s' amount r) (hne : id ≠ (s.spectrum r).publicKey) :
    getEntity env s' id = getEntity env s id := by
  refine getEntity_congr h h' fun i _ _ hid => hw.other i ?_
  rintro rfl
  rw [hw.publicKey] at hid
  exact hne (hid.elim Eq.symm Eq.symm)

lemma getEntity_deposit {key : M256i} (h' : Inv env.spectrumDepth c' s')
    (hd : Deposit env.spectrumDepth s s' key amount r) (hne : id ≠ key) :
    getEntity env s' id = getEntity env s id := by
  refine getEntity_congr h h' fun i _ hz hid => hd.other i ?_
  rintro rfl
  obtain hold | hnew := hid
  · obtain hkey | ⟨hfree, -⟩ := hd.found
    · exact hne (hold.symm.trans hkey)
    · exact hz (hold.symm.trans hfree)
  · exact hne (hnew.symm.trans hd.publicKey)

end

/-- The receiver has the amount more than before, also if it did not exist. -/
lemma balanceOf_deposit {w' : World} {key : M256i} (h : Inv env.spectrumDepth c w.node.spectrum)
    (h' : Inv env.spectrumDepth c' w'.node.spectrum)
    (hd : Deposit env.spectrumDepth w.node.spectrum w'.node.spectrum key amount r)
    (hkey : key ≠ 0) : balanceOf env w' key = balanceOf env w key + amount := by
  rw [balanceOf_of_slot h' hd.lt hd.publicKey hkey, hd.balance]
  obtain hfound | ⟨hfree, habsent⟩ := hd.found
  · rw [balanceOf_of_slot h hd.lt hfound hkey]
  · obtain ⟨hin, hout⟩ := h.table.free r hd.lt hfree
    rw [balanceOf_absent h (.inr habsent), balance_eq_zero (hin.trans hout.symm)]

end

/-! ## The exits of a call -/

section

variable {env : ExecEnv} {ctx : Context} {c : Int} {w : World} {i : Nat} {amount : Int}
  {s' : Spectrum} {destination : M256i}

lemma Call.Moved.of_zero {call : Call} (h : call.amount = 0) : call.Moved env ctx w w where
  balance := by simp [h]
  feeReserve := by simp [h]
  entity := fun _ _ _ => rfl
  assets := rfl
  ipos := rfl
  contractError := rfl

lemma Call.accounted_of_neg {call : Call} {r : Int} (hr : r < 0) :
    call.Accounted env ctx w (r, w) :=
  ⟨fun _ => rfl, fun h => absurd h (by simpa using hr)⟩

/-- An exit that returns the amount with its sign changed counts as a success for amount zero. -/
lemma Call.accounted_neg_amount_iff (call : Call) (hamount : 0 ≤ call.amount) :
    call.Accounted env ctx w (-call.amount, w) ↔
      (call.amount = 0 → balanceOf env w ctx.currentContractId = 0) := by
  constructor
  · intro h hz
    have := (h.2 (by simp [hz])).2
    simp only [hz] at this
    omega
  · intro h
    obtain hz | hpos := hamount.eq_or_lt
    · exact ⟨fun _ => rfl, fun _ => ⟨.of_zero hz.symm, by simp [h hz.symm, ← hz]⟩⟩
    · exact accounted_of_neg (by omega)

lemma sint64_remaining {s : Spectrum} {d : Nat} (h : Inv d c s) (hc : c < 2 ^ 63) (hi : i < 2 ^ d)
    (ha : 0 ≤ amount) (ha' : amount ≤ MAX_AMOUNT) :
    sint64 (energy s i - amount) = energy s i - amount := by
  have hle := h.balance_le hi
  have hpos := h.table.balance_nonneg i hi
  have hsupply := h.supply
  have hmax : MAX_AMOUNT < 2 ^ 63 := by decide
  exact sint64_eq (by unfold energy; omega) (by unfold energy; omega)

lemma sadd_of_le {a b : Int} (ha : INT64_MIN ≤ a) (hb : 0 ≤ b) (hab : a + b ≤ INT64_MAX) :
    sadd a b = a + b := by
  simp only [sadd, sint64, Int.bmod_def, INT64_MIN, INT64_MAX] at *
  split_ifs <;> omega

section

variable (h : Inv env.spectrumDepth c w.node.spectrum)
include h

lemma moved_burn {k : Nat} (hi : i < 2 ^ env.spectrumDepth)
    (hid : (w.node.spectrum.spectrum i).publicKey = ctx.currentContractId)
    (hne : ctx.currentContractId ≠ 0) (h' : Inv env.spectrumDepth c s')
    (hw : Withdrawal env.spectrumDepth w.node.spectrum s' amount i)
    (hreserve : INT64_MIN ≤ w.node.contractFeeReserves (burnedFor env ctx k)) (ha : 0 ≤ amount)
    (ha' : amount ≤ MAX_AMOUNT) (hq : (Call.burn amount k).Undisturbed env ctx w) :
    let w' := addToContractFeeReserve { w with node.spectrum := s' } (burnedFor env ctx k)
      (uint64 amount)
    (Call.burn amount k).Moved env ctx w w' ∧
      energy w.node.spectrum i - amount = balanceOf env w' ctx.currentContractId := by
  intro w'
  have hmax : MAX_AMOUNT < INT64_MAX := by decide
  have hu : uint64 amount = amount := uint64_eq ha (by unfold INT64_MAX at hmax; omega)
  have hother (id : M256i) (hid' : id ≠ ctx.currentContractId) :
      getEntity env w'.node.spectrum id = getEntity env w.node.spectrum id :=
    getEntity_withdrawal h h' hw (hid ▸ hid')
  have hself : balanceOf env w' ctx.currentContractId =
      balanceOf env w ctx.currentContractId - amount := by
    rw [balanceOf_of_slot h hi hid hne, ← hw.balance]
    exact balanceOf_of_slot h' hi (hw.publicKey.trans hid) hne
  refine ⟨⟨?_, ?_, fun id hid' _ => hother id hid', rfl, rfl, rfl⟩, ?_⟩
  · intro id
    by_cases hid' : id = ctx.currentContractId
    · simp [hid', Call.recipient, Call.amount, hself]
    · simp [hid', Call.recipient, balanceOf_congr (hother id hid')]
  · intro j
    have hsadd := sadd_of_le hreserve ha hq
    by_cases hj : j = burnedFor env ctx k
    · subst hj
      simp [w', addToContractFeeReserve, Call.reserve, Call.amount, hu, hsadd,
        not_lt.mpr (ha'.trans hmax.le)]
    · simp [w', addToContractFeeReserve, Call.reserve, hj]
  · rw [hself, balanceOf_of_slot h hi hid hne, energy]

lemma burn_accounted (hc : c < 2 ^ 63)
    (hreserves : ∀ i, INT64_MIN ≤ w.node.contractFeeReserves i) {k : Nat}
    (hq : (Call.burn amount k).Undisturbed env ctx w) :
    ∃ out, burn env ctx w amount k = .returned out ∧ ((Call.burn amount k).Accounted env ctx w out ↔
        ¬(Call.burn amount k).EmptyBurnForFailedIPO env ctx w) := by
  unfold burn
  by_cases hrange : amount < 0 ∨ amount > MAX_AMOUNT
  · refine ⟨_, if_pos hrange, iff_of_true (Call.accounted_of_neg (by decide)) ?_⟩
    rintro ⟨rfl, -, -⟩
    exact absurd hrange (by decide)
  rw [if_neg hrange]
  push Not at hrange
  obtain ⟨ha, ha'⟩ := hrange
  obtain ⟨i, hi, hid, hne, hindex⟩ | ⟨habsent, hindex⟩ :=
    h.spectrumIndex_cases ctx.currentContractId
  · simp only [hindex, ofOption_some, returned_bind, Int.toNat_natCast,
      sint64_remaining h hc hi ha ha', pure_eq]
    by_cases hfailed : w.node.contractError (burnedFor env ctx k) = .ipoFailed
    · refine ⟨(-amount, w), if_pos hfailed, ?_⟩
      refine (Call.accounted_neg_amount_iff (.burn amount k) ha).trans ?_
      simp only [Call.amount, Call.EmptyBurnForFailedIPO, hfailed]
      tauto
    · have hnot : ¬(Call.burn amount k).EmptyBurnForFailedIPO env ctx w := fun he => hfailed he.2.1
      rw [if_neg hfailed]
      by_cases hlow : energy w.node.spectrum i - amount < 0
      · exact ⟨_, if_pos hlow, iff_of_true (Call.accounted_of_neg hlow) hnot⟩
      · obtain ⟨hinv, hres⟩ := h.decreaseEnergy env.tick hc hi amount
        rw [if_pos ⟨ha, by unfold energy at hlow; omega⟩] at hres
        rw [if_neg hlow, hres.1]
        refine ⟨_, rfl, iff_of_true ⟨fun hneg => absurd hneg hlow, fun _ => ?_⟩ hnot⟩
        exact moved_burn h hi hid hne hinv hres.2 (hreserves _) ha ha' hq
  · have hz := balanceOf_absent h habsent
    simp only [hindex]
    refine ⟨(-amount, w), rfl, iff_of_true ?_ fun hempty => hempty.2.2 hz⟩
    exact (Call.accounted_neg_amount_iff (.burn amount k) ha).mpr fun _ => hz

omit h in
lemma isCrowded_decreaseEnergy (d tick : Nat) (s : Spectrum) (i : Nat) (amount : Int) :
    isCrowded d (decreaseEnergy tick s i amount).2 = isCrowded d s := by
  unfold decreaseEnergy
  split_ifs <;> simp [isCrowded, debit]

omit h in
/-- The credit and the callback that follow the debit of a transfer. -/
lemma deliver_cases (w : World) (ctx : Context) {c' : Int} (h' : Inv env.spectrumDepth c' s')
    (hc : c' + amount < 2 ^ 63) (ha : 0 ≤ amount) (hcrowd : isCrowded env.spectrumDepth s' = false)
    (hidle : ∀ procedure, env.postIncomingTransfer (contractIndexOf destination) = some procedure →
      ∀ input w', procedure input w' = .returned w') (type : TransferType) :
    (w.actions.length = env.maxActions ∧
      deliver env ctx { w with node.spectrum := s' } destination amount type =
        .aborted .tooManyActions) ∨
    ∃ s'' actions, deliver env ctx { w with node.spectrum := s' } destination amount type =
        .returned { node := { w.node with spectrum := s'' }, actions } ∧
      Inv env.spectrumDepth (c' + amount) s'' ∧
      if destination = 0 then s'' = s'
      else ∃ r, Deposit env.spectrumDepth s' s'' destination amount r := by
  obtain ⟨s'', hs'', hinv, hdep⟩ : ∃ s'', increaseEnergy env.spectrumDepth env.k12 env.tick s'
      destination amount = some s'' ∧ Inv env.spectrumDepth (c' + amount) s'' ∧
      if destination = 0 then s'' = s'
      else ∃ r, Deposit env.spectrumDepth s' s'' destination amount r := by
    by_cases hz : destination = 0
    · exact ⟨s', by simp [increaseEnergy, hz], h'.mono (by omega), by rw [if_pos hz]⟩
    · have hroom : makeRoom env.spectrumDepth env.k12 s' = some s' := by simp [makeRoom, hcrowd]
      obtain ⟨s'', r, hs'', hinv, hdep⟩ :=
        h'.deposit env.tick hroom (by simpa [isCrowded] using hcrowd) hz ha hc
      exact ⟨s'', hs'', hinv, by rw [if_neg hz]; exact ⟨r, hdep⟩⟩
  by_cases hfull : w.actions.length = env.maxActions
  · exact .inl ⟨hfull, by simp [deliver, hs'', hfull]⟩
  · refine .inr ⟨s'', w.actions ++ [⟨ctx.currentContractId, destination, amount⟩], ?_, hinv, hdep⟩
    simp only [deliver, hs'', hfull, ofOption_some, returned_bind, if_false]
    unfold qpiNotifyPostIncomingTransfer
    split
    · rfl
    · cases hp : env.postIncomingTransfer (contractIndexOf destination) with
      | none => rfl
      | some procedure => simp only [hidle procedure hp, pure_eq, ite_self]

lemma moved_transfer {c' c'' : Int} {s'' : Spectrum} {actions : List QuTransfer}
    (hi : i < 2 ^ env.spectrumDepth)
    (hid : (w.node.spectrum.spectrum i).publicKey = ctx.currentContractId)
    (hne : ctx.currentContractId ≠ 0) (h' : Inv env.spectrumDepth c' s')
    (hw : Withdrawal env.spectrumDepth w.node.spectrum s' amount i)
    (h'' : Inv env.spectrumDepth c'' s'') (hdep : if destination = 0 then s'' = s'
      else ∃ r, Deposit env.spectrumDepth s' s'' destination amount r)
    (hdest : destination ≠ ctx.currentContractId) :
    let w' : World := { node := { w.node with spectrum := s'' }, actions }
    (Call.transfer destination amount).Moved env ctx w w' ∧
      energy w.node.spectrum i - amount = balanceOf env w' ctx.currentContractId := by
  intro w'
  -- the debit first: only the contract sees it
  let w₁ : World := { w with node.spectrum := s' }
  have hdebit (id : M256i) (hid' : id ≠ ctx.currentContractId) :
      getEntity env w₁.node.spectrum id = getEntity env w.node.spectrum id :=
    getEntity_withdrawal h h' hw (hid ▸ hid')
  have hpaid : balanceOf env w₁ ctx.currentContractId =
      balanceOf env w ctx.currentContractId - amount := by
    rw [balanceOf_of_slot h hi hid hne, ← hw.balance]
    exact balanceOf_of_slot h' hi (hw.publicKey.trans hid) hne
  -- then the credit: only the destination sees it, if there is one
  have hcredit (id : M256i) (hid' : some id ≠ (Call.transfer destination amount).recipient) :
      getEntity env w'.node.spectrum id = getEntity env w₁.node.spectrum id := by
    by_cases hz : destination = 0
    · rw [if_pos hz] at hdep
      subst hdep
      rfl
    · rw [if_neg hz] at hdep
      obtain ⟨r, hd⟩ := hdep
      exact getEntity_deposit h' h'' hd fun he => hid' (by simp [Call.recipient, he, hz])
  have hreceived (hz : destination ≠ 0) :
      balanceOf env w' destination = balanceOf env w₁ destination + amount := by
    rw [if_neg hz] at hdep
    obtain ⟨r, hd⟩ := hdep
    exact balanceOf_deposit (w := w₁) h' h'' hd hz
  have hself : some ctx.currentContractId ≠ (Call.transfer destination amount).recipient := by
    intro hr
    exact hdest (by simpa [Call.recipient, eq_comm] using hr : _ ∧ _).2
  have hkept : balanceOf env w' ctx.currentContractId = balanceOf env w₁ ctx.currentContractId :=
    balanceOf_congr (hcredit _ hself)
  refine ⟨⟨fun id => ?_, ?_, ?_, rfl, rfl, rfl⟩, ?_⟩
  · by_cases hid' : id = ctx.currentContractId
    · subst hid'
      rw [hkept, hpaid, if_pos rfl, if_neg hself, add_zero]
      rfl
    · have hsame : balanceOf env w₁ id = balanceOf env w id := balanceOf_congr (hdebit id hid')
      rw [if_neg hid', sub_zero]
      split_ifs with hr
      · obtain ⟨hz, rfl⟩ : destination ≠ 0 ∧ id = destination := by simpa [Call.recipient] using hr
        rw [hreceived hz, hsame]
        rfl
      · rw [balanceOf_congr (w := w₁) (hcredit id hr), hsame, add_zero]
  · simp [w', Call.reserve]
  · exact fun id hid' hr => (hcredit id hr).trans (hdebit id hid')
  · rw [hkept, hpaid, balanceOf_of_slot h hi hid hne, energy]

lemma transfer_accounted (hc : c < 2 ^ 63)
    (hq : (Call.transfer destination amount).Undisturbed env ctx w) :
    (w.actions.length = env.maxActions ∧
      transfer env ctx w destination amount = .aborted .tooManyActions) ∨
    ∃ out, transfer env ctx w destination amount = .returned out ∧
      (Call.transfer destination amount).Accounted env ctx w out := by
  unfold transfer transferOfType
  obtain ⟨hcrowd, hdest, hidle⟩ := hq
  split
  · exact .inr ⟨_, rfl, Call.accounted_of_neg (by decide)⟩
  split
  · exact .inr ⟨_, rfl, Call.accounted_of_neg (by decide)⟩
  split
  · exact .inr ⟨_, rfl, Call.accounted_of_neg (by decide)⟩
  next hrange =>
  push Not at hrange
  obtain ⟨ha, ha'⟩ := hrange
  obtain ⟨i, hi, hid, hne, hindex⟩ | ⟨habsent, hindex⟩ :=
    h.spectrumIndex_cases ctx.currentContractId
  · simp only [hindex, ofOption_some, returned_bind, Int.toNat_natCast,
      sint64_remaining h hc hi ha ha', pure_eq]
    by_cases hlow : energy w.node.spectrum i - amount < 0
    · exact .inr ⟨_, if_pos hlow, Call.accounted_of_neg hlow⟩
    · obtain ⟨hinv, hres⟩ := h.decreaseEnergy env.tick hc hi amount
      rw [if_pos ⟨ha, by unfold energy at hlow; omega⟩] at hres
      obtain ⟨hok, hw⟩ := hres
      rw [if_neg hlow, if_pos hok]
      rw [← isCrowded_decreaseEnergy env.spectrumDepth env.tick _ i amount] at hcrowd
      -- the credit returns the supply to what it was before the debit
      have hinv' := { hinv with supply := le_refl _ }
      have hsupply := h.supply
      have htotal := hw.totalAmount
      obtain ⟨hfull, habort⟩ | ⟨s'', actions, hs'', hinv'', hdep⟩ :=
        deliver_cases w ctx hinv' (by omega) ha hcrowd hidle .qpiTransfer
      · exact .inl ⟨hfull, by rw [habort]; rfl⟩
      · rw [hs'']
        refine .inr ⟨_, rfl, fun hneg => absurd hneg hlow, fun _ => ?_⟩
        exact moved_transfer h hi hid hne hinv hw hinv'' hdep hdest
  · have hz := balanceOf_absent h habsent
    simp only [hindex]
    refine .inr ⟨(-amount, w), rfl, ?_⟩
    exact (Call.accounted_neg_amount_iff (.transfer destination amount) ha).mpr fun _ => hz

end

/-- A call returns, unless the list of tracked actions is full, and its result is an account of
what happened, except for an empty burn for a contract whose IPO failed. -/
theorem Call.accounted_iff (h : Inv env.spectrumDepth c w.node.spectrum) (hc : c < 2 ^ 63)
    (hreserves : ∀ i, INT64_MIN ≤ w.node.contractFeeReserves i) {call : Call}
    (hq : call.Undisturbed env ctx w) :
    (w.actions.length = env.maxActions ∧ call.run env ctx w = .aborted .tooManyActions) ∨
    ∃ out, call.run env ctx w = .returned out ∧
      (call.Accounted env ctx w out ↔ ¬call.EmptyBurnForFailedIPO env ctx w) := by
  cases call with
  | transfer destination amount =>
    obtain hfull | ⟨out, hout, hacc⟩ := transfer_accounted h hc hq
    · exact .inl hfull
    · exact .inr ⟨out, hout, iff_of_true hacc id⟩
  | burn amount k => exact .inr (burn_accounted h hc hreserves hq)

end

/-! ## A node with one contract -/

def smallEnv : ExecEnv where
  spectrumDepth := 3
  assetsDepth := 3
  k12 := ⟨fun _ => 0, fun _ _ => 0⟩
  epoch := 200
  tick := 30000000
  contractCount := 30
  contractDescriptions _ := ⟨0, 100, 10000⟩
  isFrozenAddress _ := false
  notifyContractOfIncomingTransfer _ _ := some
  processSystemTransaction _ := some
  processTickTransactionContractProcedure _ _ _ := some
  maxActions := 16
  postIncomingTransfer _ := none

def fifthContract : Context := ⟨5, ⟨5⟩, false⟩

def smallWorld : World where
  node :=
    { spectrum := create 0 empty 5 ⟨5⟩ 100
      assets := Universe.empty
      ipos := fun _ => none
      contractFeeReserves := fun _ => 0
      contractError := fun i => if i = 7 then .ipoFailed else .noContractError }
  actions := []

lemma fifthContract_inv {amount : Int} (ha : 0 ≤ amount) (hc : amount < 2 ^ 63) :
    Inv smallEnv.spectrumDepth amount (create 0 empty 5 ⟨5⟩ amount) := by
  have habsent : ¬Present 3 empty.spectrum ⟨5⟩ := by
    rintro ⟨i, -, hi⟩
    exact absurd hi (by decide : (0 : M256i) ≠ ⟨5⟩)
  have hreach : Library.Probing.Reach (2 ^ 3) (Occupied empty.spectrum)
      (homeSlot 3 ⟨5⟩) 5 := Library.Probing.Reach.refl (by decide)
  have hinv := ((Inv.empty 3).create 0 (by decide) rfl (by decide) habsent hreach (by decide) ha
    (by omega)).1
  rwa [zero_add] at hinv

lemma smallWorld_inv : Inv smallEnv.spectrumDepth 100 smallWorld.node.spectrum :=
  fifthContract_inv (by decide) (by decide)

/-- The contract sends 30 to an entity that did not exist and burns 20 for contract 6. -/
theorem Call.accounted_iff_smallWorld :
    (∃ out, (Call.transfer ⟨40⟩ 30).run smallEnv fifthContract smallWorld = .returned out ∧
      (Call.transfer ⟨40⟩ 30).Accounted smallEnv fifthContract smallWorld out) ∧
    ∃ out, (Call.burn 20 6).run smallEnv fifthContract smallWorld = .returned out ∧
      (Call.burn 20 6).Accounted smallEnv fifthContract smallWorld out := by
  have hreserves (i : Nat) : INT64_MIN ≤ smallWorld.node.contractFeeReserves i :=
    (by decide : INT64_MIN ≤ 0)
  constructor
  · obtain ⟨hfull, -⟩ | ⟨out, hout, hacc⟩ := Call.accounted_iff smallWorld_inv (by decide)
      hreserves (show (Call.transfer ⟨40⟩ 30).Undisturbed smallEnv fifthContract smallWorld from
        ⟨by decide, by decide, fun _ h => absurd h (by simp [smallEnv])⟩)
    · exact absurd hfull (by decide)
    · exact ⟨out, hout, hacc.mpr id⟩
  · obtain ⟨hfull, -⟩ | ⟨out, hout, hacc⟩ := Call.accounted_iff smallWorld_inv (by decide)
      hreserves (show (Call.burn 20 6).Undisturbed smallEnv fifthContract smallWorld from
        (by decide : (0 : Int) + 20 ≤ INT64_MAX))
    · exact absurd hfull (by decide)
    · exact ⟨out, hout, hacc.mpr fun h => absurd h.1 (by decide)⟩

/-- Contract 5 burns nothing for contract 7: the result is zero, but it still owns 100. -/
theorem burn_nothing_reports_zero :
    Inv smallEnv.spectrumDepth 100 smallWorld.node.spectrum ∧
    (Call.burn 0 7).Undisturbed smallEnv fifthContract smallWorld ∧
    (Call.burn 0 7).run smallEnv fifthContract smallWorld = .returned (0, smallWorld) ∧
    balanceOf smallEnv smallWorld fifthContract.currentContractId = 100 ∧
    ¬(Call.burn 0 7).Accounted smallEnv fifthContract smallWorld (0, smallWorld) := by
  have hbalance : balanceOf smallEnv smallWorld fifthContract.currentContractId = 100 := by
    decide +kernel
  refine ⟨smallWorld_inv, ?_, ?_, hbalance, ?_⟩
  · exact (by decide : (0 : Int) + 0 ≤ INT64_MAX)
  · rfl
  · intro h
    have := (h.2 le_rfl).2
    simp only [hbalance] at this
    omega

end QubicCore.Qpi.Transfers
