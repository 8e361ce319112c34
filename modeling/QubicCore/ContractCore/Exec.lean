import QubicCore.ContractCore.StackBuffer
import QubicCore.Library.Holding
import QubicCore.Library.Outcome
import QubicCore.Node

/-!
# Execution of contract calls

Contract code is a tree of the calls it makes. Functions run on request processors and may be
stopped at any call; procedures run on the contract processor, where an error means waiting for
ever.

The other processors change the locks at any time. What they show at each moment is given by
`Env.moments`; every look at shared data is a new moment. Another processor can hold a lock for
writing only while this one does not hold it.
-/

namespace QubicCore.ContractExec

open Library StackBuffer

inductive Mode where
  | read
  | write
deriving DecidableEq

structure Lock where
  mode : Mode
  contractIndex : Nat
deriving DecidableEq

inductive SystemProcedureID where
  | init
  | beginEpoch
  | endEpoch
  | beginTick
  | endTick
  | preReleaseShares
  | preAcquireShares
  | postReleaseShares
  | postAcquireShares
  | postIncomingTransfer
  | setShareholderProposal
  | setShareholderVotes
deriving DecidableEq

inductive InterContractCallError where
  | contractInErrorState
  | insufficientFees
  | allocationFailed
  | contractInactive
deriving DecidableEq

/-! ## Flags of running callbacks -/

def NoContractCallback : Nat := 0
def ContractCallbackManagementRightsTransfer : Nat := 1
def ContractCallbackPostIncomingTransfer : Nat := 2
def ContractCallbackShareholderProposalAndVoting : Nat := 4

def callbackFlag : SystemProcedureID → Nat
  | .postIncomingTransfer => ContractCallbackPostIncomingTransfer
  | .setShareholderProposal | .setShareholderVotes => ContractCallbackShareholderProposalAndVoting
  | .preReleaseShares | .preAcquireShares | .postReleaseShares | .postAcquireShares =>
    ContractCallbackManagementRightsTransfer
  | _ => NoContractCallback

/-! ## Contract code -/

inductive Kind where
  | function
  | procedure
deriving DecidableEq

/-- A transfer of an amount: whether the balance covers it, and whether the action tracker has
room for it. -/
structure Payment where
  amount : Int
  (covered tracked : Bool)

/-- The calls that contract code makes. A function cannot change anything, so it has no transfers
and calls no procedures. The callbacks of a transfer are those of its destination. -/
inductive Code (n : Nat) : Kind → Type where
  | done {k : Kind} : Code n k
  | abort {k : Kind} (errorCode : ContractError) : Code n k
  | call {k : Kind} (localsSize : Nat) (body next : Code n k) : Code n k
  /-- A QPI function that reads a contract state, such as `queryFeeReserve` and `ipoBidId`. -/
  | readState {k : Kind} (c : Fin n) (next : Code n k) : Code n k
  | callOtherContractFunction {k : Kind} (c : Fin n) (localsSize : Nat)
      (body : Code n .function) (next : Code n k) : Code n k
  /-- A QPI function that changes a contract state, such as `burn` and `bidInIPO`. -/
  | writeState (c : Fin n) (next : Code n .procedure) : Code n .procedure
  | transfer (destination : Option (Fin n)) (payment : Payment)
      (callback next : Code n .procedure) : Code n .procedure
  | invokeOtherContractProcedure (c : Fin n) (reward : Payment)
      (callback : Code n .procedure) (localsSize : Nat) (body next : Code n .procedure) :
      Code n .procedure
  | callSystemProc (id : SystemProcedureID) (c : Fin n) (reward : Payment)
      (callback body next : Code n .procedure) : Code n .procedure

/-! ## The processor and its surroundings -/

/-- What the rest of the node shows at one moment. -/
structure Moment where
  readers : Nat → Nat
  writing : Nat → Bool
  writersWaiting : Nat → Nat
  contractCallbacksRunning : Nat
  contractError : Nat → ContractError
  contractFeeReserves : Nat → Int

structure Env (n : Nat) where
  moments : Nat → Moment
  /-- How often the processor looks at a lock before it counts as waiting for ever. -/
  patience : Nat
  bufferSize : Nat
  /-- The assertion `bufferSize <= sizeMask`. -/
  bufferSize_lt : bufferSize < 2 ^ 31
  (sizeofQpiContextFunctionCall sizeofQpiContextProcedureCall epoch : Nat)
  contractDescriptions : Nat → ContractDescription
  /-- The size of the locals of a system procedure; `none` is the null pointer. -/
  systemProcedures : Nat → SystemProcedureID → Option Nat

/-- The state of a processor: its locals stack, its lock operations so far, the flags it has set
and the number of looks it has taken. -/
structure Exec where
  stack : StackBuffer
  trace : List (LockOp Lock)
  (contractCallbacksRunning time : Nat)

structure Context where
  currentContractIndex : Nat
  /-- The entry point is `USER_FUNCTION_CALL`. -/
  userFunction : Bool

/-- An error jumps out of the call with the state at that point. -/
abbrev Run := Outcome (ContractError × Exec)

section

variable {n : Nat} (env : Env n)

def Exec.sample (s : Exec) : Moment × Exec := (env.moments s.time, { s with time := s.time + 1 })

def Exec.log (s : Exec) (op : LockOp Lock) : Exec := { s with trace := s.trace ++ [op] }

def held (trace : List (LockOp Lock)) (lock : Lock) : Int :=
  trace.count (.acquire lock) - trace.count (.release lock)

/-- The counter `readers` of the lock of a contract state. -/
def readers (m : Moment) (trace : List (LockOp Lock)) (c : Nat) : Int :=
  let own := held trace ⟨.read, c⟩
  if held trace ⟨.write, c⟩ > 0 ∨ (m.writing c ∧ own = 0) then -1 else own + m.readers c

variable (c : Nat) (s : Exec)

def tryAcquireRead : Bool × Exec :=
  let (m, s) := s.sample env
  if m.writersWaiting c ≠ 0 then (false, s)
  else if readers m s.trace c < 0 then (false, s)
  else (true, s.log (.acquire ⟨.read, c⟩))

def tryAcquireWrite : Bool × Exec :=
  let (m, s) := s.sample env
  if readers m s.trace c = 0 then (true, s.log (.acquire ⟨.write, c⟩)) else (false, s)

/-- `WAIT_WHILE(!tryAcquire())`. -/
def waitFor (tryAcquire : Exec → Bool × Exec) : Nat → Exec → Option Exec
  | 0, _ => none
  | fuel + 1, s =>
    match tryAcquire s with
    | (true, s) => some s
    | (false, s) => waitFor tryAcquire fuel s

def acquireRead : Run Exec := .ofOption (waitFor (tryAcquireRead env c) env.patience s)

def acquireWrite : Run Exec := .ofOption (waitFor (tryAcquireWrite env c) env.patience s)

def releaseRead : Exec := s.log (.release ⟨.read, c⟩)

def releaseWrite : Exec := s.log (.release ⟨.write, c⟩)

def isLockedForWriting : Bool × Exec :=
  let (m, s) := s.sample env
  (readers m s.trace c = -1, s)

variable (ctx : Context)

/-- The flags as this processor sees them: those of the contract processor change while a function
runs. -/
def Exec.callbacksRunning (s : Exec) : Nat × Exec :=
  let (m, s) := s.sample env
  (if ctx.userFunction then m.contractCallbacksRunning else s.contractCallbacksRunning, s)

/-- A function is left by a long jump; a procedure waits for the timeout. -/
def qpiAbort (errorCode : ContractError) (s : Exec) : Run Exec :=
  if ctx.userFunction then .aborted (errorCode, s) else .stuck

/-! ## Blocks of the locals stack -/

/-- `allocate`, for blocks that hold no record. -/
def Exec.allocate (s : Exec) (size : Nat) : Option Exec :=
  (s.stack.allocate env.bufferSize size false).map fun (_, stack) => { s with stack := stack }

def Exec.free (s : Exec) : Exec := { s with stack := (s.stack.free env.bufferSize).2 }

def qpiAllocLocals (sizeOfLocals : Nat) (s : Exec) : Run Exec :=
  match s.allocate env sizeOfLocals with
  | some s => pure s
  | none => qpiAbort ctx .allocLocalsFailed s

/-- Free the last block and read it as a record. -/
def contractStackUnwindRollbackInfo : ContractRollbackInfo × Exec :=
  match s.stack.unwind env.bufferSize with
  | none => (⟨.contractStateReuseLock, 0⟩, s)
  | some (u, stack) => (stack.records u.buffer, { s with stack := stack })

/-! ## Locks of contract states -/

def Exec.setRecord (s : Exec) (offset : Nat) (record : ContractRollbackInfo) : Exec :=
  { s with stack := s.stack.setRecord offset record }

/-- The loop of a user function: as long as a callback is running, it may be part of a deadlock
and is stopped. -/
def waitForReading (ctx : Context) (c offset : Nat) : Nat → Exec → Run Exec
  | 0, _ => .stuck
  | fuel + 1, s =>
    match tryAcquireRead env c s with
    | (true, s) => pure (s.setRecord offset ⟨.contractStateReadLock, c⟩)
    | (false, s) =>
      let (flags, s) := s.callbacksRunning env ctx
      if flags ≠ NoContractCallback then
        qpiAbort ctx .stoppedToResolveDeadlock (s.free env)
      else waitForReading ctx c offset fuel s

/-- The record is written through a null pointer if the stack is full. -/
def qpiAcquireStateForReading (c : Nat) (s : Exec) : Run Exec :=
  match s.stack.allocate env.bufferSize sizeofContractRollbackInfo true with
  | none => .stuck
  | some (offset, stack) =>
    let s := { s with stack := stack }
    if ctx.userFunction then waitForReading env ctx c offset env.patience s
    else do
      let (locked, s) := isLockedForWriting env c s
      if s.contractCallbacksRunning ≠ NoContractCallback ∧ locked then
        pure (s.setRecord offset ⟨.contractStateReuseLock, c⟩)
      else
        let s ← acquireRead env c s
        pure (s.setRecord offset ⟨.contractStateReadLock, c⟩)

def qpiReleaseStateForReading (c : Nat) (s : Exec) : Exec :=
  let (flags, s) := s.callbacksRunning env ctx
  if flags = NoContractCallback then (releaseRead c s).free env
  else
    let (cri, s) := contractStackUnwindRollbackInfo env s
    if cri.type = .contractStateReadLock then releaseRead c s else s

def qpiAcquireStateForWriting : Run Exec :=
  match s.stack.allocate env.bufferSize sizeofContractRollbackInfo true with
  | none => .stuck
  | some (offset, stack) => do
    let s := { s with stack := stack }
    let (locked, s) := isLockedForWriting env c s
    if s.contractCallbacksRunning ≠ NoContractCallback ∧ locked then
      pure (s.setRecord offset ⟨.contractStateReuseLock, c⟩)
    else
      let s ← acquireWrite env c s
      pure (s.setRecord offset ⟨.contractStateWriteLock, c⟩)

def qpiReleaseStateForWriting : Exec :=
  if s.contractCallbacksRunning = NoContractCallback then (releaseWrite c s).free env
  else
    let (cri, s) := contractStackUnwindRollbackInfo env s
    if cri.type = .contractStateWriteLock then releaseWrite c s else s

def getContractFeeReserve (contractIndex : Nat) (s : Exec) : Run (Int × Exec) := do
  let s ← acquireRead env 0 s
  let (m, s) := s.sample env
  pure (m.contractFeeReserves contractIndex, releaseRead 0 s)

end

/-! ## Calls of other contracts -/

section

variable {n : Nat} (env : Env n) (c : Nat)

def isActive : Prop :=
  (env.contractDescriptions c).constructionEpoch ≤ env.epoch ∧
  env.epoch < (env.contractDescriptions c).destructionEpoch

instance (c : Nat) : Decidable (isActive env c) := inferInstanceAs (Decidable (_ ∧ _))

def inErrorState (s : Exec) : Bool × Exec :=
  let (m, s) := s.sample env
  (m.contractError c ≠ .noContractError, s)

def qpiConstructContextOtherContractFunctionCall (s : Exec) :
    Option InterContractCallError × Exec :=
  let (error, s) := inErrorState env c s
  if error then (some .contractInErrorState, s)
  else
    match s.allocate env env.sizeofQpiContextFunctionCall with
    | none => (some .allocationFailed, s)
    | some s => (none, s)

variable (ctx : Context)

def qpiTransfer (destination : Option (Fin n)) (payment : Payment)
    (notify : Fin n → Exec → Run Exec) (s : Exec) : Run Exec :=
  let accept (s : Exec) : Run Exec :=
    if payment.amount < 0 ∨ payment.amount > MAX_AMOUNT then pure s
    else if !payment.covered then pure s
    else if !payment.tracked then qpiAbort ctx .tooManyActions s
    else
      match destination with
      | none => pure s
      | some c => if payment.amount ≤ 0 then pure s else notify c s
  match destination with
  | none => accept s
  | some c =>
    let (flags, s) := s.callbacksRunning env ctx
    if flags &&& ContractCallbackPostIncomingTransfer ≠ 0 then pure s
    else
      let (error, s) := inErrorState env c s
      if error ∨ ¬isActive env c then pure s else accept s

def hasFeeReserve (skipFeeCheck : Bool) (s : Exec) : Run (Bool × Exec) :=
  if skipFeeCheck then pure (true, s)
  else do
    let (reserve, s) ← getContractFeeReserve env c s
    pure (reserve > 0, s)

/-- The reward is paid when the context has been allocated. -/
def qpiConstructProcedureCallContext (skipFeeCheck : Bool) (pay : Exec → Run Exec)
    (s : Exec) : Run (Option InterContractCallError × Exec) :=
  let (error, s) := inErrorState env c s
  if error then pure (some .contractInErrorState, s)
  else if ¬isActive env c then pure (some .contractInactive, s)
  else do
    let (sufficient, s) ← hasFeeReserve env c skipFeeCheck s
    if !sufficient then pure (some .insufficientFees, s)
    else
      match s.allocate env env.sizeofQpiContextProcedureCall with
      | none => pure (some .allocationFailed, s)
      | some s => do
        let s ← pay s
        pure (none, s)

def withLocals (localsSize : Nat) (body : Exec → Run Exec) (s : Exec) :
    Run Exec := do
  let s ← qpiAllocLocals env ctx localsSize s
  let s ← body s
  pure (s.free env)

def withOtherState (c : Nat) (body : Exec → Run Exec) (s : Exec) : Run Exec :=
  if c = ctx.currentContractIndex then body s
  else do
    let s ← qpiAcquireStateForWriting env c s
    let s ← body s
    pure (qpiReleaseStateForWriting env c s)

def qpiCallSystemProc (id : SystemProcedureID) (c : Fin n)
    (pay : Exec → Run Exec) (body : Context → Exec → Run Exec) (s : Exec) : Run Exec :=
  match env.systemProcedures c id with
  | none => pure s
  | some localsSize => do
    let contractCallbacksRunningBefore := s.contractCallbacksRunning
    let s := { s with
      contractCallbacksRunning := s.contractCallbacksRunning ||| callbackFlag id }
    let (callError, s) ← qpiConstructProcedureCallContext env c true pay s
    match callError with
    | some .contractInErrorState =>
      let (m, s) := s.sample env
      qpiAbort ctx (m.contractError c) s
    | some _ => qpiAbort ctx .allocContextOtherProcedureCallFailed s
    | none => do
      let s ← withOtherState env ctx c
        (withLocals env ctx localsSize (body { ctx with currentContractIndex := c })) s
      let s := s.free env
      pure { s with contractCallbacksRunning := contractCallbacksRunningBefore }

/-- The callback `POST_INCOMING_TRANSFER` of the destination, without reward. -/
def qpiNotifyPostIncomingTransfer (body : Context → Exec → Run Exec) (c : Fin n)
    (s : Exec) : Run Exec :=
  match env.systemProcedures c .postIncomingTransfer with
  | none => pure s
  | some _ =>
    let (error, s) := inErrorState env c s
    if error ∨ ¬isActive env c then pure s
    else
      qpiCallSystemProc env ctx .postIncomingTransfer c
        (qpiTransfer env ctx (some c) ⟨0, true, true⟩ fun _ => pure) body s

def callOtherContractFunction (c : Nat) (localsSize : Nat)
    (body : Context → Exec → Run Exec) (s : Exec) : Run Exec :=
  match qpiConstructContextOtherContractFunctionCall env c s with
  | (some _, s) => pure s
  | (none, s) => do
    let s ← qpiAcquireStateForReading env ctx c s
    let s ← withLocals env ctx localsSize (body { ctx with currentContractIndex := c }) s
    let s := qpiReleaseStateForReading env ctx c s
    pure (s.free env)

def invokeOtherContractProcedure (c : Nat) (localsSize : Nat)
    (pay : Exec → Run Exec) (body : Context → Exec → Run Exec) (s : Exec) : Run Exec := do
  let (callError, s) ← qpiConstructProcedureCallContext env c false pay s
  match callError with
  | some _ => pure s
  | none => do
    let s ← qpiAcquireStateForWriting env c s
    let s ← withLocals env ctx localsSize (body { ctx with currentContractIndex := c }) s
    let s := qpiReleaseStateForWriting env c s
    pure (s.free env)

def Code.run {k : Kind} : Code n k → Context → Exec → Run Exec
  | .done, _, s => pure s
  | .abort errorCode, ctx, s => qpiAbort ctx errorCode s
  | .call localsSize body next, ctx, s => do
    let s ← withLocals env ctx localsSize (fun s => body.run ctx s) s
    next.run ctx s
  | .readState c next, ctx, s => do
    let s ← acquireRead env c s
    next.run ctx (releaseRead c s)
  | .callOtherContractFunction c localsSize body next, ctx, s => do
    let s ← ContractExec.callOtherContractFunction env ctx c localsSize
      (fun ctx s => body.run ctx s) s
    next.run ctx s
  | .writeState c next, ctx, s => do
    let s ← acquireWrite env c s
    next.run ctx (releaseWrite c s)
  | .transfer destination payment callback next, ctx, s => do
    let s ← qpiTransfer env ctx destination payment
      (qpiNotifyPostIncomingTransfer env ctx fun ctx s => callback.run ctx s) s
    next.run ctx s
  | .invokeOtherContractProcedure c reward callback localsSize body next, ctx, s => do
    let s ← ContractExec.invokeOtherContractProcedure env ctx c localsSize
      (qpiTransfer env ctx (some c) reward
        (qpiNotifyPostIncomingTransfer env ctx fun ctx s => callback.run ctx s))
      (fun ctx s => body.run ctx s) s
    next.run ctx s
  | .callSystemProc id c reward callback body next, ctx, s => do
    let s ← qpiCallSystemProc env ctx id c
      (qpiTransfer env ctx (some c) reward
        (qpiNotifyPostIncomingTransfer env ctx fun ctx s => callback.run ctx s))
      (fun ctx s => body.run ctx s) s
    next.run ctx s

end

/-! ## Calls by the node -/

section

variable {n : Nat} (env : Env n)

def contractInvocationBufferSize (inputSize outputSize localsSize : Nat) : Nat :=
  (alignOffset ((alignOffset inputSize + outputSize) % 2 ^ 32) + localsSize) % 2 ^ 32

def acquireContractLocalsStack (s : Exec) : Exec :=
  if s.stack.allocatedSize ≠ 0 then { s with stack := s.stack.freeAll } else s

/-- The loop of `rollbackContractFunctionCall`; every block is larger than one byte. -/
def rollbackLoop : Nat → Exec → Exec
  | 0, s => s
  | fuel + 1, s =>
    match s.stack.unwind env.bufferSize with
    | none => s
    | some (u, stack) =>
      let s := { s with stack := stack }
      if !u.okay then s
      else if u.specialBlock ∧ u.size = sizeofContractRollbackInfo then
        let cri := stack.records u.buffer
        let (m, s) := s.sample env
        if cri.type = .contractStateReadLock ∧ cri.contractIndex < n ∧
            readers m s.trace cri.contractIndex > 0 then
          rollbackLoop fuel (releaseRead cri.contractIndex s)
        else rollbackLoop fuel s
      else rollbackLoop fuel s

def rollbackContractFunctionCall (s : Exec) : Exec := rollbackLoop env s.stack.allocatedSize s

/-- The calls that the node makes, each with the code that it runs. -/
inductive Entry (n : Nat) where
  | userFunction (c : Fin n) (inputSize outputSize localsSize : Nat) (body : Code n .function)
  | userProcedure (c : Fin n) (inputSize outputSize localsSize : Nat) (body : Code n .procedure)
  | systemProcedure (id : SystemProcedureID) (c : Fin n) (body : Code n .procedure)
  /-- The callback for a transfer that is not made by a contract. -/
  | postIncomingTransfer (c : Fin n) (body : Code n .procedure)
  | notification (c : Fin n) (inputSize localsSize : Nat) (body : Code n .procedure)

variable (c : Fin n)

/-- The part of a function call that an error can jump out of. -/
def runUserFunction (body : Code n .function) (s : Exec) : Run Exec := do
  let ctx : Context := ⟨c, true⟩
  let s ← qpiAcquireStateForReading env ctx c s
  let s ← body.run env ctx s
  pure (qpiReleaseStateForReading env ctx c s)

/-- The end of a function call: the buffer is released, or everything is rolled back. -/
def finishUserFunction : Run Exec → Option Exec
  | .returned s => some (s.free env)
  | .aborted (_, s) => some (rollbackContractFunctionCall env s)
  | .stuck => none

/-- `QpiContextUserFunctionCall::call`. There is nothing to jump to before the input has been
stored. -/
def callUserFunction (inputSize outputSize localsSize : Nat)
    (body : Code n .function) (s : Exec) : Option Exec :=
  let (error, s) := inErrorState env c s
  if error then some s
  else
    let s := acquireContractLocalsStack s
    match s.allocate env (contractInvocationBufferSize inputSize outputSize localsSize) with
    | none => none
    | some s => finishUserFunction env (runUserFunction env c body s)

/-- `QpiContextUserProcedureCall::call`, and the release of the buffer. -/
def callUserProcedure (inputSize outputSize localsSize : Nat)
    (body : Code n .procedure) (s : Exec) : Run Exec :=
  let s := acquireContractLocalsStack s
  match s.allocate env (contractInvocationBufferSize inputSize outputSize localsSize) with
  | none => .stuck
  | some s => do
    let s ← acquireWrite env c s
    let s ← body.run env ⟨c, false⟩ s
    pure ((releaseWrite c s).free env)

/-- `QpiContextSystemProcedureCall::runCall`. Without locals no block is needed. -/
def callSystemProcedure (id : SystemProcedureID) (c : Fin n) (body : Code n .procedure)
    (s : Exec) : Run Exec :=
  let ctx : Context := ⟨c, false⟩
  match env.systemProcedures c id with
  | none => pure s
  | some localsSize => do
    let s ← acquireWrite env c (acquireContractLocalsStack s)
    let runBody (s : Exec) : Run Exec := body.run env ctx s
    let s ← (if localsSize = 1 then runBody else withLocals env ctx localsSize runBody) s
    pure (releaseWrite c s)

def callPostIncomingTransfer (body : Code n .procedure) (s : Exec) : Run Exec := do
  let s := { s with contractCallbacksRunning := ContractCallbackPostIncomingTransfer }
  let s ← callSystemProcedure env .postIncomingTransfer c body s
  pure { s with contractCallbacksRunning := NoContractCallback }

/-- `QpiContextUserProcedureNotificationCall::call`. -/
def callNotification (inputSize localsSize : Nat) (body : Code n .procedure)
    (s : Exec) : Run Exec := do
  let ctx : Context := ⟨c, false⟩
  let s ← acquireWrite env c (acquireContractLocalsStack s)
  let s ← withLocals env ctx (contractInvocationBufferSize inputSize 0 localsSize)
    (fun s => body.run env ctx s) s
  pure (releaseWrite c s)

/-- The state when a procedure has returned; an error in a procedure never ends. -/
def ended : Run Exec → Option Exec
  | .returned s => some s
  | _ => none

/-- An outermost call; `none` if it never ends. -/
def Entry.call (s : Exec) : Entry n → Option Exec
  | .userFunction c inputSize outputSize localsSize body =>
    callUserFunction env c inputSize outputSize localsSize body s
  | .userProcedure c inputSize outputSize localsSize body =>
    ended (callUserProcedure env c inputSize outputSize localsSize body s)
  | .systemProcedure id c body => ended (callSystemProcedure env id c body s)
  | .postIncomingTransfer c body => ended (callPostIncomingTransfer env c body s)
  | .notification c inputSize localsSize body =>
    ended (callNotification env c inputSize localsSize body s)

def runCalls (calls : List (Entry n)) (s : Exec) : Option Exec :=
  calls.foldlM (fun s entry => entry.call env s) s

/-- A processor after `initContractExec`, whatever its buffer contains. -/
def initContractExec (stack : StackBuffer) : Exec :=
  ⟨{ stack with allocatedSize := 0 }, [], NoContractCallback, 0⟩

end

end QubicCore.ContractExec
