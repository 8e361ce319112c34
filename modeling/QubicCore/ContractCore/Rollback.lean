import QubicCore.ContractCore.Exec

/-!
# Calls give back what they have taken

A call that returns leaves the blocks on the locals stack, the locks that are held and the
callback flags as they were. If a function is aborted, the blocks on top of the stack have records
for exactly the locks that it has taken, so that the rollback releases each of them once.
-/

namespace QubicCore.ContractExec

open Library StackBuffer List Option

variable {n : Nat} {env : Env n} {base : List (LockOp Lock)} {blocks : List Block}
  {locks : Multiset Lock} {flags : Nat} {s s' : Exec} {P : Exec → Prop}
  {Q : ContractError × Exec → Prop} {uf : Bool} {e : ContractError × Exec} {stop : Nat}
  {r : ContractRollbackInfo} {ctx : Context} {body : Context → Exec → Run Exec}
  {pay : Exec → Run Exec}

/-- A processor with the given blocks on its stack, which has continued the trace `base` and holds
the given locks. -/
structure At (env : Env n) (base : List (LockOp Lock)) (blocks : List Block)
    (locks : Multiset Lock) (flags : Nat) (s : Exec) : Prop where
  stack : Represents env.bufferSize s.stack blocks
  replay : LockOp.replay s.trace = some locks
  base : base <+: s.trace
  flags : s.contractCallbacksRunning = flags

namespace At

section

variable (h : At env base blocks locks flags s)
include h

lemma sample : At env base blocks locks flags (s.sample env).2 :=
  ⟨h.stack, h.replay, h.base, h.flags⟩

lemma acquire (lock : Lock) : At env base blocks (lock ::ₘ locks) flags (s.log (.acquire lock)) :=
  ⟨h.stack, LockOp.replay_acquire h.replay lock, h.base.trans (prefix_append ..), h.flags⟩

omit h in
lemma release {lock : Lock} (h : At env base blocks (lock ::ₘ locks) flags s) :
    At env base blocks locks flags (s.log (.release lock)) :=
  ⟨h.stack, LockOp.replay_release h.replay, h.base.trans (prefix_append ..), h.flags⟩

lemma allocate {size : Nat} (hs : s.allocate env size = some s') :
    ∃ stop, At env base (⟨stop, none⟩ :: blocks) locks flags s' := by
  obtain ⟨⟨ptr, stack⟩, hstack, rfl⟩ := map_eq_some_iff.1 hs
  obtain ⟨stop, hstop⟩ := h.stack.allocate hstack
  exact ⟨stop, hstop, h.replay, h.base, h.flags⟩

omit h in
lemma free {block : Block} (h : At env base (block :: blocks) locks flags s) :
    At env base blocks locks flags (s.free env) :=
  ⟨(h.stack.free env.bufferSize_lt).2, h.replay, h.base, h.flags⟩

lemma setFlags (flags' : Nat) :
    At env base blocks locks flags' { s with contractCallbacksRunning := flags' } :=
  ⟨h.stack, h.replay, h.base, rfl⟩

lemma held_eq (lock : Lock) : held s.trace lock = locks.count lock :=
  LockOp.count_of_replay h.replay lock

/-- Whoever holds a lock for reading finds its counter positive. -/
lemma readers_pos {c : Nat}
    (hread : ⟨.read, c⟩ ∈ locks) (hwrite : ⟨.write, c⟩ ∉ locks) (m : Moment) :
    readers m s.trace c > 0 := by
  have hpos := Multiset.count_pos.2 hread
  rw [readers, h.held_eq, h.held_eq, Multiset.count_eq_zero_of_notMem hwrite, if_neg (by omega)]
  omega

lemma callbacksRunning (ctx : Context) :
    At env base blocks locks flags (s.callbacksRunning env ctx).2 ∧
    (ctx.userFunction = false → (s.callbacksRunning env ctx).1 = flags) := by
  refine ⟨h.sample, fun huf => ?_⟩
  rw [Exec.callbacksRunning, ← h.flags]
  simp [huf, Exec.sample]

end

lemma unwindRollbackInfo (h : At env base (⟨stop, some r⟩ :: blocks) locks flags s) :
    (contractStackUnwindRollbackInfo env s).1 = r ∧
    At env base blocks locks flags (contractStackUnwindRollbackInfo env s).2 := by
  obtain ⟨size, hunwind, hrecord⟩ := h.stack.unwind env.bufferSize_lt
  rw [contractStackUnwindRollbackInfo, hunwind]
  exact ⟨(hrecord r rfl).2, h.free⟩

end At

/-! ## Waiting for a lock -/

lemma waitFor_spec {tryAcquire : Exec → Bool × Exec} {R : Exec → Prop}
    (htrue : ∀ s, P s → (tryAcquire s).1 → R (tryAcquire s).2)
    (hfalse : ∀ s, P s → (tryAcquire s).1 = false → P (tryAcquire s).2) {fuel : Nat} (hs : P s)
    (hwait : waitFor tryAcquire fuel s = some s') : R s' := by
  induction fuel generalizing s with
  | zero => cases hwait
  | succ fuel ih =>
    rw [waitFor] at hwait
    have ht := htrue s hs
    have hf := hfalse s hs
    generalize tryAcquire s = r at hwait ht hf
    obtain ⟨_ | _, t⟩ := r
    · exact ih (hf rfl) hwait
    · obtain rfl : t = s' := some.inj hwait
      exact ht rfl

section

variable (h : At env base blocks locks flags s)
include h

lemma tryAcquireRead_spec (c : Nat) :
    ((tryAcquireRead env c s).1 →
      At env base blocks (⟨.read, c⟩ ::ₘ locks) flags (tryAcquireRead env c s).2) ∧
    ((tryAcquireRead env c s).1 = false →
      At env base blocks locks flags (tryAcquireRead env c s).2) := by
  rw [tryAcquireRead]
  dsimp only
  split_ifs
  · exact ⟨nofun, fun _ => h.sample⟩
  · exact ⟨nofun, fun _ => h.sample⟩
  · exact ⟨fun _ => h.sample.acquire _, nofun⟩

lemma tryAcquireWrite_spec (c : Nat) :
    ((tryAcquireWrite env c s).1 →
      At env base blocks (⟨.write, c⟩ ::ₘ locks) flags (tryAcquireWrite env c s).2) ∧
    ((tryAcquireWrite env c s).1 = false →
      At env base blocks locks flags (tryAcquireWrite env c s).2) := by
  rw [tryAcquireWrite]
  dsimp only
  split_ifs
  · exact ⟨fun _ => h.sample.acquire _, nofun⟩
  · exact ⟨nofun, fun _ => h.sample⟩

lemma acquireRead_spec (c : Nat) :
    (acquireRead env c s).Ends (At env base blocks (⟨.read, c⟩ ::ₘ locks) flags) Q := by
  refine Outcome.ends_ofOption fun s' hs' => ?_
  exact waitFor_spec (P := At env base blocks locks flags)
    (fun s hs => (tryAcquireRead_spec hs c).1) (fun s hs => (tryAcquireRead_spec hs c).2) h hs'

lemma acquireWrite_spec (c : Nat) :
    (acquireWrite env c s).Ends (At env base blocks (⟨.write, c⟩ ::ₘ locks) flags) Q := by
  refine Outcome.ends_ofOption fun s' hs' => ?_
  exact waitFor_spec (P := At env base blocks locks flags)
    (fun s hs => (tryAcquireWrite_spec hs c).1) (fun s hs => (tryAcquireWrite_spec hs c).2) h hs'

end

/-! ## Records of locks -/

def lockOf (r : ContractRollbackInfo) : Multiset Lock :=
  match r.type with
  | .contractStateReuseLock => 0
  | .contractStateWriteLock => {⟨.write, r.contractIndex⟩}
  | .contractStateReadLock => {⟨.read, r.contractIndex⟩}

def locksOf (blocks : List Block) : Multiset Lock :=
  (blocks.map fun block => block.record.elim 0 lockOf).sum

def ReadOnly (n : Nat) (blocks : List Block) : Prop :=
  ∀ block ∈ blocks, ∀ r ∈ block.record, r.type = .contractStateReadLock ∧ r.contractIndex < n

/-- A user function has been stopped: what it has put on the stack tells what it holds. -/
def Aborting (env : Env n) (base : List (LockOp Lock)) (blocks : List Block)
    (locks : Multiset Lock) (flags : Nat) (userFunction : Bool) (e : ContractError × Exec) :
    Prop :=
  userFunction ∧ ∃ extra, ReadOnly n extra ∧
    At env base (extra ++ blocks) (locksOf extra + locks) flags e.2

/-- The part of a call in between leaves everything as it was. -/
def Keeps (env : Env n) (userFunction : Bool) (f : Exec → Run Exec) : Prop :=
  ∀ base blocks locks flags s, At env base blocks locks flags s →
    (f s).Ends (At env base blocks locks flags) (Aborting env base blocks locks flags userFunction)

lemma Aborting.pop (block : Block)
    (h : Aborting env base (block :: blocks) (block.record.elim 0 lockOf + locks) flags uf e)
    (hblock : uf → ReadOnly n [block]) : Aborting env base blocks locks flags uf e := by
  obtain ⟨huf, extra, hextra, hat⟩ := h
  refine ⟨huf, extra ++ [block], ?_, ?_⟩
  · intro b hb
    obtain hb | hb := mem_append.1 hb
    · exact hextra b hb
    · exact hblock huf b hb
  · simpa [add_assoc, locksOf] using hat

lemma Aborting.pop_locals (h : Aborting env base (⟨stop, none⟩ :: blocks) locks flags uf e) :
    Aborting env base blocks locks flags uf e := by
  refine Aborting.pop ⟨stop, none⟩ (by simpa using h) fun _ b hb r hr => ?_
  obtain rfl := mem_singleton.1 hb
  cases hr

lemma qpiAbort_spec (h : At env base blocks locks flags s) (ctx : Context)
    (errorCode : ContractError) :
    (qpiAbort ctx errorCode s).Ends P
      (Aborting env base blocks locks flags ctx.userFunction) := by
  rw [qpiAbort]
  split_ifs with huf
  · exact ⟨huf, [], nofun, by simpa [locksOf] using h⟩
  · trivial

lemma qpiAllocLocals_spec (h : At env base blocks locks flags s) (ctx : Context) (size : Nat) :
    (qpiAllocLocals env ctx size s).Ends
      (fun s' => ∃ stop, At env base (⟨stop, none⟩ :: blocks) locks flags s')
      (Aborting env base blocks locks flags ctx.userFunction) := by
  rw [qpiAllocLocals]
  cases hs : s.allocate env size with
  | none => exact qpiAbort_spec h ctx _
  | some s' => exact h.allocate hs

/-! ## Locks of contract states -/

lemma At.allocateSpecial (h : At env base blocks locks flags s) {ptr : Nat} {stack : StackBuffer}
    (hstack : s.stack.allocate env.bufferSize sizeofContractRollbackInfo true = some (ptr, stack)) :
    ptr = top blocks ∧ ∃ stop r,
      At env base (⟨stop, some r⟩ :: blocks) locks flags { s with stack := stack } := by
  obtain ⟨hptr, stop, hstop⟩ := h.stack.allocateSpecial env.bufferSize_lt hstack
  exact ⟨hptr, stop, _, hstop, h.replay, h.base, h.flags⟩

lemma At.setRecord {r₀ : ContractRollbackInfo}
    (h : At env base (⟨stop, some r₀⟩ :: blocks) locks flags s) (r : ContractRollbackInfo) :
    At env base (⟨stop, some r⟩ :: blocks) locks flags (s.setRecord (top blocks) r) :=
  ⟨h.stack.setRecord r, h.replay, h.base, h.flags⟩

/-- What acquiring a state has put on the stack: a lock is reused only by procedures, while a
callback is running. -/
structure Acquired (env : Env n) (base : List (LockOp Lock)) (blocks : List Block)
    (locks : Multiset Lock) (flags : Nat) (userFunction : Bool) (lockType : LockType) (c stop : Nat)
    (r : ContractRollbackInfo) (s : Exec) : Prop where
  index : r.contractIndex = c
  type : r.type = lockType ∨
    r.type = .contractStateReuseLock ∧ userFunction = false ∧ flags ≠ NoContractCallback
  state : At env base (⟨stop, some r⟩ :: blocks) (lockOf r + locks) flags s

lemma waitForReading_spec {r₀ : ContractRollbackInfo}
    (h : At env base (⟨stop, some r₀⟩ :: blocks) locks flags s) (ctx : Context) (c fuel : Nat) :
    (waitForReading env ctx c (top blocks) fuel s).Ends
      (fun s' => ∃ stop r, Acquired env base blocks locks flags ctx.userFunction
        .contractStateReadLock c stop r s')
      (Aborting env base blocks locks flags ctx.userFunction) := by
  induction fuel generalizing s with
  | zero => trivial
  | succ fuel ih =>
    obtain ⟨ht, hf⟩ := tryAcquireRead_spec h c
    rw [waitForReading]
    generalize tryAcquireRead env c s = r at ht hf ⊢
    obtain ⟨_ | _, t⟩ := r
    · obtain ⟨hat, -⟩ := (hf rfl).callbacksRunning ctx
      dsimp only
      split_ifs with hflags
      · exact qpiAbort_spec hat.free ctx _
      · exact ih hat
    · exact ⟨stop, ⟨.contractStateReadLock, c⟩, rfl, .inl rfl, (ht rfl).setRecord _⟩

lemma qpiAcquireStateForReading_spec (h : At env base blocks locks flags s) (ctx : Context)
    (c : Nat) :
    (qpiAcquireStateForReading env ctx c s).Ends
      (fun s' => ∃ stop r, Acquired env base blocks locks flags ctx.userFunction
        .contractStateReadLock c stop r s')
      (Aborting env base blocks locks flags ctx.userFunction) := by
  rw [qpiAcquireStateForReading]
  cases hstack : s.stack.allocate env.bufferSize sizeofContractRollbackInfo true with
  | none => trivial
  | some result =>
    obtain ⟨ptr, stack⟩ := result
    obtain ⟨rfl, stop, r₀, hat⟩ := h.allocateSpecial hstack
    dsimp only
    split
    · exact waitForReading_spec hat ctx c _
    · next huf =>
      have hlocked : At env base _ locks flags (isLockedForWriting env c _).2 := hat.sample
      generalize isLockedForWriting env c _ = locked at hlocked
      split
      · next hreuse =>
        have hflags : flags ≠ NoContractCallback := hlocked.flags ▸ hreuse.1
        exact ⟨stop, ⟨.contractStateReuseLock, c⟩, rfl, .inr ⟨rfl, by simpa using huf, hflags⟩,
          by simpa [lockOf] using hlocked.setRecord _⟩
      · refine (acquireRead_spec hlocked c).bind (fun s' hs' => ?_) fun _ => id
        exact ⟨stop, ⟨.contractStateReadLock, c⟩, rfl, .inl rfl, hs'.setRecord _⟩

lemma qpiAcquireStateForWriting_spec (h : At env base blocks locks flags s) (c : Nat) :
    (qpiAcquireStateForWriting env c s).Ends
      (fun s' => ∃ stop r, Acquired env base blocks locks flags false .contractStateWriteLock c
        stop r s') Q := by
  rw [qpiAcquireStateForWriting]
  cases hstack : s.stack.allocate env.bufferSize sizeofContractRollbackInfo true with
  | none => trivial
  | some result =>
    obtain ⟨ptr, stack⟩ := result
    obtain ⟨rfl, stop, r₀, hat⟩ := h.allocateSpecial hstack
    have hlocked : At env base _ locks flags (isLockedForWriting env c _).2 := hat.sample
    dsimp only
    generalize isLockedForWriting env c _ = locked at hlocked
    split
    · next hreuse =>
      have hflags : flags ≠ NoContractCallback := hlocked.flags ▸ hreuse.1
      exact ⟨stop, ⟨.contractStateReuseLock, c⟩, rfl, .inr ⟨rfl, rfl, hflags⟩,
        by simpa [lockOf] using hlocked.setRecord _⟩
    · refine (acquireWrite_spec hlocked c).bind (fun s' hs' => ?_) fun _ => id
      exact ⟨stop, ⟨.contractStateWriteLock, c⟩, rfl, .inl rfl, hs'.setRecord _⟩

lemma lockOf_read (h : r.type = .contractStateReadLock) :
    lockOf r = {⟨.read, r.contractIndex⟩} := by
  rw [lockOf, h]

lemma lockOf_write (h : r.type = .contractStateWriteLock) :
    lockOf r = {⟨.write, r.contractIndex⟩} := by
  rw [lockOf, h]

lemma lockOf_reuse (h : r.type = .contractStateReuseLock) : lockOf r = 0 := by rw [lockOf, h]

lemma qpiReleaseStateForReading_spec {c : Nat}
    (h : Acquired env base blocks locks flags ctx.userFunction .contractStateReadLock c stop r s) :
    At env base blocks locks flags (qpiReleaseStateForReading env ctx c s) := by
  obtain ⟨rfl, htype, hat⟩ := h
  obtain ⟨hat, hflags⟩ := hat.callbacksRunning ctx
  rw [qpiReleaseStateForReading]
  generalize s.callbacksRunning env ctx = seen at hat hflags ⊢
  obtain ⟨seen, t⟩ := seen
  dsimp only at hat hflags ⊢
  split_ifs with hseen hread
  · -- No callback is running, so the lock is not a reused one.
    have hread : r.type = .contractStateReadLock := by
      obtain hread | ⟨-, huf, hne⟩ := htype
      · exact hread
      · exact absurd ((hflags huf).symm.trans hseen) hne
    rw [lockOf_read hread, Multiset.singleton_add] at hat
    exact hat.release.free
  · obtain ⟨hr, hrest⟩ := hat.unwindRollbackInfo
    rw [hr] at hread
    rw [lockOf_read hread, Multiset.singleton_add] at hrest
    exact hrest.release
  · obtain ⟨hr, hrest⟩ := hat.unwindRollbackInfo
    rw [hr] at hread
    rw [lockOf_reuse (htype.resolve_left hread).1, zero_add] at hrest
    exact hrest

lemma qpiReleaseStateForWriting_spec {c : Nat}
    (h : Acquired env base blocks locks flags false .contractStateWriteLock c stop r s) :
    At env base blocks locks flags (qpiReleaseStateForWriting env c s) := by
  obtain ⟨rfl, htype, hat⟩ := h
  rw [qpiReleaseStateForWriting]
  dsimp only
  split_ifs with hnone hwrite
  · have hwrite : r.type = .contractStateWriteLock := by
      obtain hwrite | ⟨-, -, hne⟩ := htype
      · exact hwrite
      · exact absurd (hat.flags.symm.trans hnone) hne
    rw [lockOf_write hwrite, Multiset.singleton_add] at hat
    exact hat.release.free
  · obtain ⟨hr, hrest⟩ := hat.unwindRollbackInfo
    rw [hr] at hwrite
    rw [lockOf_write hwrite, Multiset.singleton_add] at hrest
    exact hrest.release
  · obtain ⟨hr, hrest⟩ := hat.unwindRollbackInfo
    rw [hr] at hwrite
    rw [lockOf_reuse (htype.resolve_left hwrite).1, zero_add] at hrest
    exact hrest

/-! ## Calls -/

lemma Keeps.pure : Keeps env uf pure := fun _ _ _ _ _ h => h

lemma Keeps.bind {f g : Exec → Run Exec} (hf : Keeps env uf f) (hg : Keeps env uf g) :
    Keeps env uf fun s => f s >>= g := by
  intro base blocks locks flags s h
  exact (hf _ _ _ _ _ h).bind (fun s hs => hg _ _ _ _ _ hs) fun _ => id

lemma keeps_qpiAbort (huf : ctx.userFunction = uf) (errorCode : ContractError) :
    Keeps env uf (qpiAbort ctx errorCode) :=
  fun _ _ _ _ _ h => huf ▸ qpiAbort_spec h ctx errorCode

lemma keeps_withLocals (huf : ctx.userFunction = uf) {body : Exec → Run Exec} (localsSize : Nat)
    (hbody : Keeps env uf body) :
    Keeps env uf (withLocals env ctx localsSize body) := by
  subst huf
  intro base blocks locks flags s h
  refine (qpiAllocLocals_spec h ctx localsSize).bind (fun s hs => ?_) fun _ => id
  obtain ⟨stop, hs⟩ := hs
  refine (hbody _ _ _ _ _ hs).bind (fun s hs => ?_) fun _ => Aborting.pop_locals
  exact hs.free

lemma Aborting.pop_acquired {c : Fin n}
    (hs : Acquired env base blocks locks flags uf .contractStateReadLock c stop r s)
    (h : Aborting env base (⟨stop, some r⟩ :: blocks) (lockOf r + locks) flags uf e) :
    Aborting env base blocks locks flags uf e := by
  refine Aborting.pop ⟨stop, some r⟩ h fun huf b hb r' hr' => ?_
  obtain rfl := mem_singleton.1 hb
  obtain rfl : r = r' := by simpa using hr'
  refine ⟨hs.type.resolve_right fun hreuse => ?_, hs.index ▸ c.isLt⟩
  exact Bool.false_ne_true (hreuse.2.1.symm.trans huf)

/-- A context has been built on top of the stack, or the call is refused. -/
def Constructed (env : Env n) (base : List (LockOp Lock)) (blocks : List Block)
    (locks : Multiset Lock) (flags : Nat) : Option InterContractCallError × Exec → Prop
  | (none, s) => ∃ stop, At env base (⟨stop, none⟩ :: blocks) locks flags s
  | (some _, s) => At env base blocks locks flags s

lemma qpiConstructContextOtherContractFunctionCall_spec
    (h : At env base blocks locks flags s) (c : Nat) :
    Constructed env base blocks locks flags
      (qpiConstructContextOtherContractFunctionCall env c s) := by
  rw [qpiConstructContextOtherContractFunctionCall, inErrorState]
  dsimp only
  split
  · exact h.sample
  · split
    · exact h.sample
    · next ht => exact h.sample.allocate ht

lemma keeps_callOtherContractFunction (huf : ctx.userFunction = uf) (c : Fin n) (localsSize : Nat)
    (hbody : Keeps env uf (body { ctx with currentContractIndex := c })) :
    Keeps env uf (callOtherContractFunction env ctx c localsSize body) := by
  subst huf
  intro base blocks locks flags s h
  have hconstructed := qpiConstructContextOtherContractFunctionCall_spec h c
  rw [callOtherContractFunction]
  generalize qpiConstructContextOtherContractFunctionCall env c s = r at hconstructed ⊢
  obtain ⟨_ | _, t⟩ := r
  · obtain ⟨stop, ht⟩ := hconstructed
    refine (qpiAcquireStateForReading_spec ht ctx c).bind (fun s hs => ?_)
      fun _ => Aborting.pop_locals
    obtain ⟨stop', r, hs⟩ := hs
    refine (keeps_withLocals rfl localsSize hbody _ _ _ _ _ hs.state).bind (fun s hs' => ?_)
      fun _ he => (Aborting.pop_acquired hs he).pop_locals
    exact (qpiReleaseStateForReading_spec ⟨hs.index, hs.type, hs'⟩).free
  · exact hconstructed

/-- A procedure cannot be aborted. -/
lemma not_aborting :
    ¬Aborting env base blocks locks flags false e := fun h => Bool.false_ne_true h.1

lemma getContractFeeReserve_spec (h : At env base blocks locks flags s) (c : Nat) :
    (getContractFeeReserve env c s).Ends (fun r => At env base blocks locks flags r.2) Q :=
  (acquireRead_spec h 0).bind (fun _ hs => hs.sample.release) fun _ => id

lemma hasFeeReserve_spec (h : At env base blocks locks flags s) (c : Nat) (skipFeeCheck : Bool) :
    (hasFeeReserve env c skipFeeCheck s).Ends (fun r => At env base blocks locks flags r.2) Q := by
  rw [hasFeeReserve]
  split
  · exact h
  · exact (getContractFeeReserve_spec h c).bind (fun _ => id) fun _ => id

lemma qpiConstructProcedureCallContext_spec (hpay : Keeps env false pay)
    (h : At env base blocks locks flags s) (c : Nat) (skipFeeCheck : Bool) :
    (qpiConstructProcedureCallContext env c skipFeeCheck pay s).Ends
      (Constructed env base blocks locks flags) (Aborting env base blocks locks flags false) := by
  rw [qpiConstructProcedureCallContext, inErrorState]
  dsimp only
  split
  · exact h.sample
  · split
    · exact h.sample
    · refine (hasFeeReserve_spec h.sample c skipFeeCheck).bind (fun r hr => ?_) fun _ => id
      split
      · exact hr
      · split
        · exact hr
        · next ht =>
          obtain ⟨stop, ht⟩ := hr.allocate ht
          exact (hpay _ _ _ _ _ ht).bind (fun s hs => ⟨stop, hs⟩) fun _ he => absurd he not_aborting

lemma keeps_qpiTransfer (huf : ctx.userFunction = uf) {notify : Fin n → Exec → Run Exec}
    (hnotify : ∀ c, Keeps env uf (notify c)) (destination : Option (Fin n)) (payment : Payment) :
    Keeps env uf (qpiTransfer env ctx destination payment notify) := by
  subst huf
  intro base blocks locks flags s h
  cases destination with
  | none =>
    simp only [qpiTransfer]
    split
    · exact h
    · split
      · exact h
      · split
        · exact qpiAbort_spec h ctx _
        · exact h
  | some c =>
    have hflags := (h.callbacksRunning ctx).1
    simp only [qpiTransfer]
    generalize s.callbacksRunning env ctx = seen at hflags ⊢
    split
    · exact hflags
    · split
      · exact hflags.sample
      · split
        · exact hflags.sample
        · split
          · exact hflags.sample
          · split
            · exact qpiAbort_spec hflags.sample ctx _
            · split
              · exact hflags.sample
              · exact hnotify c _ _ _ _ _ hflags.sample

lemma keeps_withOtherState {body : Exec → Run Exec} (c : Nat) (hbody : Keeps env false body) :
    Keeps env false (withOtherState env ctx c body) := by
  intro base blocks locks flags s h
  rw [withOtherState]
  split
  · exact hbody _ _ _ _ _ h
  · refine (qpiAcquireStateForWriting_spec h c).bind (fun s hs => ?_) fun _ => id
    obtain ⟨stop, r, hs⟩ := hs
    refine (hbody _ _ _ _ _ hs.state).bind (fun s hs' => ?_) fun _ he => absurd he not_aborting
    exact qpiReleaseStateForWriting_spec ⟨hs.index, hs.type, hs'⟩

lemma keeps_qpiCallSystemProc (huf : ctx.userFunction = false) (id : SystemProcedureID)
    (c : Fin n) (hpay : Keeps env false pay)
    (hbody : Keeps env false (body { ctx with currentContractIndex := c })) :
    Keeps env false (qpiCallSystemProc env ctx id c pay body) := by
  intro base blocks locks flags s h
  rw [qpiCallSystemProc]
  split
  · exact h
  · next localsSize _ =>
    refine (qpiConstructProcedureCallContext_spec hpay (h.setFlags _) c true).bind
      (fun r hr => ?_) fun _ he => absurd he not_aborting
    obtain ⟨_ | error, t⟩ := r
    · obtain ⟨stop, ht⟩ := hr
      have hlocals := keeps_withLocals huf localsSize hbody
      refine (keeps_withOtherState c hlocals _ _ _ _ _ ht).bind (fun s hs => ?_)
        fun _ he => absurd he not_aborting
      exact h.flags ▸ hs.free.setFlags _
    · have hstuck : ∀ e t, qpiAbort ctx e t = .stuck := fun e t => by simp [qpiAbort, huf]
      cases error <;> simp only [hstuck] <;> trivial

lemma keeps_qpiNotifyPostIncomingTransfer (huf : ctx.userFunction = false)
    (hbody : ∀ c : Fin n, Keeps env false (body { ctx with currentContractIndex := c }))
    (c : Fin n) :
    Keeps env false (qpiNotifyPostIncomingTransfer env ctx body c) := by
  intro base blocks locks flags s h
  rw [qpiNotifyPostIncomingTransfer, inErrorState]
  dsimp only
  split
  · exact h
  · split
    · exact h.sample
    · exact keeps_qpiCallSystemProc huf _ c
        (keeps_qpiTransfer huf (fun _ => Keeps.pure) (some c) ⟨0, true, true⟩) (hbody c)
        _ _ _ _ _ h.sample

lemma keeps_invokeOtherContractProcedure (huf : ctx.userFunction = false) (c : Fin n)
    (localsSize : Nat) (hpay : Keeps env false pay)
    (hbody : Keeps env false (body { ctx with currentContractIndex := c })) :
    Keeps env false (invokeOtherContractProcedure env ctx c localsSize pay body) := by
  intro base blocks locks flags s h
  refine (qpiConstructProcedureCallContext_spec hpay h c false).bind (fun r hr => ?_) fun _ => id
  obtain ⟨_ | error, t⟩ := r
  · obtain ⟨stop, ht⟩ := hr
    refine (qpiAcquireStateForWriting_spec ht c).bind (fun s hs => ?_) fun _ => id
    obtain ⟨stop', r, hs⟩ := hs
    refine (keeps_withLocals huf localsSize hbody _ _ _ _ _ hs.state).bind (fun s hs' => ?_)
      fun _ he => absurd he not_aborting
    exact (qpiReleaseStateForWriting_spec ⟨hs.index, hs.type, hs'⟩).free
  · exact hr

lemma keeps_run {k : Kind} (code : Code n k) (huf : ctx.userFunction = uf)
    (hk : k = .procedure → uf = false) :
    Keeps env uf (code.run env ctx) := by
  induction code generalizing ctx with
  | done => exact Keeps.pure
  | abort errorCode => exact keeps_qpiAbort huf errorCode
  | call localsSize body next hbody hnext =>
    exact (keeps_withLocals huf localsSize (hbody huf hk)).bind (hnext huf hk)
  | readState c next hnext =>
    intro base blocks locks flags s h
    exact (acquireRead_spec h c).bind (fun s hs => hnext huf hk _ _ _ _ _ hs.release) fun _ => id
  | callOtherContractFunction c localsSize body next hbody hnext =>
    exact (keeps_callOtherContractFunction huf c localsSize (hbody huf nofun)).bind
      (hnext huf hk)
  | writeState c next hnext =>
    intro base blocks locks flags s h
    exact (acquireWrite_spec h c).bind (fun s hs => hnext huf hk _ _ _ _ _ hs.release) fun _ => id
  | transfer destination payment callback next hcallback hnext =>
    obtain rfl := hk rfl
    refine (keeps_qpiTransfer huf (keeps_qpiNotifyPostIncomingTransfer huf fun c => ?_)
      destination payment).bind (hnext huf hk)
    exact hcallback huf hk
  | invokeOtherContractProcedure c reward callback localsSize body next hcallback hbody hnext =>
    obtain rfl := hk rfl
    refine (keeps_invokeOtherContractProcedure huf c localsSize (keeps_qpiTransfer huf
      (keeps_qpiNotifyPostIncomingTransfer huf fun c => ?_) (some c) reward) ?_).bind
      (hnext huf hk)
    · exact hcallback huf hk
    · exact hbody huf hk
  | callSystemProc id c reward callback body next hcallback hbody hnext =>
    obtain rfl := hk rfl
    refine (keeps_qpiCallSystemProc huf id c (keeps_qpiTransfer huf
      (keeps_qpiNotifyPostIncomingTransfer huf fun c => ?_) (some c) reward) ?_).bind
      (hnext huf hk)
    · exact hcallback huf hk
    · exact hbody huf hk

/-! ## Rollback -/

lemma locksOf_cons (block : Block) (blocks : List Block) :
    locksOf (block :: blocks) = block.record.elim 0 lockOf + locksOf blocks := by
  rw [locksOf, map_cons, sum_cons, locksOf]

lemma ReadOnly.write_notMem (h : ReadOnly n blocks) (c : Nat) : ⟨.write, c⟩ ∉ locksOf blocks := by
  induction blocks with
  | nil => exact Multiset.notMem_zero _
  | cons block blocks ih =>
    rw [locksOf_cons, Multiset.mem_add, not_or]
    refine ⟨?_, ih fun b hb => h b (mem_cons_of_mem _ hb)⟩
    cases hr : block.record with
    | none => exact Multiset.notMem_zero _
    | some r => simp [lockOf_read (h block mem_cons_self r hr).1]

/-- Each block is unwound once, and each record releases its lock. -/
lemma rollbackLoop_spec {fuel : Nat} (h : At env base blocks (locksOf blocks) flags s)
    (hread : ReadOnly n blocks) (hfuel : blocks.length ≤ fuel) :
    At env base [] 0 flags (rollbackLoop env fuel s) := by
  induction fuel generalizing blocks s with
  | zero =>
    obtain rfl : blocks = [] := length_eq_zero_iff.1 (by omega)
    exact h
  | succ fuel ih =>
    rw [rollbackLoop]
    cases blocks with
    | nil =>
      rw [unwind_empty h.stack]
      exact h
    | cons block blocks =>
      obtain ⟨size, hunwind, hrecord⟩ := h.stack.unwind env.bufferSize_lt
      have hrest : ReadOnly n blocks := fun b hb => hread b (mem_cons_of_mem _ hb)
      have hlength : blocks.length ≤ fuel := by simpa using hfuel
      have hfree := h.free
      rw [hunwind]
      rw [locksOf_cons] at hfree
      simp only [Bool.not_true, Bool.false_eq_true, if_false]
      cases hr : block.record with
      | none =>
        rw [hr, elim_none, zero_add] at hfree
        exact ih hfree hrest hlength
      | some r =>
        obtain ⟨hsize, hbuffer⟩ := hrecord r hr
        obtain ⟨htype, hindex⟩ := hread block mem_cons_self r hr
        rw [hr, elim_some, lockOf_read htype, Multiset.singleton_add] at hfree
        have hpos := hfree.sample.readers_pos (Multiset.mem_cons_self _ _)
          (by simp [hrest.write_notMem]) (env.moments s.time)
        simp only [isSome_some, hsize, true_and, if_true, hbuffer]
        rw [if_pos ⟨htype, hindex, hpos⟩]
        exact ih hfree.sample.release hrest hlength

lemma rollbackContractFunctionCall_spec (h : Aborting env base [] 0 flags true e) :
    At env base [] 0 flags (rollbackContractFunctionCall env e.2) := by
  obtain ⟨-, extra, hread, hat⟩ := h
  rw [append_nil, add_zero] at hat
  refine rollbackLoop_spec hat hread ?_
  rw [hat.stack.size]
  exact hat.stack.chain.length_le

/-! ## Calls by the node -/

lemma At.acquireContractLocalsStack (h : At env base [] locks flags s) :
    At env base [] locks flags (acquireContractLocalsStack s) := by
  have hsize : s.stack.allocatedSize = 0 := h.stack.size
  rw [ContractExec.acquireContractLocalsStack, if_neg (not_not.2 hsize)]
  exact h

lemma runUserFunction_spec (h : At env base blocks 0 flags s) (c : Fin n)
    (body : Code n .function) :
    (runUserFunction env c body s).Ends (At env base blocks 0 flags)
      (Aborting env base blocks 0 flags true) := by
  refine (qpiAcquireStateForReading_spec h ⟨c, true⟩ c).bind (fun s hs => ?_) fun _ => id
  obtain ⟨stop, r, hs⟩ := hs
  refine (keeps_run body rfl nofun _ _ _ _ _ hs.state).bind (fun s hs' => ?_)
    fun _ => Aborting.pop_acquired hs
  have hacquired : Acquired env base blocks 0 flags (Context.mk c true).userFunction _ c _ r s :=
    ⟨hs.index, hs.type, hs'⟩
  exact qpiReleaseStateForReading_spec hacquired

lemma finishUserFunction_spec {o : Run Exec} (ho : o.Ends (At env base [⟨stop, none⟩] 0 flags)
      (Aborting env base [⟨stop, none⟩] 0 flags true)) (hs' : finishUserFunction env o = some s') :
    At env base [] 0 flags s' := by
  cases o with
  | returned s =>
    obtain rfl := some.inj hs'
    exact At.free ho
  | aborted e =>
    obtain rfl := some.inj hs'
    exact rollbackContractFunctionCall_spec (Aborting.pop_locals ho)
  | stuck => cases hs'

lemma callUserFunction_spec (h : At env base [] 0 flags s) {c : Fin n}
    {inputSize outputSize localsSize : Nat} {body : Code n .function}
    (hs' : callUserFunction env c inputSize outputSize localsSize body s = some s') :
    At env base [] 0 flags s' := by
  have herror : At env base [] 0 flags (inErrorState env c s).2 := h.sample
  rw [callUserFunction] at hs'
  generalize inErrorState env c s = r at herror hs'
  obtain ⟨_ | _, t⟩ := r
  · simp only [Bool.false_eq_true, if_false] at hs'
    split at hs'
    · cases hs'
    · next ht =>
      obtain ⟨stop, ht⟩ := herror.acquireContractLocalsStack.allocate ht
      exact finishUserFunction_spec (runUserFunction_spec ht c body) hs'
  · obtain rfl := some.inj hs'
    exact herror

lemma callSystemProcedure_spec (h : At env base [] 0 flags s) (procId : SystemProcedureID)
    (c : Fin n) (body : Code n .procedure) :
    (callSystemProcedure env procId c body s).Ends (At env base [] 0 flags) fun _ => True := by
  simp only [callSystemProcedure]
  split
  · exact h
  · next localsSize _ =>
    have hbody : Keeps env false fun s => body.run env ⟨c, false⟩ s :=
      keeps_run body rfl fun _ => rfl
    refine (acquireWrite_spec h.acquireContractLocalsStack c).bind (fun s hs => ?_) fun _ => id
    split
    · exact (hbody _ _ _ _ _ hs).bind (fun s hs => hs.release) fun _ _ => trivial
    · exact (keeps_withLocals rfl localsSize hbody _ _ _ _ _ hs).bind (fun s hs => hs.release)
        fun _ _ => trivial

lemma ended_spec {o : Run Exec} (ho : o.Ends P Q) (hs' : ended o = some s') : P s' := by
  cases o with
  | returned s =>
    obtain rfl := some.inj hs'
    exact ho
  | aborted e | stuck => cases hs'

/-- A call that ends leaves the processor as it was: nothing on the stack, nothing held. -/
lemma call_spec (h : At env base [] 0 NoContractCallback s) (entry : Entry n)
    (hs' : entry.call env s = some s') : At env base [] 0 NoContractCallback s' := by
  cases entry with
  | userFunction c inputSize outputSize localsSize body => exact callUserFunction_spec h hs'
  | userProcedure c inputSize outputSize localsSize body =>
    refine ended_spec (Q := fun _ => True) ?_ hs'
    simp only [callUserProcedure]
    split
    · trivial
    · next t ht =>
      obtain ⟨stop, ht⟩ := h.acquireContractLocalsStack.allocate ht
      refine (acquireWrite_spec ht c).bind (fun s hs => ?_) fun _ => id
      exact (keeps_run body rfl (fun _ => rfl) _ _ _ _ _ hs).bind (fun s hs => hs.release.free)
        fun _ _ => trivial
  | systemProcedure id c body => exact ended_spec (callSystemProcedure_spec h id c body) hs'
  | postIncomingTransfer c body =>
    refine ended_spec (Q := fun _ => True) ?_ hs'
    exact (callSystemProcedure_spec (h.setFlags _) _ c body).bind (fun _ hs => hs.setFlags _)
      fun _ => id
  | notification c inputSize localsSize body =>
    refine ended_spec (Q := fun _ => True) ?_ hs'
    have hbody : Keeps env false fun s => body.run env ⟨c, false⟩ s :=
      keeps_run body rfl fun _ => rfl
    refine (acquireWrite_spec h.acquireContractLocalsStack c).bind (fun s hs => ?_) fun _ => id
    exact (keeps_withLocals rfl _ hbody _ _ _ _ _ hs).bind (fun s hs => hs.release)
      fun _ _ => trivial

lemma runCalls_spec {calls : List (Entry n)} (h : At env base [] 0 NoContractCallback s)
    (hs' : runCalls env calls s = some s') : At env base [] 0 NoContractCallback s' := by
  induction calls generalizing s with
  | nil =>
    obtain rfl := some.inj hs'
    exact h
  | cons entry calls ih =>
    obtain ⟨t, ht, hrest⟩ := bind_eq_some_iff.1 hs'
    exact ih (call_spec h entry ht) hrest

/-- After any calls, a call that ends has released each lock that it has taken exactly once and no
other lock, and has left the size of the locals stack and the callback flags as they were. -/
theorem call_restores (env : Env n) (stack : StackBuffer) (calls : List (Entry n))
    (entry : Entry n) (s s' : Exec) (hs : runCalls env calls (initContractExec stack) = some s)
    (hs' : entry.call env s = some s') :
    (∃ ops, s'.trace = s.trace ++ ops ∧ LockOp.Balanced ops) ∧
    s'.stack.allocatedSize = s.stack.allocatedSize ∧
    s'.contractCallbacksRunning = s.contractCallbacksRunning := by
  have hinit : At env [] [] 0 NoContractCallback (initContractExec stack) :=
    ⟨Represents.init rfl, rfl, nil_prefix, rfl⟩
  have hbefore := runCalls_spec hinit hs
  have hafter := call_spec ⟨hbefore.stack, hbefore.replay, prefix_rfl, hbefore.flags⟩ entry hs'
  obtain ⟨ops, hops⟩ := hafter.base
  refine ⟨⟨ops, hops.symm, ?_⟩, ?_, ?_⟩
  · have hbalanced : LockOp.Balanced s.trace := hbefore.replay
    refine hbalanced.of_append ?_
    rw [hops]
    exact hafter.replay
  · rw [hafter.stack.size, hbefore.stack.size]
  · rw [hafter.flags, hbefore.flags]

/-- A node whose other processors do nothing, with two contracts. -/
def quietNode : Env 2 where
  moments _ := ⟨fun _ => 0, fun _ => false, fun _ => 0, 0, fun _ => .noContractError, fun _ => 1⟩
  patience := 2
  bufferSize := 4096
  bufferSize_lt := by decide
  sizeofQpiContextFunctionCall := 136
  sizeofQpiContextProcedureCall := 136
  epoch := 5
  contractDescriptions _ := ⟨0, 1, 9⟩
  systemProcedures _ _ := some 16

def stoppedFunction : Entry 2 :=
  .userFunction 1 8 8 32 (.callOtherContractFunction 0 64 (.abort .timeout) .done)

def payingProcedure : Entry 2 :=
  .userProcedure 1 8 8 32
    (.transfer (some 0) ⟨10, true, true⟩ (.callOtherContractFunction 1 8 .done .done) .done)

def emptyBuffer : StackBuffer := ⟨0, fun _ => 0, fun _ => ⟨.contractStateReuseLock, 0⟩⟩

theorem call_restores_stoppedFunction :
    ∃ s s', runCalls quietNode [payingProcedure] (initContractExec emptyBuffer) = some s ∧
      stoppedFunction.call quietNode s = some s' ∧ s'.trace.length = 8 ∧
      ∃ ops, s'.trace = s.trace ++ ops ∧ LockOp.Balanced ops := by
  have hrun : ((runCalls quietNode [payingProcedure, stoppedFunction]
      (initContractExec emptyBuffer)).map fun s => s.trace.length) = some 8 := by decide +kernel
  obtain ⟨s', hs', hlength⟩ := map_eq_some_iff.1 hrun
  rw [runCalls, foldlM_cons] at hs'
  obtain ⟨s, hs, hlast⟩ := bind_eq_some_iff.1 hs'
  have hbefore : runCalls quietNode [payingProcedure] (initContractExec emptyBuffer) = some s := by
    rw [runCalls, foldlM_cons, hs]
    rfl
  have hcall : stoppedFunction.call quietNode s = some s' := by simpa using hlast
  exact ⟨s, s', hbefore, hcall, hlength,
    (call_restores quietNode emptyBuffer _ stoppedFunction s s' hbefore hcall).1⟩

end QubicCore.ContractExec
