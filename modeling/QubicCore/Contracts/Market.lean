import QubicCore.Contracts.Ledger

/-!
# Exact moves of shares

Contracts that trade shares for their users depend on more than a bound on what leaves an account: a
move of shares that are there has to succeed, and a move of more has to fail. This section states
these conditions for a node whose universe has room, and records the moves that succeed.
-/

namespace QubicCore.Contracts

variable {W : Type}
  {amount : Int} {a : Asset} {owner : M256i}

/-- The functions of `qpi`, with the owners of an asset and their numbers of shares in the order of
`AssetOwnershipIterator`. -/
structure AssetHost (W : Type) extends Qpi W where
  owners : Asset → W → List (M256i × Int)

/-- From `w` to `w'` the shares of each account fall by at most `lost`. -/
def Qpi.SharesFall (qpi : Qpi W) (selfIndex : Nat) (w w' : W) (lost : Asset → M256i → Int) : Prop :=
  ∀ a x, qpi.shares selfIndex a x w ≤ qpi.shares selfIndex a x w' + lost a x

def Qpi.moveShares (qpi : Qpi W) (a : Asset) (owner newOwner : M256i) (amount : Int) (w : W) :
    Int × W :=
  qpi.transferShareOwnershipAndPossession a.assetName a.issuer owner owner amount newOwner w

structure Qpi.Exact (qpi : Qpi W) (selfIndex : Nat) (balance : W → Int) : Prop where
  shares_nonneg : ∀ a x w, 0 ≤ qpi.shares selfIndex a x w
  shares_le : ∀ a x w, qpi.shares selfIndex a x w ≤ MAX_AMOUNT
  transfer_shares : ∀ destination amount w a x,
    qpi.shares selfIndex a x (qpi.transfer destination amount w).2 = qpi.shares selfIndex a x w
  /-- A payment that the balance covers succeeds. -/
  transfer_paid : ∀ destination amount w, 0 ≤ amount → amount ≤ balance w →
    0 ≤ (qpi.transfer destination amount w).1
  transfer_balance : ∀ destination amount w,
    balance w ≤ balance (qpi.transfer destination amount w).2 + max amount 0
  burn_shares : ∀ amount w a x,
    qpi.shares selfIndex a x (qpi.burn amount w).2 = qpi.shares selfIndex a x w
  distributeDividends_shares : ∀ amountPerShare w a x,
    qpi.shares selfIndex a x (qpi.distributeDividends amountPerShare w).2 =
      qpi.shares selfIndex a x w
  issueAsset_shares : ∀ name issuer numberOfDecimalPlaces numberOfShares unitOfMeasurement w,
    qpi.SharesFall selfIndex w (qpi.issueAsset name issuer numberOfDecimalPlaces numberOfShares
      unitOfMeasurement w).2 0
  moveShares_moved : ∀ a owner newOwner amount w, newOwner ≠ 0 → 0 < amount →
    amount ≤ qpi.shares selfIndex a owner w → 0 ≤ (qpi.moveShares a owner newOwner amount w).1 ∧
      ∀ b x, qpi.shares selfIndex b x (qpi.moveShares a owner newOwner amount w).2 =
        qpi.shares selfIndex b x w + sharesLoss a newOwner amount b x -
          sharesLoss a owner amount b x
  /-- A move to the zero identity burns shares, if it succeeds. -/
  moveShares_burnt : ∀ a owner amount w, 0 ≤ amount →
    qpi.SharesFall selfIndex w (qpi.moveShares a owner 0 amount w).2 (sharesLoss a owner amount)
  moveShares_refused : ∀ a owner newOwner amount w,
    ¬(0 < amount ∧ amount ≤ qpi.shares selfIndex a owner w) →
    (qpi.moveShares a owner newOwner amount w).1 < 0 ∧
      ∀ b x, qpi.shares selfIndex b x (qpi.moveShares a owner newOwner amount w).2 =
        qpi.shares selfIndex b x w
  moveShares_balance : ∀ a owner newOwner amount w,
    balance (qpi.moveShares a owner newOwner amount w).2 = balance w
  releaseShares_shares : ∀ (a : Asset) owner numberOfShares destination fee w, 0 ≤ numberOfShares →
    qpi.SharesFall selfIndex w (qpi.releaseShares a.issuer a.assetName owner owner numberOfShares
      destination destination fee w).2 (sharesLoss a owner numberOfShares)

section

variable {qpi : Qpi W} {selfIndex : Nat} {balance : W → Int} {w w' w'' : W}
  {lost lost' : Asset → M256i → Int}

lemma Qpi.SharesFall.refl (w : W) : qpi.SharesFall selfIndex w w 0 := fun a x => by simp

lemma Qpi.SharesFall.trans (h : qpi.SharesFall selfIndex w w' lost)
    (h' : qpi.SharesFall selfIndex w' w'' lost') :
    qpi.SharesFall selfIndex w w'' (lost + lost') := by
  intro a x
  have h1 := h a x
  have h2 := h' a x
  simp only [Pi.add_apply]
  omega

lemma sharesLoss_nonneg (a b : Asset) (account x : M256i) (h : 0 ≤ amount) :
    0 ≤ sharesLoss a account amount b x := by
  unfold sharesLoss
  split_ifs
  · exact h
  · exact le_rfl

lemma Qpi.Exact.transfer_fall (h : qpi.Exact selfIndex balance) (destination : M256i)
    (amount : Int) (w : W) :
    qpi.SharesFall selfIndex w (qpi.transfer destination amount w).2 0 := by
  intro a x
  rw [h.transfer_shares]
  simp

lemma Qpi.Exact.moveShares_fall (h : qpi.Exact selfIndex balance) (a : Asset)
    (owner newOwner : M256i) (hamount : 0 ≤ amount) (w : W) :
    qpi.SharesFall selfIndex w (qpi.moveShares a owner newOwner amount w).2
      (sharesLoss a owner amount) := by
  intro b x
  have howner := sharesLoss_nonneg a b owner x hamount
  by_cases hmove : 0 < amount ∧ amount ≤ qpi.shares selfIndex a owner w
  · by_cases hzero : newOwner = 0
    · rw [hzero]
      exact h.moveShares_burnt a owner amount w hamount b x
    · have hnew := sharesLoss_nonneg a b newOwner x hamount
      rw [(h.moveShares_moved a owner newOwner amount w hzero hmove.1 hmove.2).2 b x]
      omega
  · rw [(h.moveShares_refused a owner newOwner amount w hmove).2 b x]
    omega

end

/-! ## Recorded moves -/

inductive Move where
  | shares (a : Asset) (source destination : M256i) (amount : Int)
  | qu (destination : M256i) (amount : Int)
deriving DecidableEq

def note (m : Move) (moves : List Move) (r : Int × W) : Int × W × List Move :=
  (r.1, r.2, if r.1 < 0 then moves else moves ++ [m])

def Qpi.recorded (qpi : Qpi W) : Qpi (W × List Move) where
  transfer destination amount w := note (.qu destination amount) w.2
    (qpi.transfer destination amount w.1)
  burn amount w := ((qpi.burn amount w.1).1, (qpi.burn amount w.1).2, w.2)
  distributeDividends amountPerShare w :=
    ((qpi.distributeDividends amountPerShare w.1).1,
      (qpi.distributeDividends amountPerShare w.1).2, w.2)
  isAssetIssued issuer assetName w := qpi.isAssetIssued issuer assetName w.1
  issueAsset name issuer decimals amount unit w :=
    ((qpi.issueAsset name issuer decimals amount unit w.1).1,
      (qpi.issueAsset name issuer decimals amount unit w.1).2, w.2)
  numberOfPossessedShares assetName issuer owner possessor i j w :=
    qpi.numberOfPossessedShares assetName issuer owner possessor i j w.1
  transferShareOwnershipAndPossession assetName issuer owner possessor amount newOwner w :=
    note (.shares ⟨issuer, assetName⟩ owner newOwner amount) w.2
      (qpi.transferShareOwnershipAndPossession assetName issuer owner possessor amount newOwner w.1)
  releaseShares issuer assetName owner possessor amount i j fee w :=
    ((qpi.releaseShares issuer assetName owner possessor amount i j fee w.1).1,
      (qpi.releaseShares issuer assetName owner possessor amount i j fee w.1).2, w.2)

lemma Qpi.Exact.recorded {qpi : Qpi W} {selfIndex : Nat} {balance : W → Int}
    (h : qpi.Exact selfIndex balance) :
    qpi.recorded.Exact selfIndex fun w => balance w.1 where
  shares_nonneg a x w := h.shares_nonneg a x w.1
  shares_le a x w := h.shares_le a x w.1
  transfer_shares destination amount w a x := h.transfer_shares destination amount w.1 a x
  transfer_paid destination amount w := h.transfer_paid destination amount w.1
  transfer_balance destination amount w := h.transfer_balance destination amount w.1
  burn_shares amount w a x := h.burn_shares amount w.1 a x
  distributeDividends_shares amount w a x := h.distributeDividends_shares amount w.1 a x
  issueAsset_shares name issuer decimals amount unit w :=
    h.issueAsset_shares name issuer decimals amount unit w.1
  moveShares_moved a owner newOwner amount w := h.moveShares_moved a owner newOwner amount w.1
  moveShares_burnt a owner amount w := h.moveShares_burnt a owner amount w.1
  moveShares_refused a owner newOwner amount w := h.moveShares_refused a owner newOwner amount w.1
  moveShares_balance a owner newOwner amount w := h.moveShares_balance a owner newOwner amount w.1
  releaseShares_shares a owner amount destination fee w :=
    h.releaseShares_shares a owner amount destination fee w.1

def sharesMoved (a : Asset) (source destination : M256i) (moves : List Move) : Int :=
  (moves.map fun
    | .shares b s d n => if b = a ∧ s = source ∧ d = destination then n else 0
    | .qu _ _ => 0).sum

def quTo (account : M256i) (moves : List Move) : Int :=
  (moves.map fun
    | .shares .. => 0
    | .qu d n => if d = account then n else 0).sum

lemma sharesMoved_append (a : Asset) (source destination : M256i) (l l' : List Move) :
    sharesMoved a source destination (l ++ l') =
      sharesMoved a source destination l + sharesMoved a source destination l' := by
  rw [sharesMoved, List.map_append, List.sum_append]
  rfl

lemma quTo_append (account : M256i) (l l' : List Move) :
    quTo account (l ++ l') = quTo account l + quTo account l' := by
  rw [quTo, List.map_append, List.sum_append]
  rfl

lemma moves_moveShares (qpi : Qpi W) (a : Asset) (owner newOwner : M256i) (amount : Int)
    (w : W × List Move) : (qpi.recorded.moveShares a owner newOwner amount w).2.2 =
      if (qpi.recorded.moveShares a owner newOwner amount w).1 < 0 then w.2
      else w.2 ++ [.shares a owner newOwner amount] := rfl

lemma moves_transfer (qpi : Qpi W) (account : M256i) (amount : Int) (w : W × List Move) :
    (qpi.recorded.transfer account amount w).2.2 =
      if (qpi.recorded.transfer account amount w).1 < 0 then w.2
      else w.2 ++ [.qu account amount] := rfl

lemma sharesMoved_moveShares (qpi : Qpi W) (a : Asset) (owner newOwner : M256i) (amount : Int)
    (w : W × List Move) (b : Asset) (source destination : M256i) :
    sharesMoved b source destination (qpi.recorded.moveShares a owner newOwner amount w).2.2 =
      sharesMoved b source destination w.2 +
        if 0 ≤ (qpi.recorded.moveShares a owner newOwner amount w).1 ∧ a = b ∧ owner = source ∧
          newOwner = destination then amount else 0 := by
  rw [moves_moveShares]
  by_cases hfail : (qpi.recorded.moveShares a owner newOwner amount w).1 < 0
  · rw [if_pos hfail, if_neg (fun h => absurd h.1 (not_le.mpr hfail)), add_zero]
  · rw [if_neg hfail, sharesMoved_append]
    simp [sharesMoved, not_lt.mp hfail]

lemma quTo_moveShares (qpi : Qpi W) (a : Asset) (owner newOwner : M256i) (amount : Int)
    (w : W × List Move) (account : M256i) :
    quTo account (qpi.recorded.moveShares a owner newOwner amount w).2.2 = quTo account w.2 := by
  rw [moves_moveShares]
  split_ifs
  · rfl
  · simp [quTo]

lemma sharesMoved_transfer (qpi : Qpi W) (account : M256i) (amount : Int) (w : W × List Move)
    (a : Asset) (source destination : M256i) :
    sharesMoved a source destination (qpi.recorded.transfer account amount w).2.2 =
      sharesMoved a source destination w.2 := by
  rw [moves_transfer]
  split_ifs
  · rfl
  · simp [sharesMoved]

lemma quTo_transfer {qpi : Qpi W} {account : M256i} {w : W × List Move}
    (h : 0 ≤ (qpi.recorded.transfer account amount w).1) (x : M256i) :
    quTo x (qpi.recorded.transfer account amount w).2.2 =
      quTo x w.2 + if account = x then amount else 0 := by
  rw [moves_transfer, if_neg (not_lt.mpr h), quTo_append]
  simp [quTo]

def Qpi.watched (qpi : Qpi W) : Qpi (W × List Move) :=
  { qpi.recorded with
    transfer := fun destination amount w =>
      ((qpi.transfer destination amount w.1).1, (qpi.transfer destination amount w.1).2, w.2)
    transferShareOwnershipAndPossession := fun assetName issuer owner possessor amount newOwner w =>
      let r := qpi.transferShareOwnershipAndPossession assetName issuer owner possessor amount
        newOwner w.1
      (r.1, r.2,
        if r.1 < 0 then w.2 ++ [.shares ⟨issuer, assetName⟩ owner newOwner amount] else w.2) }

lemma Qpi.Exact.watched {qpi : Qpi W} {selfIndex : Nat} {balance : W → Int}
    (h : qpi.Exact selfIndex balance) : qpi.watched.Exact selfIndex fun w => balance w.1 :=
  { h.recorded with }

/-- A move of shares that are there leaves no mark. -/
lemma Qpi.Exact.watched_moveShares {qpi : Qpi W} {selfIndex : Nat} {balance : W → Int}
    (h : qpi.Exact selfIndex balance) {newOwner : M256i} {w : W × List Move} (hzero : newOwner ≠ 0)
    (hpos : 0 < amount) (hle : amount ≤ qpi.shares selfIndex a owner w.1) :
    (qpi.watched.moveShares a owner newOwner amount w).2.2 = w.2 :=
  if_neg (not_lt.mpr (h.moveShares_moved a owner newOwner amount w.1 hzero hpos hle).1)

def AssetHost.recorded (host : AssetHost W) : AssetHost (W × List Move) where
  toQpi := host.toQpi.recorded
  owners a w := host.owners a w.1

/-! ## A market -/

/-- The balance of one contract and the shares that it manages, within what was issued. -/
structure Market where
  balance : Int
  shares : Asset → M256i → Int
  issued : Asset → Int
  balance_nonneg : 0 ≤ balance
  shares_nonneg : ∀ a x, 0 ≤ shares a x
  issued_le : ∀ a, issued a ≤ MAX_AMOUNT
  shares_le_issued : ∀ a (accounts : Finset M256i), ∑ x ∈ accounts, shares a x ≤ issued a

namespace Market

lemma sum_sharesLoss (a b : Asset) (account : M256i) (amount : Int) (accounts : Finset M256i) :
    ∑ x ∈ accounts, sharesLoss a account amount b x =
      if b = a ∧ account ∈ accounts then amount else 0 := by
  unfold sharesLoss
  by_cases hb : b = a
  · simp [hb]
  · simp [hb]

variable (m : Market)

lemma moved_nonneg (h : 0 < amount ∧ amount ≤ m.shares a owner) (newOwner : M256i) (b : Asset)
    (x : M256i) :
    0 ≤ Ledger.moved m.shares a owner newOwner amount b x := by
  have hb := m.shares_nonneg b x
  unfold Ledger.moved sharesLoss
  split_ifs <;> grind

lemma sum_moved_le (h : 0 < amount ∧ amount ≤ m.shares a owner) (newOwner : M256i) (b : Asset)
    (accounts : Finset M256i) :
    ∑ x ∈ accounts, Ledger.moved m.shares a owner newOwner amount b x ≤ m.issued b := by
  simp only [Ledger.moved, Finset.sum_add_distrib, Finset.sum_sub_distrib, sum_sharesLoss]
  have hsum := m.shares_le_issued b accounts
  have hwith := m.shares_le_issued b (insert owner accounts)
  by_cases howner : owner ∈ accounts
  · split_ifs <;> grind
  · split_ifs <;> grind

def pay (amount : Int) (h : 0 ≤ amount ∧ amount ≤ m.balance) : Market :=
  { m with
    balance := m.balance - amount
    balance_nonneg := by omega }

def move (a : Asset) (owner newOwner : M256i) (amount : Int)
    (h : 0 < amount ∧ amount ≤ m.shares a owner) : Market :=
  { m with
    shares := Ledger.moved m.shares a owner newOwner amount
    shares_nonneg := m.moved_nonneg h newOwner
    shares_le_issued := m.sum_moved_le h newOwner }

def burnShares (a : Asset) (owner : M256i) (amount : Int)
    (h : 0 < amount ∧ amount ≤ m.shares a owner) : Market :=
  { m with
    shares := fun b x => m.shares b x - sharesLoss a owner amount b x
    shares_nonneg := fun b x => by
      have hb := m.shares_nonneg b x
      unfold sharesLoss
      split_ifs <;> grind
    shares_le_issued := fun b accounts => by
      refine le_trans (Finset.sum_le_sum fun x _ => ?_) (m.shares_le_issued b accounts)
      exact sub_le_self _ (sharesLoss_nonneg a b owner x h.1.le) }

def issue (a : Asset) (amount : Int)
    (h : m.issued a = 0 ∧ 0 < amount ∧ amount ≤ MAX_AMOUNT) : Market :=
  { m with
    shares := fun b x => m.shares b x + sharesLoss a a.issuer amount b x
    issued := fun b => if b = a then amount else m.issued b
    shares_nonneg := fun b x =>
      add_nonneg (m.shares_nonneg b x) (sharesLoss_nonneg a b a.issuer x h.2.1.le)
    issued_le := fun b => by
      have hb := m.issued_le b
      split_ifs <;> omega
    shares_le_issued := fun b accounts => by
      rw [Finset.sum_add_distrib, sum_sharesLoss]
      have hsum := m.shares_le_issued b accounts
      by_cases hb : b = a
      · subst hb
        simp only [true_and, if_true]
        rw [h.1] at hsum
        split_ifs <;> omega
      · simpa [hb] using hsum }

/-- Every covered payment succeeds, and so does every move of shares that are there, except that
shares of contracts are not burnt. An asset is issued once. -/
def qpi : Qpi Market where
  transfer _ amount m :=
    if h : 0 ≤ amount ∧ amount ≤ m.balance then (m.balance - amount, m.pay amount h) else (-1, m)
  burn amount m :=
    if h : 0 ≤ amount ∧ amount ≤ m.balance then (m.balance - amount, m.pay amount h) else (-1, m)
  distributeDividends amountPerShare m :=
    if h : 0 ≤ amountPerShare * NUMBER_OF_COMPUTORS ∧
        amountPerShare * NUMBER_OF_COMPUTORS ≤ m.balance then
      (true, m.pay (amountPerShare * NUMBER_OF_COMPUTORS) h)
    else (false, m)
  isAssetIssued issuer assetName m := m.issued ⟨issuer, assetName⟩ ≠ 0
  issueAsset name issuer _ amount _ m :=
    if h : m.issued ⟨issuer, name⟩ = 0 ∧ 0 < amount ∧ amount ≤ MAX_AMOUNT then
      (amount, m.issue ⟨issuer, name⟩ amount h)
    else (0, m)
  numberOfPossessedShares assetName issuer owner possessor _ _ m :=
    if owner = possessor then m.shares ⟨issuer, assetName⟩ owner else 0
  transferShareOwnershipAndPossession assetName issuer owner _ amount newOwner m :=
    if h : 0 < amount ∧ amount ≤ m.shares ⟨issuer, assetName⟩ owner then
      if newOwner = 0 then
        if issuer = 0 then (-1, m)
        else (m.shares ⟨issuer, assetName⟩ owner - amount,
          m.burnShares ⟨issuer, assetName⟩ owner amount h)
      else (m.shares ⟨issuer, assetName⟩ owner - amount,
        m.move ⟨issuer, assetName⟩ owner newOwner amount h)
    else (-1, m)
  releaseShares _ _ _ _ _ _ _ _ m := (-1, m)

lemma shares_qpi (selfIndex : Nat) : qpi.shares selfIndex = fun a x m => m.shares a x := by
  funext a x m
  exact if_pos rfl

lemma pay_spec (amount : Int) (r : Int × Market)
    (hr : r = if h : 0 ≤ amount ∧ amount ≤ m.balance then (m.balance - amount, m.pay amount h)
      else (-1, m)) :
    (0 ≤ amount → amount ≤ m.balance → 0 ≤ r.1) ∧ m.balance ≤ r.2.balance + max amount 0 ∧
      r.2.shares = m.shares := by
  subst hr
  split_ifs with h
  · exact ⟨fun _ _ => sub_nonneg.2 h.2, by simp [pay, max_eq_left h.1], rfl⟩
  · exact ⟨fun h0 hle => absurd ⟨h0, hle⟩ h, by simp, rfl⟩

lemma qpi_exact (selfIndex : Nat) : qpi.Exact selfIndex balance where
  shares_nonneg a x m := by
    rw [shares_qpi]
    exact m.shares_nonneg a x
  shares_le a x m := by
    have hle := m.shares_le_issued a {x}
    rw [Finset.sum_singleton] at hle
    rw [shares_qpi]
    exact hle.trans (m.issued_le a)
  transfer_shares _ amount m a x := by
    rw [shares_qpi]
    exact congrFun (congrFun (m.pay_spec amount _ rfl).2.2 a) x
  transfer_paid _ amount m := (m.pay_spec amount _ rfl).1
  transfer_balance _ amount m := (m.pay_spec amount _ rfl).2.1
  burn_shares amount m a x := by
    rw [shares_qpi]
    exact congrFun (congrFun (m.pay_spec amount _ rfl).2.2 a) x
  distributeDividends_shares amountPerShare m a x := by
    simp only [qpi]
    split_ifs <;> rfl
  issueAsset_shares name issuer _ amount _ m a x := by
    simp only [shares_qpi]
    simp only [qpi]
    split_ifs with h
    · have := sharesLoss_nonneg ⟨issuer, name⟩ a issuer x h.2.1.le
      simpa [issue] using this
    · simp
  moveShares_moved a owner newOwner amount m hzero hpos hle := by
    rw [shares_qpi] at *
    have hr : qpi.moveShares a owner newOwner amount m =
        (m.shares a owner - amount, m.move a owner newOwner amount ⟨hpos, hle⟩) :=
      (dif_pos (show 0 < amount ∧ amount ≤ m.shares a owner from ⟨hpos, hle⟩)).trans (if_neg hzero)
    rw [hr]
    exact ⟨sub_nonneg.2 hle, fun b x => rfl⟩
  moveShares_burnt a owner amount m hamount b x := by
    have hloss := sharesLoss_nonneg a b owner x hamount
    simp only [shares_qpi]
    simp only [Qpi.moveShares, qpi]
    split_ifs
    · exact le_add_of_nonneg_right hloss
    · simp [burnShares]
    · exact le_add_of_nonneg_right hloss
  moveShares_refused a owner newOwner amount m h := by
    rw [shares_qpi] at *
    have hr : qpi.moveShares a owner newOwner amount m = (-1, m) := dif_neg h
    rw [hr]
    exact ⟨neg_one_lt_zero, fun b x => rfl⟩
  moveShares_balance a owner newOwner amount m := by
    simp only [Qpi.moveShares, qpi]
    split_ifs <;> rfl
  releaseShares_shares a owner amount _ _ m hamount b x := by
    have := sharesLoss_nonneg a b owner x hamount
    simp only [shares_qpi]
    simpa [qpi] using this

def receive (amount : Nat) : Market :=
  { m with
    balance := m.balance + amount
    balance_nonneg := add_nonneg m.balance_nonneg (Int.natCast_nonneg amount) }

def empty : Market where
  balance := 0
  shares _ _ := 0
  issued _ := 0
  balance_nonneg := le_rfl
  shares_nonneg _ _ := le_rfl
  issued_le _ := by decide
  shares_le_issued _ _ := by simp

/-- The contract trades for its users, and lists no owners. -/
def host : AssetHost Market := ⟨qpi, fun _ _ => []⟩

end Market

end QubicCore.Contracts
