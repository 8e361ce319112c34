import QubicCore.Contracts.Qpi

/-!
# What the node's functions take from a contract

The results about the funds of a contract need only that the functions of `qpi` take from its
balance, and from the shares that it manages, no more than what the contract asks for. Where the
contract receives something, its own code checks what came. The burning of small balances in a
full spectrum, which the contract does not ask for, is left out.

A small ledger satisfies these conditions.
-/

namespace QubicCore.Contracts

variable {W : Type}

def Qpi.shares (qpi : Qpi W) (selfIndex : Nat) (a : Asset) (account : M256i) (w : W) : Int :=
  qpi.numberOfPossessedShares a.assetName a.issuer account account selfIndex selfIndex w

def sharesLoss (a : Asset) (account : M256i) (amount : Int) : Asset → M256i → Int :=
  fun b x => if b = a ∧ x = account then amount else 0

@[simp] lemma sharesLoss_self (a : Asset) (account : M256i) (amount : Int) :
    sharesLoss a account amount a account = amount := if_pos ⟨rfl, rfl⟩

lemma sharesLoss_of_ne {a b : Asset} {account x : M256i} (h : b ≠ a ∨ x ≠ account)
    (amount : Int) : sharesLoss a account amount b x = 0 := by
  refine if_neg ?_
  rintro ⟨hb, hx⟩
  exact h.elim (· hb) (· hx)

/-- From `w` to `w'` the balance falls by at most `qu`, and the shares of each account by at most
`lost`. -/
structure Loses (balance : W → Int) (shares : Asset → M256i → W → Int) (w w' : W) (qu : Int)
    (lost : Asset → M256i → Int) : Prop where
  balance_le : balance w ≤ balance w' + qu
  shares_le : ∀ a x, shares a x w ≤ shares a x w' + lost a x

namespace Loses

variable {balance : W → Int} {shares : Asset → M256i → W → Int} {w w' w'' : W} {qu qu' : Int}
  {lost lost' : Asset → M256i → Int}

lemma refl (w : W) : Loses balance shares w w 0 0 := ⟨by simp, fun a x => by simp⟩

lemma mono (h : Loses balance shares w w' qu lost) (hqu : qu ≤ qu') :
    Loses balance shares w w' qu' lost := ⟨by linarith [h.balance_le], h.shares_le⟩

end Loses

/-- A call with result `r` fails and takes nothing, or it succeeds with `P` and takes at most `qu`
and `lost`. -/
def Takes (balance : W → Int) (shares : Asset → M256i → W → Int) (w : W) (r : Int × W) (P : Prop)
    (qu : Int) (lost : Asset → M256i → Int) : Prop :=
  (r.1 < 0 ∧ Loses balance shares w r.2 0 0) ∨ (0 ≤ r.1 ∧ P ∧ Loses balance shares w r.2 qu lost)

/-- The conditions on the functions of `qpi`, for a contract with the given index and balance. -/
structure Qpi.Lawful (qpi : Qpi W) (selfIndex : Nat) (balance : W → Int) : Prop where
  balance_nonneg : ∀ w, 0 ≤ balance w
  balance_le : ∀ w, balance w ≤ MAX_AMOUNT
  shares_nonneg : ∀ a x w, 0 ≤ qpi.shares selfIndex a x w
  shares_le : ∀ a x w, qpi.shares selfIndex a x w ≤ MAX_AMOUNT
  /-- An asset has a name. -/
  shares_unnamed : ∀ issuer x w, qpi.shares selfIndex ⟨issuer, 0⟩ x w = 0
  transfer : ∀ destination amount w, Takes balance (qpi.shares selfIndex) w
    (qpi.transfer destination amount w) (0 ≤ amount) amount 0
  burn : ∀ amount w, 0 ≤ amount →
    Loses balance (qpi.shares selfIndex) w (qpi.burn amount w).2 amount 0
  distributeDividends : ∀ amountPerShare w, 0 ≤ amountPerShare →
    amountPerShare * NUMBER_OF_COMPUTORS ≤ MAX_AMOUNT →
    Loses balance (qpi.shares selfIndex) w (qpi.distributeDividends amountPerShare w).2
      (if (qpi.distributeDividends amountPerShare w).1 then amountPerShare * NUMBER_OF_COMPUTORS
        else 0) 0
  issueAsset : ∀ name issuer numberOfDecimalPlaces numberOfShares unitOfMeasurement w,
    Loses balance (qpi.shares selfIndex) w (qpi.issueAsset name issuer numberOfDecimalPlaces
      numberOfShares unitOfMeasurement w).2 0 0
  transferShares : ∀ (a : Asset) owner numberOfShares newOwner w,
    Takes balance (qpi.shares selfIndex) w (qpi.transferShareOwnershipAndPossession a.assetName
      a.issuer owner owner numberOfShares newOwner w) (0 ≤ numberOfShares) 0
      (sharesLoss a owner numberOfShares)
  releaseShares : ∀ (a : Asset) owner numberOfShares destination fee w r,
    r = qpi.releaseShares a.issuer a.assetName owner owner numberOfShares destination destination
      fee w →
    Takes balance (qpi.shares selfIndex) w r (r.1 ≤ fee) r.1 (sharesLoss a owner numberOfShares)

/-- Issued assets have distinct ids, since `issueAsset` refuses a name that is issued under an
issuer with the same first three words, and there are no shares of other assets. -/
structure Qpi.Issues (qpi : Qpi W) (selfIndex : Nat) : Prop where
  distinct : ∀ (a b : Asset) w, qpi.isAssetIssued a.issuer a.assetName w →
    qpi.isAssetIssued b.issuer b.assetName w → a.issuerAndAssetName = b.issuerAndAssetName → a = b
  unissued : ∀ (a : Asset) x w, qpi.isAssetIssued a.issuer a.assetName w = false →
    qpi.shares selfIndex a x w = 0

lemma Qpi.Issues.isAssetIssued {qpi : Qpi W} {selfIndex : Nat} (h : qpi.Issues selfIndex)
    {a : Asset} {x : M256i} {w : W} (hpos : 0 < qpi.shares selfIndex a x w) :
    qpi.isAssetIssued a.issuer a.assetName w := by
  by_contra hnot
  exact hpos.ne' (h.unissued a x w (by simpa using hnot))

namespace Qpi.Lawful

variable {qpi : Qpi W} {selfIndex : Nat} {balance : W → Int}

lemma transfer_loses (h : qpi.Lawful selfIndex balance) (destination : M256i) {amount : Int}
    (hamount : 0 ≤ amount) (w : W) :
    Loses balance (qpi.shares selfIndex) w (qpi.transfer destination amount w).2 amount 0 := by
  obtain ⟨-, hloses⟩ | ⟨-, -, hloses⟩ := h.transfer destination amount w
  · exact hloses.mono hamount
  · exact hloses

end Qpi.Lawful

/-! ## A ledger -/

structure Ledger where
  balance : Int
  shares : Asset → M256i → Int
  balance_nonneg : 0 ≤ balance
  balance_le : balance ≤ MAX_AMOUNT
  shares_nonneg : ∀ a x, 0 ≤ shares a x
  shares_le : ∀ a x, shares a x ≤ MAX_AMOUNT
  issued : Asset → Bool
  issued_distinct : ∀ a b, issued a → issued b → a.issuerAndAssetName = b.issuerAndAssetName → a = b
  issued_named : ∀ issuer, issued ⟨issuer, 0⟩ = false
  shares_unissued : ∀ a x, issued a = false → shares a x = 0

namespace Ledger

/-- A balance and no shares. -/
def ofBalance (balance : Int) (h : 0 ≤ balance ∧ balance ≤ MAX_AMOUNT) : Ledger where
  balance := balance
  shares := 0
  balance_nonneg := h.1
  balance_le := h.2
  shares_nonneg _ _ := Int.le_refl 0
  shares_le _ _ := (by decide : (0 : Int) ≤ MAX_AMOUNT)
  issued _ := false
  issued_distinct _ _ h := by contradiction
  issued_named _ := rfl
  shares_unissued _ _ _ := rfl

def empty : Ledger := ofBalance 0 (by decide)

variable {amount : Int}

def moved (shares : Asset → M256i → Int) (a : Asset) (owner newOwner : M256i) (amount : Int) :
    Asset → M256i → Int :=
  fun b x => shares b x + sharesLoss a newOwner amount b x - sharesLoss a owner amount b x

variable (l : Ledger)

def pay (amount : Int) (h : 0 ≤ amount ∧ amount ≤ l.balance) : Ledger :=
  { l with
    balance := l.balance - amount
    balance_nonneg := by omega
    balance_le := by have := l.balance_le; omega }

lemma moved_mem {a : Asset} {owner newOwner : M256i}
    (h : 0 < amount ∧ amount ≤ l.shares a owner ∧ l.shares a newOwner + amount ≤ MAX_AMOUNT)
    (b : Asset) (x : M256i) :
    0 ≤ moved l.shares a owner newOwner amount b x ∧
      moved l.shares a owner newOwner amount b x ≤ MAX_AMOUNT := by
  have hnonneg := l.shares_nonneg b x
  have hle := l.shares_le b x
  unfold moved sharesLoss
  split_ifs with hnew howner howner <;> grind

def moveShares (a : Asset) (owner newOwner : M256i) (amount : Int)
    (h : 0 < amount ∧ amount ≤ l.shares a owner ∧ l.shares a newOwner + amount ≤ MAX_AMOUNT) :
    Ledger :=
  { l with
    shares := moved l.shares a owner newOwner amount
    shares_nonneg := fun b x => (l.moved_mem h b x).1
    shares_le := fun b x => (l.moved_mem h b x).2
    shares_unissued := fun b x hb => by
      have hne : b ≠ a := by
        rintro rfl
        have := l.shares_unissued b owner hb
        omega
      rw [moved, sharesLoss_of_ne (Or.inl hne), sharesLoss_of_ne (Or.inl hne),
        l.shares_unissued b x hb]
      rfl }

/-- Every payment that the balance covers succeeds, and so does every move of shares that are
there. -/
def qpi : Qpi Ledger where
  transfer _ amount l :=
    if h : 0 ≤ amount ∧ amount ≤ l.balance then (l.balance - amount, l.pay amount h) else (-1, l)
  burn amount l :=
    if h : 0 ≤ amount ∧ amount ≤ l.balance then (l.balance - amount, l.pay amount h) else (-1, l)
  distributeDividends amountPerShare l :=
    if h : 0 ≤ amountPerShare * NUMBER_OF_COMPUTORS ∧
        amountPerShare * NUMBER_OF_COMPUTORS ≤ l.balance then
      (true, l.pay (amountPerShare * NUMBER_OF_COMPUTORS) h)
    else (false, l)
  isAssetIssued issuer assetName l := l.issued ⟨issuer, assetName⟩
  issueAsset _ _ _ _ _ l := (0, l)
  numberOfPossessedShares assetName issuer owner possessor _ _ l :=
    if owner = possessor then l.shares ⟨issuer, assetName⟩ owner else 0
  transferShareOwnershipAndPossession assetName issuer owner _ amount newOwner l :=
    if h : 0 < amount ∧ amount ≤ l.shares ⟨issuer, assetName⟩ owner ∧
        l.shares ⟨issuer, assetName⟩ newOwner + amount ≤ MAX_AMOUNT then
      (l.shares ⟨issuer, assetName⟩ owner - amount,
        l.moveShares ⟨issuer, assetName⟩ owner newOwner amount h)
    else (-1, l)
  releaseShares _ _ _ _ _ _ _ _ l := (-1, l)

def receive (amount : Int) : Ledger :=
  if h : 0 ≤ amount ∧ l.balance + amount ≤ MAX_AMOUNT then
    { l with
      balance := l.balance + amount
      balance_nonneg := by have := l.balance_nonneg; omega
      balance_le := h.2 }
  else l

lemma receive_loses {l : Ledger} (h : 0 ≤ amount ∧ l.balance + amount ≤ MAX_AMOUNT)
    (selfIndex : Nat) :
    Loses balance (qpi.shares selfIndex) l (l.receive amount) (-amount) 0 := by
  rw [receive, dif_pos h]
  refine ⟨?_, fun a x => ?_⟩
  · simp
  · simp [Qpi.shares, qpi]

lemma shares_qpi (selfIndex : Nat) : qpi.shares selfIndex = fun a x l => l.shares a x := by
  funext a x l
  exact if_pos rfl

lemma pay_loses (h : 0 ≤ amount ∧ amount ≤ l.balance) :
    Loses balance (fun a x l => l.shares a x) l (l.pay amount h) amount 0 := by
  refine ⟨?_, fun a x => ?_⟩
  · simp [pay]
  · simp [pay]

lemma moveShares_loses {a : Asset} {owner newOwner : M256i}
    (h : 0 < amount ∧ amount ≤ l.shares a owner ∧ l.shares a newOwner + amount ≤ MAX_AMOUNT) :
    Loses balance (fun a x l => l.shares a x) l (l.moveShares a owner newOwner amount h) 0
      (sharesLoss a owner amount) := by
  refine ⟨by simp [moveShares], fun b x => ?_⟩
  simp only [moveShares, moved, sharesLoss]
  split_ifs <;> omega

lemma pay_or_refuse (amount : Int) (r : Int × Ledger)
    (hr : r = if h : 0 ≤ amount ∧ amount ≤ l.balance then (l.balance - amount, l.pay amount h)
      else (-1, l)) :
    Takes balance (fun a x l => l.shares a x) l r (0 ≤ amount) amount 0 := by
  subst hr
  split_ifs with h
  · exact .inr ⟨sub_nonneg.2 h.2, h.1, l.pay_loses h⟩
  · exact .inl ⟨neg_one_lt_zero, Loses.refl l⟩

lemma qpi_lawful (selfIndex : Nat) : qpi.Lawful selfIndex balance := by
  refine ⟨balance_nonneg, balance_le, ?_, ?_, ?_, ?_, ?_, ?_, ?_, ?_, ?_⟩ <;>
    rw [shares_qpi]
  · exact fun a x l => l.shares_nonneg a x
  · exact fun a x l => l.shares_le a x
  · exact fun issuer x l => l.shares_unissued _ x (l.issued_named issuer)
  · exact fun _ amount l => l.pay_or_refuse amount _ rfl
  · intro amount l hamount
    obtain ⟨-, h⟩ | ⟨-, -, h⟩ := l.pay_or_refuse amount _ rfl
    · exact h.mono hamount
    · exact h
  · intro amountPerShare l hamount hle
    simp only [qpi]
    split_ifs with h h'
    · exact l.pay_loses h
    · exact absurd rfl h'
    · contradiction
    · exact Loses.refl l
  · exact fun _ _ _ _ _ l => Loses.refl l
  · intro a owner amount newOwner l
    simp only [qpi]
    split_ifs with h
    · exact .inr ⟨sub_nonneg.2 h.2.1, h.1.le, l.moveShares_loses h⟩
    · exact .inl ⟨neg_one_lt_zero, Loses.refl l⟩
  · rintro a owner amount destination fee l _ rfl
    exact .inl ⟨neg_one_lt_zero, Loses.refl l⟩

lemma qpi_issues (selfIndex : Nat) : qpi.Issues selfIndex := by
  refine ⟨fun a b l => l.issued_distinct a b, fun a x l h => ?_⟩
  rw [shares_qpi]
  exact l.shares_unissued a x h

end Ledger

end QubicCore.Contracts
