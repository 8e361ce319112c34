import QubicCore.Assets.EndEpoch

/-!
# Runs of the universe

A run is a list of calls from the empty universe. Beside the state it carries a ledger of what
was issued and what was burned, for each asset.
-/

namespace QubicCore.Universe

open Library.Cells Finset AssetRecord Function Option

variable {u : Universe} {so sp contract contract' d : Nat} {n : Int} {owner possessor : M256i}
  {i : Nat}

inductive Call where
  | issueAsset (issuerPublicKey : M256i) (name : BitVec 56) (numberOfDecimalPlaces : BitVec 8)
      (unitOfMeasurement : BitVec 56) (numberOfShares : Int) (managingContractIndex : Nat)
  | transferShareOwnershipAndPossession (sourceOwnershipIndex sourcePossessionIndex : Nat)
      (destinationPublicKey : M256i) (numberOfShares : Int)
  | transferShareManagementRights (sourceOwnershipIndex sourcePossessionIndex
      destinationOwnershipManagingContractIndex
      destinationPossessionManagingContractIndex : Nat) (numberOfShares : Int)
  | assetsEndEpoch

/-- What the callers promise: a share count that is not negative, and indices of the table. -/
def Call.Valid (d : Nat) : Call → Prop
  | .issueAsset _ _ _ _ numberOfShares _ => 0 ≤ numberOfShares ∧ numberOfShares < 2 ^ 63
  | .transferShareOwnershipAndPossession so sp _ _ => so < 2 ^ d ∧ sp < 2 ^ d
  | .transferShareManagementRights so sp _ _ _ => so < 2 ^ d ∧ sp < 2 ^ d
  | .assetsEndEpoch => True

instance (d : Nat) : DecidablePred (Call.Valid d)
  | .issueAsset .. => inferInstanceAs (Decidable (_ ∧ _))
  | .transferShareOwnershipAndPossession .. => inferInstanceAs (Decidable (_ ∧ _))
  | .transferShareManagementRights .. => inferInstanceAs (Decidable (_ ∧ _))
  | .assetsEndEpoch => inferInstanceAs (Decidable True)

structure Ledger where
  (issued burned : AssetKey → Int)

def Ledger.issue (l : Ledger) (k : AssetKey) (n : Int) : Ledger :=
  { l with issued := update l.issued k (l.issued k + n) }

def Ledger.burn (l : Ledger) (k : AssetKey) (n : Int) : Ledger :=
  { l with burned := update l.burned k (l.burned k + n) }

/-- The entry of a transfer: shares sent to the zero id are burned. -/
def Ledger.transfer (l : Ledger) (u : Universe) (so : Nat) (destinationPublicKey : M256i)
    (n : Int) (success : Bool) : Ledger :=
  match (u.assets so).issuanceOf.bind fun i => (u.assets i).assetKey with
  | some k => if success ∧ destinationPublicKey = 0 then l.burn k n else l
  | none => l

/-- Only a successful transfer to the zero id is entered. -/
lemma Ledger.transfer_of_not {l : Ledger} {destination : M256i} {success : Bool}
    (h : success = false ∨ destination ≠ 0) :
    l.transfer u so destination n success = l := by
  unfold Ledger.transfer
  split
  · rw [if_neg]
    rintro ⟨hs, hd⟩
    exact h.elim (by simp [hs]) (absurd hd)
  · rfl

def step (d : Nat) (st : Universe × Ledger) : Call → Option (Universe × Ledger)
  | .issueAsset issuer name decimals unit shares contract => do
    let r ← st.1.issueAsset d issuer name decimals unit shares contract
    return (r.after, st.2.issue (issuer, strcpy name) r.numberOfShares)
  | .transferShareOwnershipAndPossession so sp destination shares => do
    let r ← st.1.transferShareOwnershipAndPossession d so sp destination shares
    return (r.after, st.2.transfer st.1 so destination shares r.success)
  | .transferShareManagementRights so sp contract contract' shares => do
    let r ← st.1.transferShareManagementRights d so sp contract contract' shares
    return (r.after, st.2)
  | .assetsEndEpoch => do
    let u ← st.1.assetsEndEpoch d
    return (u, st.2)

def run (d : Nat) (calls : List Call) : Option (Universe × Ledger) :=
  calls.foldlM (step d) (empty, ⟨fun _ => 0, fun _ => 0⟩)

structure RunInv (d : Nat) (st : Universe × Ledger) : Prop where
  books : Books d st.1.assets fun k => st.2.issued k - st.2.burned k
  contract_shares : ∀ name, st.2.burned (0, name) = 0

/-! ## What a transfer can do -/

/-- The source records of a transfer of `n` shares that passes the check. -/
structure Source (u : Universe) (so sp : Nat) (n : Int) (owner : M256i) (contract i : Nat)
    (possessor : M256i) (contract' : Nat) : Prop where
  pos : 0 < n
  ownership : ∃ x, u.assets so = .ownership owner contract i x ∧ n ≤ x
  possession : ∃ y, u.assets sp = .possession possessor contract' so y ∧ n ≤ y

section

variable (h : Source u so sp n owner contract i possessor contract')
include h

lemma Source.issuanceOf : (u.assets so).issuanceOf = some i := by
  obtain ⟨x, hx, _⟩ := h.ownership
  simp [hx, AssetRecord.issuanceOf]

lemma Source.ownershipOf : (u.assets sp).ownershipOf = some so := by
  obtain ⟨y, hy, _⟩ := h.possession
  simp [hy, AssetRecord.ownershipOf]

lemma Source.le_owned : n ≤ (u.assets so).owned := by
  obtain ⟨x, hx, hle⟩ := h.ownership
  simpa [hx, AssetRecord.owned] using hle

lemma Source.le_possessed : n ≤ (u.assets sp).possessed := by
  obtain ⟨y, hy, hle⟩ := h.possession
  simpa [hy, AssetRecord.possessed] using hle

end

lemma canTransfer_iff (hn : 0 < n) :
    u.canTransfer so sp n ↔ ∃ owner contract i possessor contract',
        Source u so sp n owner contract i possessor contract' := by
  unfold canTransfer
  constructor
  · intro h
    split at h
    · rename_i owner contract i x possessor contract' o y hso hsp
      simp only [Bool.decide_and, Bool.and_eq_true, decide_eq_true_eq] at h
      obtain ⟨hx, hy, rfl⟩ := h
      exact ⟨owner, contract, i, possessor, contract', hn, ⟨x, hso, hx⟩, ⟨y, hsp, hy⟩⟩
    · cases h
  · rintro ⟨owner, contract, i, possessor, contract', _, ⟨x, hso, hx⟩, ⟨y, hsp, hy⟩⟩
    simp [hso, hsp, hx, hy]

/-- A transfer is refused, burns shares that are no contract shares, or moves them. -/
lemma transferShareOwnershipAndPossession_cases {destination : M256i} {r : TransferResult}
    (h : u.transferShareOwnershipAndPossession d so sp destination n = some r) :
    r = ⟨false, none, u⟩ ∨ ∃ owner contract i possessor contract',
      Source u so sp n owner contract i possessor contract' ∧
      ((destination = 0 ∧ isContractShare (u.assets i) = false ∧
          r = ⟨true, none, u.burnShares so sp n⟩) ∨
        (destination ≠ 0 ∧ ∃ u' o p, u.moveShares d so sp i destination contract destination
          contract' n = some (u', o, p) ∧ r = ⟨true, some (o, p), u'⟩)) := by
  unfold transferShareOwnershipAndPossession at h
  by_cases hn : n ≤ 0
  · rw [if_pos hn] at h
    exact .inl (some.inj h).symm
  rw [if_neg hn] at h
  cases hcan : u.canTransfer so sp n with
  | false =>
    simp only [hcan, Bool.not_false, if_true] at h
    exact .inl (some.inj h).symm
  | true =>
    obtain ⟨owner, contract, i, possessor, contract', hs⟩ :=
      (canTransfer_iff (not_le.mp hn)).mp hcan
    obtain ⟨x, hso, _⟩ := hs.ownership
    obtain ⟨y, hsp, _⟩ := hs.possession
    simp only [hcan, Bool.not_true, Bool.false_eq_true, if_false, hso, hsp] at h
    split_ifs at h with hz hc
    · exact .inl (some.inj h).symm
    · exact .inr ⟨owner, contract, i, possessor, contract', hs,
        Or.inl ⟨by simpa using hz, by simpa using hc, (some.inj h).symm⟩⟩
    · obtain ⟨⟨u', o, p⟩, hm, ⟨⟩⟩ := bind_eq_some_iff.mp h
      exact .inr ⟨owner, contract, i, possessor, contract', hs,
        Or.inr ⟨by simpa using hz, u', o, p, hm, rfl⟩⟩

lemma transferShareManagementRights_cases {c c' : Nat} {r : TransferResult}
    (h : u.transferShareManagementRights d so sp c c' n = some r) :
    r = ⟨false, none, u⟩ ∨ ∃ owner contract i possessor contract',
      Source u so sp n owner contract i possessor contract' ∧
      ∃ u' o p, u.moveShares d so sp i owner c possessor c' n = some (u', o, p) ∧
        r = ⟨true, some (o, p), u'⟩ := by
  unfold transferShareManagementRights at h
  split_ifs at h with hn hcan
  · exact .inl (some.inj h).symm
  · exact .inl (some.inj h).symm
  · obtain ⟨owner, contract, i, possessor, contract', hs⟩ :=
      (canTransfer_iff (not_le.mp hn)).mp (by simpa using hcan)
    obtain ⟨x, hso, _⟩ := hs.ownership
    obtain ⟨y, hsp, _⟩ := hs.possession
    simp only [hso, hsp] at h
    obtain ⟨⟨u', o, p⟩, hm, ⟨⟩⟩ := bind_eq_some_iff.mp h
    exact .inr ⟨owner, contract, i, possessor, contract', hs, u', o, p, hm, rfl⟩

/-! ## Steps and runs -/

lemma RunInv.step {st st' : Universe × Ledger} (h : RunInv d st) (call : Call)
    (hcall : call.Valid d) (hs : step d st call = some st') : RunInv d st' := by
  obtain ⟨u, l⟩ := st
  cases call with
  | issueAsset issuer name decimals unit shares contract =>
    obtain ⟨r, hr, ⟨⟩⟩ := bind_eq_some_iff.mp hs
    obtain rfl | ⟨i, o, p, hn, _, hzero, hbooks, _⟩ := h.books.issueAsset hcall.1 hcall.2 hr
    · refine ⟨?_, h.contract_shares⟩
      simpa [Ledger.issue] using h.books
    · refine ⟨?_, h.contract_shares⟩
      convert hbooks using 1
      funext k
      simp only [Ledger.issue, update_apply, hn]
      split_ifs with hk
      · subst hk
        simp only at hzero
        omega
      · rfl
  | transferShareOwnershipAndPossession so sp destination shares =>
    obtain ⟨r, hr, ⟨⟩⟩ := bind_eq_some_iff.mp hs
    obtain rfl | ⟨owner, _, i, _, _, hsrc, ⟨hz, hc, rfl⟩ | ⟨hz, u', o, p, hm, rfl⟩⟩ :=
      transferShareOwnershipAndPossession_cases hr
    · simpa [Ledger.transfer_of_not] using h
    · obtain ⟨_, hkey⟩ := h.books.linked.issuanceOf so hcall.1 i hsrc.issuanceOf
      obtain ⟨k, hk⟩ := isSome_iff_exists.mp hkey
      have hbooks := h.books.burnShares hcall.1 hcall.2 hsrc.pos.le hsrc.issuanceOf hk
        hsrc.le_owned hsrc.ownershipOf hsrc.le_possessed
      simp only [Ledger.transfer, hsrc.issuanceOf, hk, hz, bind_some, and_self, if_true]
      refine ⟨?_, fun name => ?_⟩
      · convert hbooks using 1
        funext k'
        simp only [Ledger.burn, update_apply]
        split_ifs with hkk
        · subst hkk; omega
        · rfl
      · have hne : (0, name) ≠ k := by
          rintro rfl
          cases hti : u.assets i <;> simp_all [assetKey, isContractShare]
        simpa [Ledger.burn, hne] using h.contract_shares name
    · rw [Ledger.transfer_of_not (Or.inr hz)]
      exact ⟨(h.books.moveShares hcall.1 hcall.2 hsrc.pos.le hsrc.issuanceOf hsrc.le_owned
        hsrc.ownershipOf hsrc.le_possessed hm).1, h.contract_shares⟩
  | transferShareManagementRights so sp contract contract' shares =>
    obtain ⟨r, hr, ⟨⟩⟩ := bind_eq_some_iff.mp hs
    obtain rfl | ⟨_, _, i, _, _, hsrc, u', o, p, hm, rfl⟩ := transferShareManagementRights_cases hr
    · exact h
    · exact ⟨(h.books.moveShares hcall.1 hcall.2 hsrc.pos.le hsrc.issuanceOf hsrc.le_owned
        hsrc.ownershipOf hsrc.le_possessed hm).1, h.contract_shares⟩
  | assetsEndEpoch =>
    obtain ⟨u', hu, ⟨⟩⟩ := bind_eq_some_iff.mp hs
    exact ⟨h.books.assetsEndEpoch hu, h.contract_shares⟩

lemma RunInv.foldlM (calls : List Call) {st st' : Universe × Ledger} (h : RunInv d st)
    (hcalls : ∀ call ∈ calls, call.Valid d) (hr : calls.foldlM (Universe.step d) st = some st') :
    RunInv d st' := by
  induction calls generalizing st with
  | nil =>
    obtain rfl : st = st' := by simpa using hr
    exact h
  | cons call calls ih =>
    obtain ⟨st₁, hs, hr⟩ := bind_eq_some_iff.mp hr
    exact ih (h.step call (hcalls call (by simp)) hs) (fun c hc => hcalls c (by simp [hc])) hr

def sharesOf (d : Nat) (u : Universe) (k : AssetKey) : Int := gathered u.assets (2 ^ d) k

/-- Shares are conserved: nothing is created or lost below an issuance. -/
structure Conserved (d : Nat) (u : Universe) (l : Ledger) : Prop where
  ownership : ∀ o < 2 ^ d, ∀ owner contract i n, u.assets o = .ownership owner contract i n →
    n = ∑ p ∈ range (2 ^ d), (u.assets p).possessedUnder o
  issuance : ∀ i < 2 ^ d, ∀ issuer name decimals unit,
    u.assets i = .issuance issuer name decimals unit →
    ∑ o ∈ range (2 ^ d), (u.assets o).ownedUnder i =
      l.issued (issuer, name) - l.burned (issuer, name)
  contract_shares : ∀ name, sharesOf d u (0, name) = l.issued (0, name)
  nonneg : ∀ j < 2 ^ d, 0 ≤ (u.assets j).owned ∧ 0 ≤ (u.assets j).possessed

/-- Every run of asset operations from the empty universe conserves shares. -/
theorem run_conserved {d : Nat} {calls : List Call} {u : Universe} {l : Ledger}
    (hcalls : ∀ call ∈ calls, call.Valid d) (hr : run d calls = some (u, l)) :
    Conserved d u l := by
  have hstart : RunInv d (empty, ⟨fun _ => 0, fun _ => 0⟩) :=
    ⟨by simpa [empty] using books_empty d, fun _ => rfl⟩
  have h := hstart.foldlM calls hcalls hr
  refine ⟨fun o ho owner contract i n hon => ?_, fun i hi issuer name decimals unit hin => ?_,
    fun name => ?_, fun j hj => ⟨h.books.owned_nonneg j hj, h.books.possessed_nonneg j hj⟩⟩
  · simpa [hon, owned, possSum] using h.books.balanced o ho
  · exact h.books.supply_eq i hi (issuer, name) (by simp [hin, assetKey])
  · have hburned : l.burned (0, name) = 0 := h.contract_shares name
    simpa [sharesOf, hburned] using h.books.gathered_eq (0, name)

def issueRun : List Call :=
  [.issueAsset ⟨1⟩ 65 0 0 10 1, .transferShareOwnershipAndPossession 2 3 ⟨6⟩ 4,
    .transferShareManagementRights 2 3 5 5 3, .transferShareOwnershipAndPossession 2 3 0 2,
    .assetsEndEpoch]

theorem run_conserved_issueRun : ∃ u l, run 4 issueRun = some (u, l) ∧ Conserved 4 u l := by
  have hsome : (run 4 issueRun).isSome := by decide
  obtain ⟨⟨u, l⟩, hr⟩ := isSome_iff_exists.mp hsome
  exact ⟨u, l, hr, run_conserved (by decide) hr⟩

end QubicCore.Universe
