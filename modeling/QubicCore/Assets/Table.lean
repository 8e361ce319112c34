import QubicCore.Library.IntrusiveLists
import QubicCore.Assets.Run

/-!
# The asset table and its lists

Three kinds of record share one table. `RecordKey` is what identifies a record of its kind, and the
table is one linear-probing table over these keys: every record can be reached from the home slot of
its public key, and no key occurs twice. Each record also belongs to one of the index lists, that of
all issuances or that of its parent.
-/

namespace QubicCore

open Library.Probing Library.Cells Library.IntrusiveLists Function Option

inductive RecordKey where
  | issuance (issuer : M256i) (name : BitVec 56)
  | ownership (owner : M256i) (contract issuance : Nat)
  | possession (possessor : M256i) (contract ownership : Nat)
deriving DecidableEq

def RecordKey.publicKey : RecordKey → M256i
  | issuance k _ => k
  | ownership k _ _ => k
  | possession k _ _ => k

def RecordKey.home (d : Nat) (k : RecordKey) : Nat := homeSlot d k.publicKey

namespace AssetRecord

variable {e : AssetRecord}

def recordKey : AssetRecord → Option RecordKey
  | empty => none
  | issuance k name _ _ => some (.issuance k name)
  | ownership k m i _ => some (.ownership k m i)
  | possession k m o _ => some (.possession k m o)

/-- The list a record belongs to: that of the issuances, or that of its parent slot. -/
def listOf : AssetRecord → Option (Option Nat)
  | empty => none
  | issuance .. => some none
  | ownership _ _ i _ => some (some i)
  | possession _ _ o _ => some (some o)

lemma recordKey_shape (e : AssetRecord) : e.shape.recordKey = e.recordKey := by cases e <;> rfl

lemma listOf_shape (e : AssetRecord) : e.shape.listOf = e.listOf := by cases e <;> rfl

lemma listOf_eq_of_recordKey {e' : AssetRecord} (h : e.recordKey = e'.recordKey) :
    e.listOf = e'.listOf := by
  cases e <;> cases e' <;> simp_all [recordKey, listOf]

lemma isEmpty_of_recordKey {k : RecordKey} (h : e.recordKey = some k) : e.isEmpty = false := by
  cases e <;> simp_all [recordKey, isEmpty]

lemma isOwnership_iff {owner : M256i} {contract i : Nat} :
    e.isOwnership owner contract i ↔ e.recordKey = some (.ownership owner contract i) := by
  cases e with
  | ownership k m j n => simp [isOwnership, recordKey, and_assoc, and_comm]
  | _ => simp [isOwnership, recordKey]

lemma isPossession_iff {possessor : M256i} {contract o : Nat} :
    e.isPossession possessor contract o ↔
      e.recordKey = some (.possession possessor contract o) := by
  cases e with
  | possession k m j n => simp [isPossession, recordKey, and_assoc, and_comm]
  | _ => simp [isPossession, recordKey]

lemma clashes_of_recordKey {issuer : M256i} {name : BitVec 56}
    (h : e.recordKey = some (.issuance issuer name)) : e.clashes issuer name := by
  cases e <;> simp_all [recordKey, clashes]

end AssetRecord

namespace IndexLists

def first (l : IndexLists) : Option Nat → Nat
  | none => l.issuancesFirstIdx
  | some parentIdx => l.ownershipsPossessionsFirstIdx parentIdx

def add (l : IndexLists) (e : AssetRecord) (index : Nat) : IndexLists :=
  match e with
  | .empty => l
  | .issuance .. => l.addIssuance index
  | .ownership _ _ issuanceIndex _ => l.addOwnership issuanceIndex index
  | .possession _ _ ownershipIndex _ => l.addPossession ownershipIndex index

lemma add_eq (l : IndexLists) {e : AssetRecord} (index : Nat) {q : Option Nat}
    (he : e.listOf = some q) :
    (l.add e index).nextIdx = update l.nextIdx index (l.first q) ∧
      (l.add e index).first = update l.first q index := by
  cases e with
  | empty => cases he
  | issuance k name decimals unit =>
    obtain rfl : none = q := some.inj he
    refine ⟨rfl, funext fun q => ?_⟩
    cases q <;> simp [add, addIssuance, first]
  | ownership k m i n =>
    obtain rfl : some i = q := some.inj he
    refine ⟨rfl, funext fun q => ?_⟩
    cases q <;> simp [add, addOwnership, addChild, first, update_apply]
  | possession k m o n =>
    obtain rfl : some o = q := some.inj he
    refine ⟨rfl, funext fun q => ?_⟩
    cases q <;> simp [add, addPossession, addChild, first, update_apply]

end IndexLists

namespace Universe

open AssetRecord

variable {d : Nat} {t t' : Nat → AssetRecord} {l : IndexLists} {e : AssetRecord} {r contract : Nat}
  {k : RecordKey} {u : Universe} {owner possessor : M256i} {st : Universe × Ledger} {i : Nat}

def HasParent (d : Nat) (t : Nat → AssetRecord) : AssetRecord → Prop
  | .empty => True
  | .issuance .. => True
  | .ownership _ _ i _ => i < 2 ^ d ∧ ∃ issuer name, (t i).recordKey = some (.issuance issuer name)
  | .possession _ _ o _ =>
    o < 2 ^ d ∧ ∃ owner contract i, (t o).recordKey = some (.ownership owner contract i)

/-- What every call keeps of the records and the lists. -/
structure TableInv (d : Nat) (t : Nat → AssetRecord) (l : IndexLists) : Prop where
  outside : ∀ i, 2 ^ d ≤ i → t i = .empty
  chained : Chained (2 ^ d) (RecordKey.home d) (fun i => (t i).recordKey) (InUse t)
  parent : ∀ i, HasParent d t (t i)
  lists : Exact NO_ASSET_INDEX l.nextIdx l.first fun i => (t i).listOf

lemma tableInv_empty (d : Nat) : TableInv d (fun _ => .empty) IndexLists.reset where
  outside _ _ := rfl
  chained := .empty fun _ _ => rfl
  parent _ := trivial
  lists := .empty (fun q => by cases q <;> rfl) fun _ => rfl

lemma HasParent.mono (h : HasParent d t e)
    (hkeep : ∀ i k, (t i).recordKey = some k → (t' i).recordKey = some k) : HasParent d t' e := by
  cases e with
  | empty => trivial
  | issuance => trivial
  | ownership k m i n =>
    obtain ⟨hi, issuer, name, hkey⟩ := h
    exact ⟨hi, issuer, name, hkeep i _ hkey⟩
  | possession k m o n =>
    obtain ⟨ho, owner, contract, i, hkey⟩ := h
    exact ⟨ho, owner, contract, i, hkeep o _ hkey⟩

lemma hasParent_shape (e : AssetRecord) : HasParent d t e.shape = HasParent d t e := by
  cases e <;> rfl

lemma inUse_eq (he : ∀ j, (t' j).shape = (t j).shape) : InUse t' = InUse t := by
  funext j
  simp only [InUse, eq_of_shape isEmpty_shape (he j)]

lemma eq_empty_of_shape (h : e.shape = .empty) : e = .empty := by cases e <;> simp_all [shape]

lemma TableInv.congr (h : TableInv d t l) (he : ∀ j, (t' j).shape = (t j).shape) :
    TableInv d t' l := by
  have hkey : ∀ j, (t' j).recordKey = (t j).recordKey := fun j => eq_of_shape recordKey_shape (he j)
  refine ⟨fun i hi => ?_, ?_, fun i => ?_, h.lists.congr fun i => eq_of_shape listOf_shape (he i)⟩
  · exact eq_empty_of_shape (by rw [he, h.outside i hi]; rfl)
  · simpa only [hkey, inUse_eq he] using h.chained
  · have hparent : HasParent d t (t' i) := by
      rw [← hasParent_shape, he, hasParent_shape]
      exact h.parent i
    exact hparent.mono fun j k hk => by rw [hkey, hk]

section

variable {r : Nat} {e : AssetRecord}

lemma inUse_update (hz : (t r).isEmpty) {j : Nat} (hj : InUse t j) : InUse (update t r e) j := by
  have hjr : j ≠ r := by
    rintro rfl
    rw [InUse, hz] at hj
    cases hj
  rwa [InUse, update_of_ne hjr]

lemma inUse_update_self (hk : e.recordKey = some k) : InUse (update t r e) r := by
  rw [InUse, update_self]
  exact isEmpty_of_recordKey hk

lemma recordKey_update (hz : (t r).isEmpty) {i : Nat} (hik : (t i).recordKey = some k) :
    (update t r e i).recordKey = some k := by
  by_cases hir : i = r
  · rw [hir, eq_empty_of_isEmpty hz] at hik
    cases hik
  · rwa [update_of_ne hir]

end

/-- A record is created in an empty slot that its own walk reaches, and entered into its list. -/
lemma TableInv.create (h : TableInv d t l) (hd : d ≤ 31) (hz : (t r).isEmpty)
    (hk : e.recordKey = some k) (hreach : Reach (2 ^ d) (InUse t) (k.home d) r)
    (habsent : ∀ i < 2 ^ d, (t i).recordKey ≠ some k) (hparent : HasParent d t e) :
    TableInv d (update t r e) (l.add e r) := by
  have hr : r < 2 ^ d := hreach.lt
  have hempty := eq_empty_of_isEmpty hz
  obtain ⟨q, hq⟩ : ∃ q, e.listOf = some q := by cases e <;> simp_all [recordKey, listOf]
  refine ⟨fun i hi => ?_, ?_, fun i => ?_, ?_⟩
  · rw [update_of_ne (by omega), h.outside i hi]
  · refine h.chained.insert hreach habsent (by simpa using hk) (fun i _ hir => ?_)
      (fun i _ hin => ?_) ?_
    · rw [update_of_ne hir]
    · exact inUse_update hz hin
    · exact inUse_update_self hk
  · by_cases hir : i = r
    · rw [hir, update_self]
      exact hparent.mono fun _ _ => recordKey_update hz
    · rw [update_of_ne hir]
      exact (h.parent i).mono fun _ _ => recordKey_update hz
  · obtain ⟨hnext, hfirst⟩ := IndexLists.add_eq l r hq
    rw [hnext, hfirst]
    have hnil : r ≠ NO_ASSET_INDEX := by
      have : 2 ^ d ≤ 2 ^ 31 := Nat.pow_le_pow_right (by norm_num) hd
      unfold NO_ASSET_INDEX
      omega
    refine (h.lists.insert q (by rw [hempty]; rfl) hnil).congr fun i => ?_
    by_cases hir : i = r
    · simp [hir, hq]
    · simp [hir]

/-! ## Creating records where a walk ends -/

/-- A walk that stops at every record with the key `k` and ends at an empty slot: there is no
such record, and the slot can be reached. Share counts may have changed since the walk. -/
lemma TableInv.findRecord_empty (h : TableInv d t l) {test : AssetRecord → Bool}
    (htest : ∀ e : AssetRecord, e.recordKey = some k → test e)
    (hf : findRecord d t test (k.home d) = some r) (he : ∀ j, (t' j).shape = (t j).shape)
    (hz : (t' r).isEmpty) :
    Reach (2 ^ d) (InUse t') (k.home d) r ∧ ∀ i < 2 ^ d, (t' i).recordKey ≠ some k := by
  have hhome : k.home d < 2 ^ d := homeSlot_lt d k.publicKey
  rw [inUse_eq he]
  rw [eq_of_shape isEmpty_shape (he r)] at hz
  refine ⟨(findRecord_spec hhome hf).2.2, fun i hi hik => ?_⟩
  rw [eq_of_shape recordKey_shape (he i)] at hik
  have hused := isEmpty_of_recordKey hik
  rw [findRecord_absent hhome hf hz (h.chained.reach hi hik) (htest _ hik)] at hused
  cases hused

/-- No record has a parent slot that is empty. -/
lemma TableInv.no_child (h : TableInv d t l) (hz : (t r).isEmpty) (i : Nat) :
    (t i).listOf ≠ some (some r) := by
  intro hi
  have hparent := h.parent i
  have hempty := eq_empty_of_isEmpty hz
  cases hti : t i with
  | empty | issuance => simp [hti, listOf] at hi
  | ownership k m j n | possession k m j n =>
    obtain rfl : j = r := by simpa [hti, listOf] using hi
    simp [hti, HasParent, hempty, recordKey] at hparent

/-- The slot after a record that can be reached is a start for records of the same public key. -/
lemma reach_after {start r' : Nat} (hreach : Reach (2 ^ d) (InUse t) start r) (hused : InUse t r)
    (hf : findRecord d t (fun _ => false) (mask d (r + 1)) = some r') :
    (t r').isEmpty ∧ Reach (2 ^ d) (InUse t) start r' := by
  have hnext : mask d (r + 1) = (r + 1) % 2 ^ d := mask_eq d (r + 1)
  rw [hnext] at hf
  obtain ⟨-, hz, hreach'⟩ := findRecord_spec (Nat.mod_lt _ (Nat.two_pow_pos d)) hf
  have hz : (t r').isEmpty := by simpa using hz
  exact ⟨hz, hreach.trans_next hused hreach' (by simp [InUse, hz])⟩

/-- The first empty slot behind the parent `r`, a record that has no children yet, takes the first
child. -/
lemma TableInv.createBehind (h : TableInv d t l) (hd : d ≤ 31) {r' : Nat}
    (hreach : Reach (2 ^ d) (InUse t) (k.home d) r) (hused : InUse t r)
    (hf : findRecord d t (fun _ => false) (mask d (r + 1)) = some r') (hk : e.recordKey = some k)
    (hlist : e.listOf = some (some r)) (hparent : HasParent d t e)
    (hchild : ∀ i, (t i).listOf ≠ some (some r)) :
    TableInv d (update t r' e) (l.add e r') ∧
    Reach (2 ^ d) (InUse (update t r' e)) (k.home d) r' ∧
    InUse (update t r' e) r' ∧
    ∀ i, (update t r' e i).listOf ≠ some (some r') := by
  obtain ⟨hz, hreach'⟩ := reach_after hreach hused hf
  refine ⟨h.create hd hz hk hreach' (fun i _ hik => ?_) hparent,
    hreach'.mono fun j _ => inUse_update hz, inUse_update_self hk, fun i hi => ?_⟩
  · exact hchild i ((listOf_eq_of_recordKey (hik.trans hk.symm)).trans hlist)
  · by_cases hir : i = r'
    · rw [hir, update_self, hlist, some.injEq, some.injEq] at hi
      rw [InUse, hi, hz] at hused
      cases hused
    · rw [update_of_ne hir] at hi
      exact h.no_child hz i hi

lemma shape_addShares_assets (u : Universe) (index : Nat) (n : Int) (j : Nat) :
    ((u.addShares index n).assets j).shape = (u.assets j).shape :=
  shape_update_addShares u.assets index n j

section

variable (h : TableInv d u.assets u.indexLists)
include h

lemma TableInv.addShares (index : Nat) (n : Int) :
    TableInv d (u.addShares index n).assets (u.addShares index n).indexLists :=
  h.congr (shape_addShares_assets u index n)

/-! ## The calls -/

lemma TableInv.issueAsset (hd : d ≤ 31) {issuer : M256i}
    {name unit : BitVec 56} {decimals : BitVec 8} {shares : Int} {r : IssueResult}
    (hr : u.issueAsset d issuer name decimals unit shares contract = some r) :
    TableInv d r.after.assets r.after.indexLists := by
  simp only [Universe.issueAsset, bind_eq_bind, bind_eq_some_iff] at hr
  obtain ⟨i, hi, hr⟩ := hr
  split_ifs at hr with hz
  · simp only [bind_eq_some_iff, pure_def, some.injEq] at hr
    obtain ⟨o, ho, p, hp, rfl⟩ := hr
    obtain ⟨hreach, habsent⟩ := h.findRecord_empty
      (fun e he => clashes_of_recordKey he) hi (fun _ => rfl) hz
    have h₁ := h.create hd (e := .issuance issuer (strcpy name) decimals unit) hz rfl hreach
      habsent trivial
    have hreach₁ : Reach (2 ^ d) (InUse (update u.assets i
        (.issuance issuer (strcpy name) decimals unit))) (homeSlot d issuer) i :=
      hreach.mono fun j _ => inUse_update hz
    obtain ⟨h₂, hreach₂, hused₂, hchild₂⟩ := h₁.createBehind hd
      (e := .ownership issuer contract i shares) (k := .ownership issuer contract i) hreach₁
      (inUse_update_self rfl) ho rfl rfl
      ⟨hreach.lt, issuer, strcpy name, by rw [update_self]; rfl⟩ fun j hj => by
        by_cases hji : j = i
        · rw [hji, update_self] at hj
          cases hj
        · rw [update_of_ne hji] at hj
          exact h.no_child hz j hj
    exact (h₂.createBehind hd (e := .possession issuer contract o shares)
      (k := .possession issuer contract o) hreach₂ hused₂ hp rfl rfl
      ⟨hreach₂.lt, issuer, contract, i, by rw [update_self]; rfl⟩ hchild₂).1
  · obtain rfl := some.inj hr
    exact h

/-- A record with the key `k` is used where its walk ends, or created there. -/
lemma TableInv.openOwnership (hd : d ≤ 31)
    (hf : (u.assets r).isEmpty → Reach (2 ^ d) (InUse u.assets) (homeSlot d owner) r ∧
      ∀ j < 2 ^ d, (u.assets j).recordKey ≠ some (.ownership owner contract i))
    (hparent : HasParent d u.assets (.ownership owner contract i 0)) :
    TableInv d (u.openOwnership r owner contract i).assets
      (u.openOwnership r owner contract i).indexLists := by
  unfold Universe.openOwnership
  split_ifs with hz
  · obtain ⟨hreach, habsent⟩ := hf hz
    exact h.create hd hz rfl hreach habsent hparent
  · exact h

lemma TableInv.openPossession (hd : d ≤ 31) {o : Nat}
    (hf : (u.assets r).isEmpty → Reach (2 ^ d) (InUse u.assets) (homeSlot d possessor) r ∧
      ∀ j < 2 ^ d, (u.assets j).recordKey ≠ some (.possession possessor contract o))
    (hparent : HasParent d u.assets (.possession possessor contract o 0)) :
    TableInv d (u.openPossession r possessor contract o).assets
      (u.openPossession r possessor contract o).indexLists := by
  unfold Universe.openPossession
  split_ifs with hz
  · obtain ⟨hreach, habsent⟩ := hf hz
    exact h.create hd hz rfl hreach habsent hparent
  · exact h

omit h in
lemma openOwnership_recordKey
    (hr : (u.assets r).isEmpty ∨ (u.assets r).recordKey = some (.ownership owner contract i))
    :
    ((u.openOwnership r owner contract i).assets r).recordKey =
      some (.ownership owner contract i) := by
  unfold Universe.openOwnership
  split_ifs with hz
  · simp [write, recordKey]
  · exact hr.resolve_left hz

lemma TableInv.moveShares {u' : Universe} (hd : d ≤ 31) {so sp contract' o p : Nat} {n : Int}
    (hparent : HasParent d u.assets (.ownership owner contract i 0))
    (hm : u.moveShares d so sp i owner contract possessor contract' n = some (u', o, p)) :
    TableInv d u'.assets u'.indexLists := by
  simp only [Universe.moveShares, bind_eq_bind, bind_eq_some_iff, pure_def,
    some.injEq, Prod.mk.injEq] at hm
  obtain ⟨r, hr, r', hr', rfl, -, -⟩ := hm
  have hshape := shape_addShares_assets u so (-n)
  obtain ⟨hlt, hstop, -⟩ := findRecord_spec (homeSlot_lt d owner) hr
  -- the ownership of the destination
  have hopen : TableInv d ((u.addShares so (-n)).openOwnership r owner contract i).assets
      ((u.addShares so (-n)).openOwnership r owner contract i).indexLists :=
    (h.addShares so (-n)).openOwnership hd
    (h.findRecord_empty (k := .ownership owner contract i) (fun e => isOwnership_iff.mpr) hr
      hshape)
    (hparent.mono fun j k hk => (eq_of_shape recordKey_shape (hshape j)).trans hk)
  have hkey : (((u.addShares so (-n)).openOwnership r owner contract i).assets r).recordKey =
      some (.ownership owner contract i) :=
    openOwnership_recordKey (hstop.imp
      (fun hz => (eq_of_shape isEmpty_shape (hshape r)).trans hz)
      fun htest => (eq_of_shape recordKey_shape (hshape r)).trans (isOwnership_iff.mp htest))
  generalize (u.addShares so (-n)).openOwnership r owner contract i = v at hopen hkey hr' ⊢
  have h₃ := hopen.addShares r n
  -- the possession of the destination
  have hshape' := shape_addShares_assets (v.addShares r n) sp (-n)
  refine ((h₃.addShares sp (-n)).openPossession hd
    (h₃.findRecord_empty
      (fun e => isPossession_iff.mpr) hr' hshape') ⟨hlt, owner, contract, i, ?_⟩).addShares r' n
  rw [eq_of_shape recordKey_shape (hshape' r),
    eq_of_shape recordKey_shape (shape_addShares_assets v r n r), hkey]

lemma TableInv.burnShares (so sp : Nat) (n : Int) :
    TableInv d (u.burnShares so sp n).assets (u.burnShares so sp n).indexLists :=
  (h.addShares so (-n)).addShares sp (-n)

end

/-- The destination of a transfer has the issuance of the source as parent. -/
lemma Source.hasParent {so sp contract' : Nat} {n : Int}
    (hs : Source u so sp n owner contract i possessor contract')
    (h : TableInv d u.assets u.indexLists) (owner' : M256i) (c : Nat) :
    HasParent d u.assets (.ownership owner' c i 0) := by
  obtain ⟨x, hso, -⟩ := hs.ownership
  have hparent := h.parent so
  rw [hso] at hparent
  exact hparent

lemma TableInv.step {st' : Universe × Ledger} (h : TableInv d st.1.assets st.1.indexLists)
    (hd : d ≤ 31) {call : Call} (hcall : call ≠ .assetsEndEpoch) (hs : step d st call = some st') :
    TableInv d st'.1.assets st'.1.indexLists := by
  cases call with
  | issueAsset issuer name decimals unit shares contract =>
    obtain ⟨r, hr, ⟨⟩⟩ := bind_eq_some_iff.mp hs
    exact h.issueAsset hd hr
  | transferShareOwnershipAndPossession so sp destination shares =>
    obtain ⟨r, hr, ⟨⟩⟩ := bind_eq_some_iff.mp hs
    obtain rfl | ⟨_, _, i, _, _, hsrc, ⟨-, -, rfl⟩ | ⟨-, u', o, p, hm, rfl⟩⟩ :=
      transferShareOwnershipAndPossession_cases hr
    · exact h
    · exact h.burnShares so sp shares
    · exact h.moveShares hd (hsrc.hasParent h _ _) hm
  | transferShareManagementRights so sp contract contract' shares =>
    obtain ⟨r, hr, ⟨⟩⟩ := bind_eq_some_iff.mp hs
    obtain rfl | ⟨_, _, i, _, _, hsrc, u', o, p, hm, rfl⟩ := transferShareManagementRights_cases hr
    · exact h
    · exact h.moveShares hd (hsrc.hasParent h _ _) hm
  | assetsEndEpoch => exact absurd rfl hcall

lemma TableInv.foldlM (calls : List Call) {st' : Universe × Ledger}
    (h : TableInv d st.1.assets st.1.indexLists) (hd : d ≤ 31)
    (hcalls : ∀ call ∈ calls, call ≠ .assetsEndEpoch)
    (hr : calls.foldlM (Universe.step d) st = some st') :
    TableInv d st'.1.assets st'.1.indexLists := by
  induction calls generalizing st with
  | nil =>
    obtain rfl := some.inj hr
    exact h
  | cons call calls ih =>
    obtain ⟨st₁, hs, hr⟩ := bind_eq_some_iff.mp hr
    exact ih (h.step hd (hcalls call (by simp)) hs) (fun c hc => hcalls c (by simp [hc])) hr

/-! ## Room in the table -/

instance (t : Nat → AssetRecord) : DecidablePred (InUse t) := fun i =>
  inferInstanceAs (Decidable ((t i).isEmpty = false))

def used (d : Nat) (t : Nat → AssetRecord) : Nat := count (2 ^ d) (InUse t)

lemma used_update_le (r : Nat) (e : AssetRecord) : used d (update t r e) ≤ used d t + 1 :=
  count_le_succ r fun i _ hir hi => by rwa [InUse, update_of_ne hir] at hi

lemma used_shape (he : ∀ j, (t' j).shape = (t j).shape) : used d t' = used d t :=
  count_congr fun i _ => by rw [inUse_eq he]

lemma used_addShares (u : Universe) (index : Nat) (n : Int) :
    used d (u.addShares index n).assets = used d u.assets :=
  used_shape (shape_addShares_assets u index n)

/-- A walk ends while there is an empty slot. -/
lemma exists_findRecord (test : AssetRecord → Bool) {start : Nat} (hs : start < 2 ^ d)
    (hroom : used d t < 2 ^ d) : ∃ r, findRecord d t test start = some r := by
  obtain ⟨i, hi, hempty⟩ := exists_not_of_count_lt hroom
  exact exists_probe _ hs hi (by simpa [InUse] using Or.inl hempty)

lemma exists_issueAsset (hroom : used d u.assets + 3 ≤ 2 ^ d) (issuer : M256i)
    (name unit : BitVec 56) (decimals : BitVec 8) (shares : Int) (contract : Nat) :
    ∃ r, u.issueAsset d issuer name decimals unit shares contract = some r := by
  obtain ⟨i, hi⟩ := exists_findRecord (t := u.assets)
    (AssetRecord.clashes issuer (strcpy name)) (homeSlot_lt d issuer) (by omega)
  simp only [Universe.issueAsset, hi, bind_eq_bind, bind_some]
  split_ifs with hz
  · have hu₁ := used_update_le (d := d) (t := u.assets) i
      (.issuance issuer (strcpy name) decimals unit)
    obtain ⟨o, ho⟩ := exists_findRecord (fun _ => false) (mask_lt d (i + 1))
      (Nat.lt_of_le_of_lt hu₁ (by omega))
    have hu₂ := used_update_le (d := d) (t := update u.assets i
      (.issuance issuer (strcpy name) decimals unit)) o (.ownership issuer contract i shares)
    obtain ⟨p, hp⟩ := exists_findRecord (fun _ => false) (mask_lt d (o + 1))
      (Nat.lt_of_le_of_lt hu₂ (by omega))
    simp [write, ho, hp]
  · exact ⟨_, rfl⟩

lemma exists_moveShares (hroom : used d u.assets + 3 ≤ 2 ^ d) (so sp i : Nat) (owner : M256i)
    (contract : Nat) (possessor : M256i) (contract' : Nat) (n : Int) :
    ∃ r, u.moveShares d so sp i owner contract possessor contract' n = some r := by
  obtain ⟨o, ho⟩ := exists_findRecord (t := u.assets)
    (AssetRecord.isOwnership owner contract i) (homeSlot_lt d owner) (by omega)
  have hopen : used d ((u.addShares so (-n)).openOwnership o owner contract i).assets ≤
      used d u.assets + 1 := by
    rw [← used_addShares u so (-n)]
    unfold Universe.openOwnership
    split_ifs
    · exact used_update_le o _
    · exact Nat.le_succ _
  rw [← used_addShares _ o n] at hopen
  obtain ⟨p, hp⟩ := exists_findRecord (AssetRecord.isPossession possessor contract' o)
    (homeSlot_lt d possessor) (Nat.lt_of_le_of_lt hopen (by omega))
  simp only [Universe.moveShares, ho, hp, bind_eq_bind, bind_some]
  exact ⟨_, rfl⟩

/-- With three empty slots every call comes to its end. -/
lemma exists_step (hroom : used d st.1.assets + 3 ≤ 2 ^ d) {call : Call}
    (hcall : call ≠ .assetsEndEpoch) : ∃ st', step d st call = some st' := by
  cases call with
  | issueAsset issuer name decimals unit shares contract =>
    obtain ⟨r, hr⟩ := exists_issueAsset hroom issuer name unit decimals shares contract
    exact ⟨_, by rw [Universe.step, hr]; rfl⟩
  | transferShareOwnershipAndPossession so sp destination shares =>
    obtain ⟨r, hr⟩ : ∃ r, st.1.transferShareOwnershipAndPossession d so sp destination shares =
        some r := by
      unfold Universe.transferShareOwnershipAndPossession
      split
      · exact ⟨_, rfl⟩
      split
      · exact ⟨_, rfl⟩
      split
      · rename_i contract i _ _ contract' _ _ _ _
        obtain ⟨r, hr⟩ := exists_moveShares hroom so sp i destination contract destination
          contract' shares
        split_ifs
        · exact ⟨_, rfl⟩
        · exact ⟨_, rfl⟩
        · exact ⟨_, by rw [hr]; rfl⟩
      · exact ⟨_, rfl⟩
    exact ⟨_, by rw [Universe.step, hr]; rfl⟩
  | transferShareManagementRights so sp contract contract' shares =>
    obtain ⟨r, hr⟩ : ∃ r, st.1.transferShareManagementRights d so sp contract contract' shares =
        some r := by
      unfold Universe.transferShareManagementRights
      split_ifs
      · exact ⟨_, rfl⟩
      · exact ⟨_, rfl⟩
      · split
        · rename_i owner _ i _ possessor _ _ _ _ _
          obtain ⟨r, hr⟩ := exists_moveShares hroom so sp i owner contract possessor contract'
            shares
          exact ⟨_, by rw [hr]; rfl⟩
        · exact ⟨_, rfl⟩
    exact ⟨_, by rw [Universe.step, hr]; rfl⟩
  | assetsEndEpoch => exact absurd rfl hcall

/-! ## Runs -/

/-- The asset table and its index lists are in order. -/
structure WellFormed (d : Nat) (u : Universe) : Prop where
  reachable : ∀ i < 2 ^ d, ∀ k, (u.assets i).recordKey = some k →
    Reach (2 ^ d) (fun j => u.assets j ≠ .empty) (homeSlot d k.publicKey) i
  issuance_unique : ∀ i < 2 ^ d, ∀ j < 2 ^ d, ∀ issuer name decimals unit decimals' unit',
    u.assets i = .issuance issuer name decimals unit →
    u.assets j = .issuance issuer name decimals' unit' → i = j
  ownership_unique : ∀ i < 2 ^ d, ∀ j < 2 ^ d, ∀ owner contract issuance n n',
    u.assets i = .ownership owner contract issuance n →
    u.assets j = .ownership owner contract issuance n' → i = j
  possession_unique : ∀ i < 2 ^ d, ∀ j < 2 ^ d, ∀ possessor contract ownership n n',
    u.assets i = .possession possessor contract ownership n →
    u.assets j = .possession possessor contract ownership n' → i = j
  ownership_points : ∀ o owner contract i n, u.assets o = .ownership owner contract i n →
    i < 2 ^ d ∧ ∃ issuer name decimals unit, u.assets i = .issuance issuer name decimals unit
  possession_points : ∀ p possessor contract o n, u.assets p = .possession possessor contract o n →
    o < 2 ^ d ∧ ∃ owner contract i n, u.assets o = .ownership owner contract i n
  /-- Every list comes to its end and holds the records that belong to it, once each. -/
  lists : ∀ q, ∃ l, Walk NO_ASSET_INDEX u.indexLists.nextIdx (u.indexLists.first q) l ∧ l.Nodup ∧
    ∀ i, i ∈ l ↔ i < 2 ^ d ∧ (u.assets i).listOf = some q

lemma TableInv.wellFormed (h : TableInv d u.assets u.indexLists) :
    WellFormed d u := by
  refine ⟨fun i hi k hk => ?_, ?_, ?_, ?_, ?_, ?_, fun q => ?_⟩
  · refine (h.chained.reach hi hk).mono fun j _ hj hempty => ?_
    rw [InUse, hempty] at hj
    cases hj
  · intro i hi j hj issuer name decimals unit decimals' unit' hti htj
    exact h.chained.unique hi hj (by rw [hti]; rfl) (by rw [htj]; rfl)
  · intro i hi j hj owner contract issuance n n' hti htj
    exact h.chained.unique hi hj (by rw [hti]; rfl)
      (by rw [htj]; rfl)
  · intro i hi j hj possessor contract ownership n n' hti htj
    exact h.chained.unique hi hj (k := .possession possessor contract ownership)
      (by rw [hti]; rfl) (by rw [htj]; rfl)
  · intro o owner contract i n ho
    have hparent := h.parent o
    rw [ho] at hparent
    obtain ⟨hi, issuer, name, hkey⟩ := hparent
    refine ⟨hi, ?_⟩
    cases hti : u.assets i <;> simp_all [recordKey]
  · intro p possessor contract o n hp
    have hparent := h.parent p
    rw [hp] at hparent
    obtain ⟨ho, owner, contract', i, hkey⟩ := hparent
    refine ⟨ho, ?_⟩
    cases hto : u.assets o <;> simp_all [recordKey]
  · obtain ⟨l, hwalk, hnodup, hmem⟩ := h.lists q
    refine ⟨l, hwalk, hnodup, fun i => ?_⟩
    rw [hmem, iff_and_self]
    intro hi
    by_contra hout
    simp [h.outside i (by omega), listOf] at hi

/-- Every run of issues and transfers from the empty universe leaves the table and its lists in
order, and the next call comes to its end unless the table is about to fill up. -/
theorem asset_table_wellFormed {d : Nat} (hd : d ≤ 31) {calls : List Call} {u : Universe}
    {l : Ledger} (hcalls : ∀ call ∈ calls, call ≠ .assetsEndEpoch)
    (hrun : run d calls = some (u, l)) :
    WellFormed d u ∧ ∀ call ≠ .assetsEndEpoch, used d u.assets + 3 ≤ 2 ^ d →
      ∃ u' l', step d (u, l) call = some (u', l') := by
  have hinv := TableInv.foldlM calls (tableInv_empty d) hd hcalls hrun
  refine ⟨hinv.wellFormed, fun call hcall hroom => ?_⟩
  obtain ⟨⟨u', l'⟩, hstep⟩ : ∃ st', step d (u, l) call = some st' := exists_step hroom hcall
  exact ⟨u', l', hstep⟩

def tradeRun : List Call :=
  [.issueAsset ⟨1⟩ 65 0 0 10 1, .transferShareOwnershipAndPossession 2 3 ⟨6⟩ 4,
    .issueAsset ⟨1⟩ 66 0 0 5 1, .transferShareManagementRights 2 3 5 5 3,
    .transferShareOwnershipAndPossession 2 3 0 2]

theorem asset_table_wellFormed_tradeRun :
    ∃ u l, run 4 tradeRun = some (u, l) ∧ used 4 u.assets = 10 ∧ WellFormed 4 u := by
  have hsome : ((run 4 tradeRun).map fun st => used 4 st.1.assets) = some 10 := by decide
  obtain ⟨⟨u, l⟩, hrun, hused⟩ := map_eq_some_iff.mp hsome
  exact ⟨u, l, hrun, hused, (asset_table_wellFormed (by norm_num) (by simp [tradeRun]) hrun).1⟩

end Universe

end QubicCore
