import QubicCore.Assets.Basic

/-!
# Bookkeeping of shares

Every operation on the universe is a sequence of small writes: a record is opened without shares, or
a share count changes. `Edit d t t' a b p q` says what such writes did to the books: `a` and `b` are
added to the owned and possessed counts of each slot, `p` and `q` to the sums below each issuance
and each ownership. Edits compose by addition.
-/

namespace QubicCore

open Library.Probing Library.Cells Finset Function

namespace AssetRecord

variable {e : AssetRecord}

def owned : AssetRecord → Int
  | ownership _ _ _ n => n
  | _ => 0

def possessed : AssetRecord → Int
  | possession _ _ _ n => n
  | _ => 0

def issuanceOf : AssetRecord → Option Nat
  | ownership _ _ i _ => some i
  | _ => none

def ownershipOf : AssetRecord → Option Nat
  | possession _ _ o _ => some o
  | _ => none

/-- What identifies an asset: issuer and name. -/
def assetKey : AssetRecord → Option (M256i × BitVec 56)
  | issuance k n _ _ => some (k, n)
  | _ => none

@[simp] lemma empty_owned : empty.owned = 0 := rfl
@[simp] lemma empty_possessed : empty.possessed = 0 := rfl
@[simp] lemma empty_issuanceOf : empty.issuanceOf = none := rfl
@[simp] lemma empty_ownershipOf : empty.ownershipOf = none := rfl
@[simp] lemma empty_assetKey : empty.assetKey = none := rfl

def shape : AssetRecord → AssetRecord
  | ownership k m i _ => ownership k m i 0
  | possession k m o _ => possession k m o 0
  | e => e

@[simp] lemma shape_addShares (e : AssetRecord) (n : Int) : (e.addShares n).shape = e.shape := by
  cases e <;> rfl

/-- Whatever does not read the share count agrees on records of one shape. -/
lemma eq_of_shape {α : Type} {f : AssetRecord → α} (hf : ∀ e, f e.shape = f e) {e' : AssetRecord}
    (h : e.shape = e'.shape) : f e = f e' := by
  rw [← hf e, h, hf e']

lemma issuanceOf_shape (e : AssetRecord) : e.shape.issuanceOf = e.issuanceOf := by cases e <;> rfl

lemma ownershipOf_shape (e : AssetRecord) : e.shape.ownershipOf = e.ownershipOf := by
  cases e <;> rfl

lemma assetKey_shape (e : AssetRecord) : e.shape.assetKey = e.assetKey := by cases e <;> rfl

lemma isEmpty_shape (e : AssetRecord) : e.shape.isEmpty = e.isEmpty := by cases e <;> rfl

lemma eq_empty_of_isEmpty (h : e.isEmpty) : e = empty := by cases e <;> simp_all [isEmpty]

lemma owned_eq_zero (h : e.issuanceOf = none) : e.owned = 0 := by
  cases e <;> simp_all [issuanceOf, owned]

lemma possessed_eq_zero (h : e.ownershipOf = none) : e.possessed = 0 := by
  cases e <;> simp_all [ownershipOf, possessed]

lemma isEmpty_of_issuanceOf {i : Nat} (h : e.issuanceOf = some i) : e.isEmpty = false := by
  cases e <;> simp_all [issuanceOf, isEmpty]

lemma isEmpty_of_ownershipOf {o : Nat} (h : e.ownershipOf = some o) : e.isEmpty = false := by
  cases e <;> simp_all [ownershipOf, isEmpty]

def ownedUnder (i : Nat) (e : AssetRecord) : Int := if e.issuanceOf = some i then e.owned else 0

/-- Shares possessed under ownership `o`. -/
def possessedUnder (o : Nat) (e : AssetRecord) : Int :=
  if e.ownershipOf = some o then e.possessed else 0

end AssetRecord

abbrev AssetKey := M256i × BitVec 56

namespace Universe

open AssetRecord

variable {d : Nat} {t t' : Nat → AssetRecord} {r : Nat}

def ownSum (d : Nat) (t : Nat → AssetRecord) (i : Nat) : Int :=
  ∑ j ∈ range (2 ^ d), (t j).ownedUnder i

def possSum (d : Nat) (t : Nat → AssetRecord) (o : Nat) : Int :=
  ∑ j ∈ range (2 ^ d), (t j).possessedUnder o

def InUse (t : Nat → AssetRecord) (i : Nat) : Prop := (t i).isEmpty = false

/-- Parents exist, and issuances can be found. -/
structure Linked (d : Nat) (t : Nat → AssetRecord) : Prop where
  issuanceOf : ∀ j < 2 ^ d, ∀ i, (t j).issuanceOf = some i → i < 2 ^ d ∧ (t i).assetKey.isSome
  ownershipOf : ∀ j < 2 ^ d, ∀ o, (t j).ownershipOf = some o → o < 2 ^ d ∧ (t o).issuanceOf.isSome
  chained : Chained (2 ^ d) (fun key : AssetKey => homeSlot d key.1)
    (fun i => (t i).assetKey) (InUse t)

/-- Share counts play no part in `Linked`. -/
lemma Linked.congr (h : Linked d t) (he : ∀ j, (t' j).shape = (t j).shape) : Linked d t' := by
  have h1 : ∀ j, (t' j).issuanceOf = (t j).issuanceOf :=
    fun j => eq_of_shape issuanceOf_shape (he j)
  have h2 : ∀ j, (t' j).ownershipOf = (t j).ownershipOf :=
    fun j => eq_of_shape ownershipOf_shape (he j)
  have h3 : ∀ j, (t' j).assetKey = (t j).assetKey := fun j => eq_of_shape assetKey_shape (he j)
  have h4 : InUse t' = InUse t := by
    funext j
    simp only [InUse, eq_of_shape isEmpty_shape (he j)]
  refine ⟨fun j hj i hi => ?_, fun j hj o ho => ?_, ?_⟩
  · rw [h3]
    exact h.issuanceOf j hj i (h1 j ▸ hi)
  · rw [h1]
    exact h.ownershipOf j hj o (h2 j ▸ ho)
  · simpa only [h3, h4] using h.chained

lemma Linked.create (h : Linked d t) {e : AssetRecord} (hz : (t r).isEmpty)
    (he : e.isEmpty = false) (hi : ∀ i, e.issuanceOf = some i → i < 2 ^ d ∧ (t i).assetKey.isSome)
    (ho : ∀ o, e.ownershipOf = some o → o < 2 ^ d ∧ (t o).issuanceOf.isSome)
    (hk : ∀ k, e.assetKey = some k → Reach (2 ^ d) (InUse t) (homeSlot d k.1) r ∧
      ∀ i < 2 ^ d, (t i).assetKey ≠ some k) : Linked d (update t r e) := by
  have hr := eq_empty_of_isEmpty hz
  have hold : ∀ i, (t i).isEmpty = false → update t r e i = t i := by
    intro i hin
    refine update_of_ne ?_ _ _
    rintro rfl
    rw [hz] at hin
    cases hin
  have hkey : ∀ i, (t i).assetKey.isSome → update t r e i = t i := fun i hs =>
    hold i (by cases hti : t i <;> simp_all [assetKey, isEmpty])
  have hown : ∀ i, (t i).issuanceOf.isSome → update t r e i = t i := fun i hs => by
    obtain ⟨x, hx⟩ := Option.isSome_iff_exists.mp hs
    exact hold i (isEmpty_of_issuanceOf hx)
  have huse : ∀ i, InUse t i → InUse (update t r e) i := fun i hin => by
    unfold InUse
    rwa [hold i hin]
  refine ⟨fun j hj i hji => ?_, fun j hj o hjo => ?_, ?_⟩
  · have hold' : i < 2 ^ d ∧ (t i).assetKey.isSome := by
      by_cases hjr : j = r
      · subst hjr
        exact hi i (by simpa using hji)
      · exact h.issuanceOf j hj i (by simpa [hjr] using hji)
    rw [hkey i hold'.2]
    exact hold'
  · have hold' : o < 2 ^ d ∧ (t o).issuanceOf.isSome := by
      by_cases hjr : j = r
      · subst hjr
        exact ho o (by simpa using hjo)
      · exact h.ownershipOf j hj o (by simpa [hjr] using hjo)
    rw [hown o hold'.2]
    exact hold'
  · cases hke : e.assetKey with
    | none =>
      refine h.chained.remove (fun i _ => .inl ?_) fun i _ => huse i
      by_cases hir : i = r
      · subst hir
        simp [hke, hr]
      · simp [hir]
    | some k =>
      obtain ⟨hreach, habsent⟩ := hk k hke
      refine h.chained.insert hreach habsent (by simpa using hke) (fun i _ hir => ?_)
        (fun i _ => huse i) (by simpa [InUse] using he)
      simp [hir]

/-! ## Edits -/

structure Edit (d : Nat) (t t' : Nat → AssetRecord) (a b p q : Nat → Int) : Prop where
  linked : Linked d t'
  shape : ∀ j, (t j).isEmpty = false → (t' j).shape = (t j).shape
  assetKey : ∀ j, (t' j).assetKey = (t j).assetKey
  owned : ∀ j, (t' j).owned = (t j).owned + a j
  possessed : ∀ j, (t' j).possessed = (t j).possessed + b j
  ownSum : ∀ i, ownSum d t' i = ownSum d t i + p i
  possSum : ∀ o, possSum d t' o = possSum d t o + q o

lemma Edit.refl (h : Linked d t) : Edit d t t 0 0 0 0 :=
  ⟨h, fun _ _ => rfl, fun _ => rfl, by simp, by simp, by simp, by simp⟩

lemma Edit.trans {t'' : Nat → AssetRecord} {a b p q a' b' p' q' : Nat → Int}
    (h : Edit d t t' a b p q) (h' : Edit d t' t'' a' b' p' q') :
    Edit d t t'' (a + a') (b + b') (p + p') (q + q') where
  linked := h'.linked
  shape j hj := by
    have hsame := h.shape j hj
    have hj' : (t' j).isEmpty = false := (eq_of_shape isEmpty_shape hsame).trans hj
    rw [h'.shape j hj', hsame]
  assetKey j := (h'.assetKey j).trans (h.assetKey j)
  owned j := by simp [h'.owned j, h.owned j, add_assoc]
  possessed j := by simp [h'.possessed j, h.possessed j, add_assoc]
  ownSum i := by simp [h'.ownSum i, h.ownSum i, add_assoc]
  possSum o := by simp [h'.possSum o, h.possSum o, add_assoc]

lemma ownSum_write (hr : r < 2 ^ d) (t : Nat → AssetRecord) (e : AssetRecord) (i : Nat) :
    ownSum d (update t r e) i = ownSum d t i + (e.ownedUnder i - (t r).ownedUnder i) := by
  have := sum_update hr t e (ownedUnder i)
  simp only [ownSum]
  omega

lemma possSum_write (hr : r < 2 ^ d) (t : Nat → AssetRecord) (e : AssetRecord) (o : Nat) :
    possSum d (update t r e) o = possSum d t o + (e.possessedUnder o - (t r).possessedUnder o) := by
  have := sum_update hr t e (possessedUnder o)
  simp only [possSum]
  omega

lemma Edit.write {e : AssetRecord} {a b : Int} {p q : Nat → Int} (hr : r < 2 ^ d)
    (h : Linked d (update t r e)) (hshape : (t r).isEmpty = false → e.shape = (t r).shape)
    (hk : e.assetKey = (t r).assetKey) (ha : e.owned = (t r).owned + a)
    (hb : e.possessed = (t r).possessed + b)
    (hp : ∀ i, e.ownedUnder i = (t r).ownedUnder i + p i)
    (hq : ∀ o, e.possessedUnder o = (t r).possessedUnder o + q o) :
    Edit d t (update t r e) (Pi.single r a) (Pi.single r b) p q := by
  refine ⟨h, fun j hj => ?_, fun j => ?_, fun j => ?_, fun j => ?_, fun i => ?_, fun o => ?_⟩
  · obtain rfl | hjr := eq_or_ne j r
    · simpa using hshape hj
    · simp [hjr]
  · obtain rfl | hjr := eq_or_ne j r <;> simp [*]
  · obtain rfl | hjr := eq_or_ne j r <;> simp [*]
  · obtain rfl | hjr := eq_or_ne j r <;> simp [*]
  · rw [ownSum_write hr, hp, add_sub_cancel_left]
  · rw [possSum_write hr, hq, add_sub_cancel_left]

lemma Edit.create {e : AssetRecord} (hr : r < 2 ^ d) (hz : (t r).isEmpty)
    (ho : e.owned = 0) (hp : e.possessed = 0) (hk : e.assetKey = none)
    (h : Linked d (update t r e)) : Edit d t (update t r e) 0 0 0 0 := by
  have hempty := eq_empty_of_isEmpty hz
  have hwrite := Edit.write (a := 0) (b := 0) (p := 0) (q := 0) hr h (by simp [hz])
    (by simp [hk, hempty]) (by simp [ho, hempty]) (by simp [hp, hempty])
    (by simp [ownedUnder, ho, hempty]) (by simp [possessedUnder, hp, hempty])
  rwa [Pi.single_zero] at hwrite

lemma shape_update_addShares (t : Nat → AssetRecord) (r : Nat) (n : Int) (j : Nat) :
    (update t r ((t r).addShares n) j).shape = (t j).shape := by
  by_cases hjr : j = r
  · subst hjr; simp
  · simp [hjr]

lemma Linked.addShares (h : Linked d t) (r : Nat) (n : Int) :
    Linked d (update t r ((t r).addShares n)) :=
  h.congr (shape_update_addShares t r n)

lemma Edit.addOwned (h : Linked d t) {i : Nat} {n : Int} (hr : r < 2 ^ d)
    (hi : (t r).issuanceOf = some i) (hl : 0 ≤ (t r).owned + n) (hu : (t r).owned + n < 2 ^ 63) :
    Edit d t (update t r ((t r).addShares n)) (Pi.single r n) 0 (Pi.single i n) 0 := by
  have hedit := Edit.write (a := n) (b := 0) (p := Pi.single i n) (q := 0)
    hr (h.addShares r n) (fun _ => shape_addShares _ n)
    (eq_of_shape assetKey_shape (shape_addShares _ n))
  rw [Pi.single_zero] at hedit
  cases htr : t r with
  | ownership k m i' x =>
    obtain rfl : i' = i := by simpa [htr, AssetRecord.issuanceOf] using hi
    simp only [htr, AssetRecord.owned] at hl hu
    have hx : sint64 (x + n) = x + n := sint64_eq (by omega) (by omega)
    rw [htr] at hedit
    refine hedit hx rfl (fun j => ?_) fun o => rfl
    obtain rfl | hj := eq_or_ne i' j
    · simp [AssetRecord.addShares, ownedUnder, AssetRecord.issuanceOf, AssetRecord.owned, hx]
    · simp [AssetRecord.addShares, ownedUnder, AssetRecord.issuanceOf, hj, hj.symm]
  | _ => simp [htr, AssetRecord.issuanceOf] at hi

lemma Edit.addPossessed (h : Linked d t) {o : Nat} {n : Int} (hr : r < 2 ^ d)
    (ho : (t r).ownershipOf = some o) (hl : 0 ≤ (t r).possessed + n)
    (hu : (t r).possessed + n < 2 ^ 63) :
    Edit d t (update t r ((t r).addShares n)) 0 (Pi.single r n) 0 (Pi.single o n) := by
  have hedit := Edit.write (a := 0) (b := n) (p := 0) (q := Pi.single o n)
    hr (h.addShares r n) (fun _ => shape_addShares _ n)
    (eq_of_shape assetKey_shape (shape_addShares _ n))
  rw [Pi.single_zero] at hedit
  cases htr : t r with
  | possession k m o' x =>
    obtain rfl : o' = o := by simpa [htr, AssetRecord.ownershipOf] using ho
    simp only [htr, AssetRecord.possessed] at hl hu
    have hx : sint64 (x + n) = x + n := sint64_eq (by omega) (by omega)
    rw [htr] at hedit
    refine hedit rfl hx (fun i => rfl) fun j => ?_
    obtain rfl | hj := eq_or_ne o' j
    · simp [AssetRecord.addShares, possessedUnder, AssetRecord.ownershipOf, AssetRecord.possessed,
        hx]
    · simp [AssetRecord.addShares, possessedUnder, AssetRecord.ownershipOf, hj, hj.symm]
  | _ => simp [htr, AssetRecord.ownershipOf] at ho

end Universe

end QubicCore
