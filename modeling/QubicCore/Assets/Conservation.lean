import QubicCore.Assets.Books

/-!
# Conservation of shares

`Books d t supply` is the invariant of the universe: every ownership equals the possessions below
it, and the ownerships below an issuance add up to the supply of its asset.
-/

namespace QubicCore.Universe

open Library.Probing Library.Cells Finset AssetRecord Function Option Pi Universe

variable {d : Nat} {t t' : Nat → AssetRecord} {supply : AssetKey → Int} {j i o r contract : Nat}
  {k : AssetKey} {n : Int} {e : AssetRecord} {test : AssetRecord → Bool} {issuer : M256i}
  {name : BitVec 56} {t₁ : Nat → AssetRecord} {u : Universe} {p : Nat}
  {t₂ t₃ : Nat → AssetRecord} {so iss sp : Nat}

structure Books (d : Nat) (t : Nat → AssetRecord) (supply : AssetKey → Int) : Prop where
  linked : Linked d t
  balanced : ∀ o < 2 ^ d, (t o).owned = possSum d t o
  owned_nonneg : ∀ j < 2 ^ d, 0 ≤ (t j).owned
  possessed_nonneg : ∀ j < 2 ^ d, 0 ≤ (t j).possessed
  supply_eq : ∀ i < 2 ^ d, ∀ k, (t i).assetKey = some k → ownSum d t i = supply k
  supply_absent : ∀ k, (∀ i < 2 ^ d, (t i).assetKey ≠ some k) → supply k = 0
  supply_lt : ∀ k, supply k < 2 ^ 63

lemma le_ownSum (hpos : ∀ j < 2 ^ d, 0 ≤ (t j).owned) (hj : j < 2 ^ d)
    (hi : (t j).issuanceOf = some i) : (t j).owned ≤ ownSum d t i := by
  have hle := single_le_sum (f := fun j => (t j).ownedUnder i) (fun x hx => ?_) (mem_range.mpr hj)
  · simpa [ownSum, ownedUnder, hi] using hle
  · have := hpos x (mem_range.mp hx)
    simp only [ownedUnder]
    split_ifs <;> simp [this]

lemma le_possSum (hpos : ∀ j < 2 ^ d, 0 ≤ (t j).possessed) (hj : j < 2 ^ d)
    (ho : (t j).ownershipOf = some o) : (t j).possessed ≤ possSum d t o := by
  have hle := single_le_sum (f := fun j => (t j).possessedUnder o) (fun x hx => ?_)
    (mem_range.mpr hj)
  · simpa [possSum, possessedUnder, ho] using hle
  · have := hpos x (mem_range.mp hx)
    simp only [possessedUnder]
    split_ifs <;> simp [this]

lemma Linked.ownSum_eq_zero (h : Linked d t) (hi : (t i).assetKey = none) : ownSum d t i = 0 := by
  refine sum_eq_zero fun j hj => ?_
  simp only [ownedUnder]
  split_ifs with hji
  · have := (h.issuanceOf j (mem_range.mp hj) i hji).2
    simp [hi] at this
  · rfl

lemma Books.owned_lt (h : Books d t supply) (hj : j < 2 ^ d) : (t j).owned < 2 ^ 63 := by
  cases hi : (t j).issuanceOf with
  | none => simp [owned_eq_zero hi]
  | some i =>
    obtain ⟨hlt, hkey⟩ := h.linked.issuanceOf j hj i hi
    obtain ⟨k, hk⟩ := isSome_iff_exists.mp hkey
    calc (t j).owned ≤ ownSum d t i := le_ownSum h.owned_nonneg hj hi
      _ = supply k := h.supply_eq i hlt k hk
      _ < 2 ^ 63 := h.supply_lt k

/-- An edit whose changes agree on both sides of the books. -/
lemma Books.edit {supply' : AssetKey → Int} {a b p q : Nat → Int} (h : Books d t supply)
    (he : Edit d t t' a b p q) (hbal : ∀ o < 2 ^ d, a o = q o)
    (hown : ∀ j < 2 ^ d, 0 ≤ (t j).owned + a j)
    (hposs : ∀ j < 2 ^ d, 0 ≤ (t j).possessed + b j)
    (hsupply : ∀ i < 2 ^ d, ∀ k, (t i).assetKey = some k → supply' k = supply k + p i)
    (habsent : ∀ k, (∀ i < 2 ^ d, (t i).assetKey ≠ some k) → supply' k = 0)
    (hlt : ∀ k, supply' k < 2 ^ 63) : Books d t' supply' where
  linked := he.linked
  balanced o ho := by rw [he.owned, he.possSum, h.balanced o ho, hbal o ho]
  owned_nonneg j hj := by rw [he.owned]; exact hown j hj
  possessed_nonneg j hj := by rw [he.possessed]; exact hposs j hj
  supply_eq i hi k hk := by
    rw [he.assetKey] at hk
    rw [he.ownSum, h.supply_eq i hi k hk, hsupply i hi k hk]
  supply_absent k hk := habsent k fun i hi => he.assetKey i ▸ hk i hi
  supply_lt := hlt

lemma Books.editAsset (h : Books d t supply) {a b q : Nat → Int} (hi : i < 2 ^ d)
    (hk : (t i).assetKey = some k) (he : Edit d t t' a b (single i n) q)
    (hbal : ∀ o < 2 ^ d, a o = q o) (hown : ∀ j < 2 ^ d, 0 ≤ (t j).owned + a j)
    (hposs : ∀ j < 2 ^ d, 0 ≤ (t j).possessed + b j) (hlt : supply k + n < 2 ^ 63) :
    Books d t' (update supply k (supply k + n)) := by
  refine h.edit he hbal hown hposs ?_ ?_ ?_
  · intro i' hi' k' hk'
    by_cases hkk : k' = k
    · subst hkk
      obtain rfl := h.linked.chained.unique hi hi' hk hk'
      simp
    · have hne : i' ≠ i := by
        rintro rfl
        exact hkk (some.inj (hk'.symm.trans hk))
      simp [hkk, hne]
  · intro k' hk'
    have hkk : k' ≠ k := by
      rintro rfl
      exact hk' i hi hk
    simpa [hkk] using h.supply_absent k' hk'
  · intro k'
    by_cases hkk : k' = k
    · subst hkk; simpa using hlt
    · simpa [hkk] using h.supply_lt k'

lemma Books.createIssuance (h : Books d t supply) (hr : r < 2 ^ d) (hz : (t r).isEmpty)
    (hk : e.assetKey = some k) (hreach : Reach (2 ^ d) (InUse t) (homeSlot d k.1) r)
    (habsent : ∀ i < 2 ^ d, (t i).assetKey ≠ some k) :
    Books d (update t r e) supply := by
  have hempty := eq_empty_of_isEmpty hz
  have hi : e.issuanceOf = none := by cases e <;> simp_all [assetKey, issuanceOf]
  have ho : e.ownershipOf = none := by cases e <;> simp_all [assetKey, ownershipOf]
  have hsame : ∀ j, (update t r e j).owned = (t j).owned := fun j => by
    by_cases hjr : j = r
    · subst hjr; simp [owned_eq_zero hi, hempty]
    · simp [hjr]
  have hsame' : ∀ j, (update t r e j).possessed = (t j).possessed := fun j => by
    by_cases hjr : j = r
    · subst hjr; simp [possessed_eq_zero ho, hempty]
    · simp [hjr]
  have hown : ∀ i, ownSum d (update t r e) i = ownSum d t i := fun i => by
    simp [ownSum_write hr, ownedUnder, hi, hempty]
  have hposs : ∀ o, possSum d (update t r e) o = possSum d t o := fun o => by
    simp [possSum_write hr, possessedUnder, ho, hempty]
  refine ⟨?_, ?_, ?_, ?_, ?_, ?_, h.supply_lt⟩
  · refine h.linked.create hz ?_ (by simp [hi]) (by simp [ho]) fun k' hk' => ?_
    · cases e <;> simp_all [assetKey, isEmpty]
    · obtain rfl : k = k' := some.inj (hk.symm.trans hk')
      exact ⟨hreach, habsent⟩
  · intro o hol
    rw [hsame, hposs, h.balanced o hol]
  · intro j hj
    rw [hsame]
    exact h.owned_nonneg j hj
  · intro j hj
    rw [hsame']
    exact h.possessed_nonneg j hj
  · intro i hil k' hk'
    rw [hown]
    by_cases hir : i = r
    · subst hir
      obtain rfl : k = k' := by simpa [hk] using hk'
      rw [h.supply_absent k habsent, h.linked.ownSum_eq_zero (by simp [hempty])]
    · exact h.supply_eq i hil k' (by simpa [hir] using hk')
  · intro k' hk'
    refine h.supply_absent k' fun i hil hik => hk' i hil ?_
    by_cases hir : i = r
    · subst hir; simp [hempty] at hik
    · simpa [hir] using hik

/-! ## Finding and opening records -/

lemma findRecord_spec {start : Nat} (hs : start < 2 ^ d) (hf : findRecord d t test start = some r) :
    r < 2 ^ d ∧ ((t r).isEmpty ∨ test (t r)) ∧ Reach (2 ^ d) (InUse t) start r := by
  refine ⟨probe_lt hs hf, by simpa using probe_stop hs hf, reach_of_probe hs hf fun j _ hj => ?_⟩
  simp only [Bool.or_eq_false_iff] at hj
  exact hj.1

/-- When the walk ends at an empty slot, no record that can be reached passes the test. -/
lemma findRecord_absent {start : Nat} (hs : start < 2 ^ d)
    (hf : findRecord d t test start = some r) (hz : (t r).isEmpty)
    (hi : Reach (2 ^ d) (InUse t) start i) (ht : test (t i)) : (t i).isEmpty := by
  obtain rfl | hb := probe_of_reach_stop hs hi (by simp [ht]) hf
  · exact hz
  · rw [InUse, hz] at hb
    cases hb

lemma fill_of_empty (hz : (t r).isEmpty) : fill t r e = update t r e := if_pos hz

lemma fill_of_used (hz : (t r).isEmpty = false) : fill t r e = t := if_neg (by simp [hz])

lemma fill_ownership (h : Linked d t) (hr : r < 2 ^ d) (hi : i < 2 ^ d)
    (hkey : (t i).assetKey.isSome) (owner : M256i) (contract : Nat)
    (hf : (t r).isEmpty ∨ (t r).issuanceOf = some i) :
    Edit d t (fill t r (.ownership owner contract i 0)) 0 0 0 0 ∧
      (fill t r (.ownership owner contract i 0) r).issuanceOf = some i := by
  cases hz : (t r).isEmpty with
  | true =>
    rw [fill_of_empty hz]
    refine ⟨Edit.create hr hz rfl rfl rfl (h.create hz rfl ?_ ?_ ?_), by simp [issuanceOf]⟩
    · intro j hj
      obtain rfl : i = j := by simpa [issuanceOf] using hj
      exact ⟨hi, hkey⟩
    · simp [ownershipOf]
    · simp [assetKey]
  | false =>
    rw [fill_of_used hz]
    exact ⟨Edit.refl h, hf.resolve_left (by simp [hz])⟩

lemma fill_possession (h : Linked d t) (hr : r < 2 ^ d) (ho : o < 2 ^ d)
    (hown : (t o).issuanceOf.isSome) (possessor : M256i) (contract : Nat)
    (hf : (t r).isEmpty ∨ (t r).ownershipOf = some o) :
    Edit d t (fill t r (.possession possessor contract o 0)) 0 0 0 0 ∧
      (fill t r (.possession possessor contract o 0) r).ownershipOf = some o := by
  cases hz : (t r).isEmpty with
  | true =>
    rw [fill_of_empty hz]
    refine ⟨Edit.create hr hz rfl rfl rfl (h.create hz rfl ?_ ?_ ?_), by simp [ownershipOf]⟩
    · simp [issuanceOf]
    · intro j hj
      obtain rfl : o = j := by simpa [ownershipOf] using hj
      exact ⟨ho, hown⟩
    · simp [assetKey]
  | false =>
    rw [fill_of_used hz]
    exact ⟨Edit.refl h, hf.resolve_left (by simp [hz])⟩

lemma issuanceOf_of_isOwnership {owner : M256i} (h : e.isOwnership owner contract i) :
    e.issuanceOf = some i := by
  cases e <;> simp_all [isOwnership, issuanceOf]

lemma ownershipOf_of_isPossession {possessor : M256i}
    (h : e.isPossession possessor contract o) : e.ownershipOf = some o := by
  cases e <;> simp_all [isPossession, ownershipOf]

lemma isIssuance_iff : e.isIssuance issuer name ↔ e.assetKey = some (issuer, name) := by
  cases e <;> simp [isIssuance, assetKey, and_comm]

/-! ## Giving shares to an asset -/

/-- The two writes that give `n` shares to an ownership: open it if needed, then add. -/
lemma Edit.giveOwned (h : Linked d t) (hpos : ∀ j < 2 ^ d, 0 ≤ (t j).owned) (hi : i < 2 ^ d)
    (hkey : (t i).assetKey.isSome) (hn : 0 ≤ n) (hlt : Universe.ownSum d t i + n < 2 ^ 63)
    (ho : o < 2 ^ d) (owner : M256i) (contract : Nat)
    (hf : (t o).isEmpty ∨ (t o).issuanceOf = some i)
    (ht₁ : t₁ = fill t o (.ownership owner contract i 0)) :
    Edit d t (update t₁ o ((t₁ o).addShares n)) (Pi.single o n) 0 (Pi.single i n) 0 ∧
      (update t₁ o ((t₁ o).addShares n) o).issuanceOf = some i := by
  obtain ⟨hopen, hio⟩ := fill_ownership h ho hi hkey owner contract hf
  rw [← ht₁] at hopen hio
  have hpos₁ : ∀ j < 2 ^ d, 0 ≤ (t₁ j).owned := fun j hj => by simpa [hopen.owned j] using hpos j hj
  have hle := le_ownSum hpos₁ ho hio
  have hsum := hopen.ownSum i
  simp only [Pi.zero_apply, add_zero] at hsum
  have hadd := Edit.addOwned hopen.linked ho hio (n := n) (by have := hpos₁ o ho; omega) (by omega)
  have htrans := hopen.trans hadd
  simp only [zero_add, add_zero] at htrans
  refine ⟨htrans, ?_⟩
  simpa using (eq_of_shape issuanceOf_shape (shape_addShares (t₁ o) n)).trans hio

lemma Edit.givePossessed (h : Linked d t) (hpos : ∀ j < 2 ^ d, 0 ≤ (t j).possessed)
    (ho : o < 2 ^ d) (hown : (t o).issuanceOf.isSome) (hn : 0 ≤ n)
    (hlt : Universe.possSum d t o + n < 2 ^ 63) (hp : p < 2 ^ d) (possessor : M256i)
    (contract : Nat) (hf : (t p).isEmpty ∨ (t p).ownershipOf = some o)
    (ht₁ : t₁ = fill t p (.possession possessor contract o 0)) :
    Edit d t (update t₁ p ((t₁ p).addShares n)) 0 (Pi.single p n) 0 (Pi.single o n) ∧
      (update t₁ p ((t₁ p).addShares n) p).ownershipOf = some o := by
  obtain ⟨hopen, hop⟩ := fill_possession h hp ho hown possessor contract hf
  rw [← ht₁] at hopen hop
  have hpos₁ : ∀ j < 2 ^ d, 0 ≤ (t₁ j).possessed := fun j hj => by
    simpa [hopen.possessed j] using hpos j hj
  have hle := le_possSum hpos₁ hp hop
  have hsum := hopen.possSum o
  simp only [Pi.zero_apply, add_zero] at hsum
  have hadd := Edit.addPossessed hopen.linked hp hop (n := n) (by have := hpos₁ p hp; omega)
    (by omega)
  have htrans := hopen.trans hadd
  simp only [zero_add, add_zero] at htrans
  refine ⟨htrans, ?_⟩
  simpa using (eq_of_shape ownershipOf_shape (shape_addShares (t₁ p) n)).trans hop

/-- Shares given to an ownership and to a possession below it enter the supply of the asset. -/
lemma Books.deposit (h : Books d t supply) (hi : i < 2 ^ d) (hk : (t i).assetKey = some k)
    (hn : 0 ≤ n) (hlt : supply k + n < 2 ^ 63) (ho : o < 2 ^ d) (owner : M256i) (contract : Nat)
    (hfo : (t o).isEmpty ∨ (t o).issuanceOf = some i) (hp : p < 2 ^ d) (possessor : M256i)
    (contract' : Nat) (ht₁ : t₁ = fill t o (.ownership owner contract i 0))
    (ht₂ : t₂ = update t₁ o ((t₁ o).addShares n))
    (hfp : (t₂ p).isEmpty ∨ (t₂ p).ownershipOf = some o)
    (ht₃ : t₃ = fill t₂ p (.possession possessor contract' o 0)) :
    Books d (update t₃ p ((t₃ p).addShares n)) (update supply k (supply k + n)) := by
  have hsupply := h.supply_eq i hi k hk
  obtain ⟨hown, hio⟩ := Edit.giveOwned h.linked h.owned_nonneg hi (by simp [hk]) hn
    (by omega) ho owner contract hfo ht₁
  rw [← ht₂] at hown hio
  have hpos₂ : ∀ j < 2 ^ d, 0 ≤ (t₂ j).owned := fun j hj => by
    have := h.owned_nonneg j hj
    rw [hown.owned, single_apply]
    split_ifs <;> omega
  have hposs₂ : ∀ j < 2 ^ d, 0 ≤ (t₂ j).possessed := fun j hj => by
    simpa [hown.possessed j] using h.possessed_nonneg j hj
  have hbal : possSum d t₂ o + n = (t₂ o).owned := by
    simp [hown.possSum o, hown.owned o, h.balanced o ho]
  have hle := le_ownSum hpos₂ ho hio
  rw [hown.ownSum i, single_eq_same, hsupply] at hle
  obtain ⟨hposs, _⟩ := Edit.givePossessed hown.linked hposs₂ ho (by simp [hio]) hn
    (by omega) hp possessor contract' hfp ht₃
  have hall := hown.trans hposs
  simp only [zero_add, add_zero] at hall
  refine h.editAsset hi hk hall (fun _ _ => rfl) ?_ ?_ hlt
  · intro j hj
    have := h.owned_nonneg j hj
    rw [single_apply]
    split_ifs <;> omega
  · intro j hj
    have := h.possessed_nonneg j hj
    rw [single_apply]
    split_ifs <;> omega

/-! ## Moving shares -/

variable (u)

@[simp] lemma markChanged_assets (i : Nat) : (u.markChanged i).assets = u.assets := rfl

@[simp] lemma write_assets (i : Nat) (e : AssetRecord) :
    (u.write i e).assets = update u.assets i e := rfl

@[simp] lemma addShares_assets (i : Nat) (n : Int) :
    (u.addShares i n).assets = update u.assets i ((u.assets i).addShares n) := rfl

@[simp] lemma openOwnership_assets (r : Nat) (owner : M256i)
    (contract issuance : Nat) : (u.openOwnership r owner contract issuance).assets =
      fill u.assets r (.ownership owner contract issuance 0) := by
  unfold openOwnership fill
  split_ifs <;> rfl

@[simp] lemma openPossession_assets (r : Nat) (possessor : M256i)
    (contract ownership : Nat) : (u.openPossession r possessor contract ownership).assets =
      fill u.assets r (.possession possessor contract ownership 0) := by
  unfold openPossession fill
  split_ifs <;> rfl

variable {u}

/-- A slot that a walk may end at can also be used after share counts have changed. -/
lemma usable_of_shape {x : Option Nat} {f : AssetRecord → Option Nat} (hf : ∀ e, f e.shape = f e)
    (hs : (t' r).shape = (t r).shape) (h : (t r).isEmpty ∨ f (t r) = x) :
    (t' r).isEmpty ∨ f (t' r) = x := by
  rwa [eq_of_shape isEmpty_shape hs, eq_of_shape hf hs]

lemma Books.moveOwned (h : Books d t supply) (owner : M256i) (contract : Nat)
    (hso : so < 2 ^ d) (hn : 0 ≤ n) (hiss : (t so).issuanceOf = some iss) (hle : n ≤ (t so).owned)
    (ho : o < 2 ^ d) (hf : (t o).isEmpty ∨ (t o).issuanceOf = some iss)
    (ht₁ : t₁ = update t so ((t so).addShares (-n)))
    (ht₂ : t₂ = fill t₁ o (.ownership owner contract iss 0))
    (ht₃ : t₃ = update t₂ o ((t₂ o).addShares n)) :
    Edit d t t₃ (single so (-n) + single o n) 0 0 0 ∧ (t₃ o).issuanceOf = some iss ∧
      (t₃ o).owned < 2 ^ 63 := by
  obtain ⟨hi, hkey⟩ := h.linked.issuanceOf so hso iss hiss
  obtain ⟨k, hk⟩ := isSome_iff_exists.mp hkey
  have hsum := h.supply_eq iss hi k hk
  have hlt := h.supply_lt k
  have hson := h.owned_lt hso
  have hgive := Edit.addOwned h.linked hso hiss (n := -n) (by omega) (by omega)
  have hshape := shape_update_addShares t so (-n)
  rw [← ht₁] at hgive hshape
  have hpos : ∀ j < 2 ^ d, 0 ≤ (t₁ j).owned := fun j hj => by
    have := h.owned_nonneg j hj
    rw [hgive.owned, single_apply]
    split_ifs with hjso
    · subst hjso; omega
    · omega
  have hsum₁ : ownSum d t₁ iss = supply k - n := by
    rw [hgive.ownSum, single_eq_same, hsum, sub_eq_add_neg]
  obtain ⟨hreceive, hio⟩ := Edit.giveOwned hgive.linked hpos hi (by rw [hgive.assetKey, hk]; rfl)
    hn (by omega) ho owner contract (usable_of_shape issuanceOf_shape (hshape o) hf) ht₂
  rw [← ht₃] at hreceive hio
  have hboth := hgive.trans hreceive
  have hpos₃ : ∀ j < 2 ^ d, 0 ≤ (t₃ j).owned := fun j hj => by
    have := hpos j hj
    rw [hreceive.owned, single_apply]
    split_ifs <;> omega
  have hle₃ := le_ownSum hpos₃ ho hio
  rw [hreceive.ownSum, single_eq_same, hsum₁] at hle₃
  have hcancel : single iss (-n) + single iss n = (0 : Nat → Int) := by
    rw [← single_add, neg_add_cancel, single_zero]
  rw [hcancel, add_zero] at hboth
  exact ⟨hboth, hio, by omega⟩

lemma Edit.movePossessed (h : Linked d t) (hpos : ∀ j < 2 ^ d, 0 ≤ (t j).possessed)
    (possessor : M256i) (contract : Nat) (hsp : sp < 2 ^ d) (hn : 0 ≤ n)
    (hso : (t sp).ownershipOf = some so) (hle : n ≤ (t sp).possessed)
    (hlt : (t sp).possessed < 2 ^ 63) (ho : o < 2 ^ d) (hown : (t o).issuanceOf.isSome)
    (hroom : Universe.possSum d t o + (single so (-n) : Nat → Int) o + n < 2 ^ 63)
    (hp : p < 2 ^ d) (hf : (t p).isEmpty ∨ (t p).ownershipOf = some o)
    (ht₁ : t₁ = update t sp ((t sp).addShares (-n)))
    (ht₂ : t₂ = fill t₁ p (.possession possessor contract o 0))
    (ht₃ : t₃ = update t₂ p ((t₂ p).addShares n)) :
    Edit d t t₃ 0 (single sp (-n) + single p n) 0
      (single so (-n) + single o n) := by
  have hgive := Edit.addPossessed h hsp hso (n := -n) (by omega) (by omega)
  have hshape := shape_update_addShares t sp (-n)
  rw [← ht₁] at hgive hshape
  have hpos₁ : ∀ j < 2 ^ d, 0 ≤ (t₁ j).possessed := fun j hj => by
    have := hpos j hj
    rw [hgive.possessed, single_apply]
    split_ifs with hjsp
    · subst hjsp; omega
    · omega
  have hown₁ : (t₁ o).issuanceOf.isSome := by rwa [eq_of_shape issuanceOf_shape (hshape o)]
  obtain ⟨hreceive, _⟩ := Edit.givePossessed hgive.linked hpos₁ ho hown₁ hn
    (by rwa [hgive.possSum]) hp possessor contract
    (usable_of_shape ownershipOf_shape (hshape p) hf) ht₂
  rw [← ht₃] at hreceive
  simpa using hgive.trans hreceive

/-- Moving shares takes them from the two source records and gives them to the destination. -/
lemma Books.moveShares {u' : Universe} (h : Books d u.assets supply) {owner possessor : M256i}
    {contract' : Nat} (hso : so < 2 ^ d) (hsp : sp < 2 ^ d) (hn : 0 ≤ n)
    (hiss : (u.assets so).issuanceOf = some iss) (hle : n ≤ (u.assets so).owned)
    (hpo : (u.assets sp).ownershipOf = some so) (hle' : n ≤ (u.assets sp).possessed)
    (hm : u.moveShares d so sp iss owner contract possessor contract' n = some (u', o, p)) :
    Books d u'.assets supply ∧ Edit d u.assets u'.assets (Pi.single so (-n) + Pi.single o n)
      (Pi.single sp (-n) + Pi.single p n) 0 (Pi.single so (-n) + Pi.single o n) := by
  simp only [Universe.moveShares, Option.bind_eq_bind, Option.bind_eq_some_iff, Option.pure_def,
    Option.some.injEq, Prod.mk.injEq] at hm
  obtain ⟨o', hfo, p', hfp, rfl, rfl, rfl⟩ := hm
  simp only [addShares_assets, openOwnership_assets, openPossession_assets,
    markChanged_assets] at hfp ⊢
  generalize ht₁ : update u.assets so ((u.assets so).addShares (-n)) = t₁ at hfp ⊢
  generalize ht₂ : fill t₁ o' (ownership owner contract iss 0) = t₂ at hfp ⊢
  generalize ht₃ : update t₂ o' ((t₂ o').addShares n) = t₃ at hfp ⊢
  obtain ⟨ho, huo, _⟩ := findRecord_spec (homeSlot_lt d owner) hfo
  obtain ⟨hp, hup, _⟩ := findRecord_spec (homeSlot_lt d possessor) hfp
  obtain ⟨hown, hio, hroom⟩ := h.moveOwned owner contract hso hn hiss hle ho
    (huo.imp_right issuanceOf_of_isOwnership) ht₁.symm ht₂.symm ht₃.symm
  have hsame : ∀ j, (t₃ j).possessed = (u.assets j).possessed := by simpa using hown.possessed
  have hsource := eq_of_shape ownershipOf_shape (hown.shape sp (isEmpty_of_ownershipOf hpo))
  have hbound := le_possSum h.possessed_nonneg hsp hpo
  have hson := h.owned_lt hso
  rw [← h.balanced so hso] at hbound
  -- What lies below the destination is what it owned before the transfer.
  have hbelow := hown.owned o'
  simp only [Pi.add_apply, Pi.single_eq_same] at hbelow
  have hposs := Edit.movePossessed hown.linked (fun j hj => hsame j ▸ h.possessed_nonneg j hj)
    possessor contract' hsp hn (hsource.trans hpo) (hsame sp ▸ hle') (by rw [hsame]; omega) ho
    (by simp [hio])
    (by rw [hown.possSum, ← h.balanced o' ho]; simp only [Pi.zero_apply]; omega) hp
    (hup.imp_right ownershipOf_of_isPossession) rfl rfl rfl
  have hall := hown.trans hposs
  simp only [zero_add, add_zero] at hall
  refine ⟨h.edit hall (fun _ _ => rfl) ?_ ?_ ?_ h.supply_absent h.supply_lt, hall⟩
  · intro j hj
    have := h.owned_nonneg j hj
    simp only [Pi.add_apply, Pi.single_apply]
    split_ifs with h₁ h₂ h₂ <;> subst_vars <;> omega
  · intro j hj
    have := h.possessed_nonneg j hj
    simp only [Pi.add_apply, Pi.single_apply]
    split_ifs with h₁ h₂ h₂ <;> subst_vars <;> omega
  · simp

lemma Books.burnShares (h : Books d u.assets supply) (hso : so < 2 ^ d)
    (hsp : sp < 2 ^ d) (hn : 0 ≤ n) (hiss : (u.assets so).issuanceOf = some iss)
    (hk : (u.assets iss).assetKey = some k) (hle : n ≤ (u.assets so).owned)
    (hpo : (u.assets sp).ownershipOf = some so) (hle' : n ≤ (u.assets sp).possessed) :
    Books d (u.burnShares so sp n).assets (update supply k (supply k + -n)) := by
  simp only [Universe.burnShares, addShares_assets, markChanged_assets]
  obtain ⟨hi, _⟩ := h.linked.issuanceOf so hso iss hiss
  have hson := h.owned_lt hso
  have hlt := h.supply_lt k
  have hown := Edit.addOwned h.linked hso hiss (n := -n) (by omega) (by omega)
  have hbound := le_possSum h.possessed_nonneg hsp hpo
  rw [← h.balanced so hso] at hbound
  generalize update u.assets so ((u.assets so).addShares (-n)) = t₁ at hown ⊢
  have hsame : ∀ j, (t₁ j).possessed = (u.assets j).possessed := by simpa using hown.possessed
  have hsource := eq_of_shape ownershipOf_shape (hown.shape sp (isEmpty_of_ownershipOf hpo))
  have hposs := Edit.addPossessed hown.linked hsp (hsource.trans hpo) (n := -n)
    (by rw [hsame]; omega) (by rw [hsame]; omega)
  have hall := hown.trans hposs
  simp only [zero_add, add_zero] at hall
  refine h.editAsset hi hk hall (fun _ _ => rfl) ?_ ?_ (by omega)
  · intro j hj
    have := h.owned_nonneg j hj
    rw [single_apply]
    split_ifs <;> subst_vars <;> omega
  · intro j hj
    have := h.possessed_nonneg j hj
    rw [single_apply]
    split_ifs <;> subst_vars <;> omega

/-! ## Issuing -/

lemma ownership_addShares (owner : M256i) (contract i : Nat) (hn : 0 ≤ n) (hlt : n < 2 ^ 63) :
    (ownership owner contract i 0).addShares n = ownership owner contract i n := by
  simp [AssetRecord.addShares, sint64_eq (show -2 ^ 63 ≤ n by omega) hlt]

lemma possession_addShares (possessor : M256i) (contract o : Nat) (hn : 0 ≤ n) (hlt : n < 2 ^ 63) :
    (possession possessor contract o 0).addShares n = possession possessor contract o n := by
  simp [AssetRecord.addShares, sint64_eq (show -2 ^ 63 ≤ n by omega) hlt]

/-- Writing a record with its shares into an empty slot is opening it and adding them. -/
lemma fill_addShares (hz : (t r).isEmpty) (n : Int) :
    update (fill t r e) r ((fill t r e r).addShares n) = update t r (e.addShares n) := by
  simp [fill_of_empty hz]

lemma isEmpty_of_assetKey (h : e.assetKey = some k) : e.isEmpty = false := by
  cases e <;> simp_all [assetKey, isEmpty]

/-- A walk for an issuance that ends at an empty slot shows that there is none. -/
lemma Linked.absent_of_findRecord (h : Linked d t)
    (hf : findRecord d t test (homeSlot d issuer) = some r) (hz : (t r).isEmpty)
    (ht : ∀ e : AssetRecord, e.assetKey = some (issuer, name) → test e) (j : Nat)
    (hj : j < 2 ^ d) : (t j).assetKey ≠ some (issuer, name) := by
  intro hkey
  have hreach := h.chained.reach hj hkey
  have hempty := findRecord_absent (homeSlot_lt d issuer) hf hz hreach (ht _ hkey)
  rw [isEmpty_of_assetKey hkey] at hempty
  cases hempty

lemma clashes_of_assetKey (h : e.assetKey = some (issuer, name)) : e.clashes issuer name := by
  cases e <;> simp_all [assetKey, clashes]

structure Issued (d : Nat) (u u' : Universe) (issuer : M256i) (name : BitVec 56) (n : Int)
    (contract i o p : Nat) : Prop where
  issuance : i < 2 ^ d ∧ (u.assets i).isEmpty ∧ (u'.assets i).assetKey = some (issuer, name)
  ownership : o < 2 ^ d ∧ (u.assets o).isEmpty ∧ u'.assets o = .ownership issuer contract i n
  possession : p < 2 ^ d ∧ (u.assets p).isEmpty ∧ u'.assets p = .possession issuer contract o n
  other : ∀ j ≠ i, j ≠ o → j ≠ p → u'.assets j = u.assets j

/-- Issuing either finds the asset and changes nothing, or writes the three records. -/
lemma Books.issueAsset (h : Books d u.assets supply) {decimals : BitVec 8} {unit : BitVec 56}
    {r : IssueResult} (hn : 0 ≤ n) (hlt : n < 2 ^ 63)
    (hr : u.issueAsset d issuer name decimals unit n contract = some r) :
    (r = ⟨0, none, u⟩) ∨ ∃ i o p, r.numberOfShares = n ∧ r.indices = some (i, o, p) ∧
      supply (issuer, strcpy name) = 0 ∧
      Books d r.after.assets (update supply (issuer, strcpy name) n) ∧
      Issued d u r.after issuer (strcpy name) n contract i o p := by
  simp only [Universe.issueAsset, Option.bind_eq_bind, Option.bind_eq_some_iff] at hr
  generalize strcpy name = name' at hr ⊢
  obtain ⟨i, hfi, hr⟩ := hr
  obtain ⟨hi, _, hreach⟩ := findRecord_spec (homeSlot_lt d issuer) hfi
  split_ifs at hr with hz
  · right
    have habsent := h.linked.absent_of_findRecord hfi hz fun _ => clashes_of_assetKey
    have hzero := h.supply_absent _ habsent
    simp only [Option.bind_eq_some_iff, Option.pure_def, Option.some.injEq] at hr
    obtain ⟨o, hfo, p, hfp, rfl⟩ := hr
    have hbooks := h.createIssuance hi hz (e := .issuance issuer name' decimals unit) rfl
      hreach habsent
    have hkey : (update u.assets i
        (.issuance issuer name' decimals unit) i).assetKey =
          some (issuer, name') := by simp [assetKey]
    simp only [write_assets] at hfo hfp
    generalize ht : update u.assets i
      (.issuance issuer name' decimals unit) = t at hbooks hkey hfo hfp
    obtain ⟨ho, huo, _⟩ := findRecord_spec (mask_lt d _) hfo
    obtain ⟨hp, hup, _⟩ := findRecord_spec (mask_lt d _) hfp
    simp only [Bool.false_eq_true, or_false] at huo hup
    have hdep := hbooks.deposit hi hkey hn (by omega) ho issuer contract (Or.inl huo) hp issuer
      contract rfl rfl (Or.inl ?_) rfl
    · rw [hzero, zero_add, fill_addShares huo, ownership_addShares _ _ _ hn hlt,
        fill_addShares hup, possession_addShares _ _ _ hn hlt] at hdep
      refine ⟨i, o, p, rfl, rfl, hzero, ?_, ?_⟩
      · simpa [write_assets, ht] using hdep
      · have hio : i ≠ o := by
          rintro rfl
          rw [isEmpty_of_assetKey hkey] at huo
          cases huo
        have hip : i ≠ p := by
          rintro rfl
          rw [update_of_ne hio, isEmpty_of_assetKey hkey] at hup
          cases hup
        have hop : o ≠ p := by
          rintro rfl
          simp [isEmpty] at hup
        subst ht
        rw [update_of_ne hio.symm] at huo
        rw [update_of_ne hop.symm, update_of_ne hip.symm] at hup
        refine ⟨⟨hi, hz, ?_⟩, ⟨ho, huo, ?_⟩, ⟨hp, hup, ?_⟩, fun j hji hjo hjp => ?_⟩
        · simp [hio, hip, assetKey]
        · simp [hop]
        · simp
        · simp [hji, hjo, hjp]
    · rw [fill_addShares huo, ownership_addShares _ _ _ hn hlt]
      exact hup
  · left
    simpa using hr.symm

end QubicCore.Universe
