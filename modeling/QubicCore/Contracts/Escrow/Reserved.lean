import QubicCore.Contracts.Escrow.Basic

/-!
# The list of reserved shares

As long as the list has one entry for an owner and an asset, and no entry with the amount zero, the
three ways in which the contract changes it add to and subtract from a function of the owner and
the asset.
-/

namespace QubicCore.Contracts.Escrow

open Library List Keyed AssetWithAmount
open QubicCore.Qpi (Collection Entry)

variable {a : Asset} {c' : Collection AssetWithAmount} {xs : List AssetWithAmount}

/-- One entry for an owner and an asset, none with the amount zero. -/
structure Tidy (c : Collection AssetWithAmount) : Prop where
  keys_nodup : (c.map reservationKey).Nodup
  amounts_pos : ∀ e ∈ c, 0 < e.value.amount

def reserved (c : Collection AssetWithAmount) (owner : M256i) (a : Asset) : Nat :=
  total reservationKey (fun e => e.value.amount) (owner, a) c

def amountOf (xs : List AssetWithAmount) (a : Asset) : Nat := total asset amount a xs

variable {c : Collection AssetWithAmount} {owner : M256i} {x : AssetWithAmount}

lemma numberOfReservedShares_eq (h : Tidy c) (hlt : reserved c owner a < 2 ^ 63) :
    numberOfReservedShares c owner a = reserved c owner a := by
  have hfirst := first_eq_total (fun e => e.value.amount) h.keys_nodup (owner, a)
  change _ = reserved c owner a at hfirst
  unfold numberOfReservedShares
  split
  · rename_i e he
    rw [he] at hfirst
    change e.value.amount = _ at hfirst
    rw [hfirst, sint64_eq (by omega) (by omega)]
  · rename_i he
    rw [he] at hfirst
    exact_mod_cast hfirst

lemma reserved_pos (h : Tidy c) : 0 < reserved c owner a ↔ (owner, a) ∈ c.map reservationKey :=
  total_pos_iff h.amounts_pos

lemma reserved_cons {e : Entry AssetWithAmount} (hkey : reservationKey e = (owner, a))
    (rest : Collection AssetWithAmount) (o : M256i) (b : Asset) :
    reserved (e :: rest) o b =
      (if o = owner ∧ b = a then e.value.amount else 0) + reserved rest o b := by
  rw [reserved, total_cons, hkey]
  simp only [Prod.mk.injEq]
  rfl

lemma reserved_perm (h : c.Perm c') (o : M256i) (a : Asset) :
    reserved c o a = reserved c' o a := total_perm h

lemma amountOf_cons (x : AssetWithAmount) (xs : List AssetWithAmount) (a : Asset) :
    amountOf (x :: xs) a = (if a = x.asset then x.amount else 0) + amountOf xs a :=
  total_cons x xs

lemma amountOf_eq_zero (h : a ∉ xs.map asset) : amountOf xs a = 0 := total_eq_zero h

lemma amountOf_mem (h : (xs.map asset).Nodup) (hx : x ∈ xs) : amountOf xs x.asset = x.amount := by
  induction xs with
  | nil => cases hx
  | cons y ys ih =>
    rw [map_cons, nodup_cons] at h
    rw [amountOf_cons]
    obtain rfl | hmem := mem_cons.mp hx
    · rw [if_pos rfl, amountOf_eq_zero h.1, add_zero]
    · have hne : x.asset ≠ y.asset := fun heq => h.1 (heq ▸ mem_map_of_mem hmem)
      rw [if_neg hne, zero_add, ih h.2 hmem]

/-! ## Single entries -/

lemma alter_amount (h : Tidy c) (hmem : (owner, a) ∈ c.map reservationKey)
    (f : Entry AssetWithAmount → Option (Entry AssetWithAmount)) (n : Nat)
    (hf : ∀ e ∈ c, reservationKey e = (owner, a) → e.value.amount = reserved c owner a →
      f e = none ∧ n = 0 ∨ ∃ e', f e = some e' ∧ reservationKey e' = (owner, a) ∧
        e'.value.amount = n ∧ 0 < n) :
    Tidy (alter reservationKey (owner, a) f c) ∧
      ∀ o b, reserved (alter reservationKey (owner, a) f c) o b =
        if o = owner ∧ b = a then n else reserved c o b := by
  obtain ⟨e, he⟩ := exists_first hmem
  have hkey := key_of_first he
  obtain ⟨rest, hperm, halter⟩ := alter_perm he f
  have hnodup := (hperm.map reservationKey).nodup_iff.mp h.keys_nodup
  rw [map_cons, hkey, nodup_cons] at hnodup
  have hpos : ∀ y ∈ rest, 0 < y.value.amount := fun y hy =>
    h.amounts_pos y (hperm.mem_iff.mpr (mem_cons_of_mem e hy))
  have hold : ∀ o b, reserved c o b =
      (if o = owner ∧ b = a then e.value.amount else 0) + reserved rest o b := by
    intro o b
    rw [reserved_perm hperm, reserved_cons hkey]
  have hrest : reserved rest owner a = 0 := total_eq_zero hnodup.1
  have hamount : e.value.amount = reserved c owner a := by
    rw [hold, if_pos ⟨rfl, rfl⟩, hrest, add_zero]
  obtain ⟨hnone, hn⟩ | ⟨e', hsome, hkey', hn, hnpos⟩ := hf e (mem_of_first he) hkey hamount
  · rw [hnone] at halter
    change (alter reservationKey (owner, a) f c).Perm rest at halter
    refine ⟨⟨(halter.map _).nodup_iff.mpr hnodup.2, fun y hy => hpos y (halter.mem_iff.mp hy)⟩, ?_⟩
    intro o b
    rw [reserved_perm halter]
    split_ifs with hk
    · rw [hk.1, hk.2, hrest, hn]
    · rw [hold, if_neg hk, zero_add]
  · rw [hsome] at halter
    change (alter reservationKey (owner, a) f c).Perm (e' :: rest) at halter
    refine ⟨⟨(halter.map _).nodup_iff.mpr ?_, fun y hy => ?_⟩, fun o b => ?_⟩
    · rw [map_cons, hkey', nodup_cons]
      exact hnodup
    · obtain rfl | hmem := mem_cons.mp (halter.mem_iff.mp hy)
      · omega
      · exact hpos y hmem
    · rw [reserved_perm halter, reserved_cons hkey']
      split_ifs with hk
      · rw [hk.1, hk.2, hrest, hn, add_zero]
      · rw [hold, if_neg hk]

/-- What a change does to the reservations of one owner: an amount is added. -/
def Added (owner : M256i) (amount : Asset → Nat) (c c' : Collection AssetWithAmount) : Prop :=
  ∀ o a, reserved c' o a = reserved c o a + if o = owner then amount a else 0

lemma setAmount_amount (e : Entry AssetWithAmount) {n : Nat} (h : n < 2 ^ 64) :
    (setAmount e n).value.amount = n := by
  change (uint64 n).toNat = n
  rw [uint64_eq (by omega) (by omega), Int.toNat_natCast]

lemma reserve_spec (h : Tidy c) (hpos : 0 < x.amount)
    (hlt : reserved c owner x.asset + x.amount < 2 ^ 63)
    (hroom : (owner, x.asset) ∉ c.map reservationKey → c.length < ESCROW_MAX_RESERVED_ASSETS) :
    Tidy (reserve owner c x) ∧ Added owner (amountOf [x]) c (reserve owner c x) := by
  have hamount : ∀ a, amountOf [x] a = if a = x.asset then x.amount else 0 := fun a => by
    rw [amountOf_cons]
    rfl
  have hnumber : numberOfReservedShares c owner x.asset = reserved c owner x.asset :=
    numberOfReservedShares_eq h (by omega)
  by_cases hmem : (owner, x.asset) ∈ c.map reservationKey
  · have hres := (reserved_pos h).mpr hmem
    have hne : numberOfReservedShares c owner x.asset ≠ 0 := by omega
    rw [reserve, if_neg hne]
    obtain ⟨htidy, hnew⟩ := alter_amount h hmem
      (fun e => some (setAmount e (e.value.amount + x.amount)))
      (reserved c owner x.asset + x.amount) (fun e _ hkey he => .inr
        ⟨_, rfl, hkey, by rw [he]; exact setAmount_amount e (by omega), by omega⟩)
    refine ⟨htidy, fun o a => ?_⟩
    rw [hnew, hamount]
    by_cases ho : o = owner
    · by_cases ha : a = x.asset <;> simp [ho, ha]
    · simp [ho]
  · have hzero : reserved c owner x.asset = 0 := total_eq_zero hmem
    have hnone : numberOfReservedShares c owner x.asset = 0 := by omega
    rw [reserve, if_pos hnone]
    have hperm := Collection.add_perm (hroom hmem) owner x 0
    refine ⟨⟨(hperm.map _).nodup_iff.mpr (nodup_cons.mpr ⟨hmem, h.keys_nodup⟩), ?_⟩, ?_⟩
    · intro e he
      obtain rfl | hmem := mem_cons.mp (hperm.mem_iff.mp he)
      · exact hpos
      · exact h.amounts_pos e hmem
    · intro o a
      rw [reserved_perm hperm, reserved_cons rfl, hamount, add_comm]
      by_cases ho : o = owner <;> simp [ho]

lemma alter_taken (h : Tidy c) (hpos : 0 < x.amount) (hle : x.amount ≤ reserved c owner x.asset)
    (f : Entry AssetWithAmount → Option (Entry AssetWithAmount))
    (hf : ∀ e, e.value.amount = reserved c owner x.asset →
      f e = if reserved c owner x.asset = x.amount then none
        else some (setAmount e ((reserved c owner x.asset - x.amount : Nat) : Int)))
    (hlt : reserved c owner x.asset < 2 ^ 63) :
    Tidy (alter reservationKey (owner, x.asset) f c) ∧
      Added owner (amountOf [x]) (alter reservationKey (owner, x.asset) f c) c := by
  have hmem := (reserved_pos h).mp (hpos.trans_le hle)
  obtain ⟨htidy, hnew⟩ := alter_amount h hmem f (reserved c owner x.asset - x.amount)
    (fun e _ hkey he => by
      rw [hf e he]
      by_cases heq : reserved c owner x.asset = x.amount
      · exact .inl ⟨if_pos heq, by omega⟩
      · exact .inr ⟨_, if_neg heq, hkey, setAmount_amount e (by omega), by omega⟩)
  refine ⟨htidy, fun o a => ?_⟩
  rw [hnew, amountOf_cons]
  by_cases ho : o = owner
  · by_cases ha : a = x.asset
    · simp [ho, ha, amountOf, total, Nat.sub_add_cancel hle]
    · simp [ho, ha, amountOf, total]
  · simp [ho]

lemma releaseFrom_of_not_mem {left : Int} (h : (owner, x.asset) ∉ c.map reservationKey) :
    releaseFrom owner x left c = c := by
  induction c with
  | nil => rfl
  | cons e es ih =>
    rw [map_cons, mem_cons, not_or] at h
    rw [releaseFrom, if_neg (Ne.symm h.1), ih h.2]

/-- With one entry for a key, the loop that goes on changes no other entry. -/
lemma releaseFrom_eq_alter {left : Int} (h : (c.map reservationKey).Nodup) :
    releaseFrom owner x left c = alter reservationKey (owner, x.asset)
      (fun e => if left = 0 then none else some (setAmount e (e.value.amount - x.amount))) c := by
  induction c with
  | nil => rfl
  | cons e es ih =>
    rw [map_cons, nodup_cons] at h
    by_cases hkey : reservationKey e = (owner, x.asset)
    · rw [releaseFrom, if_pos hkey, alter, if_pos hkey]
      split_ifs
      · rfl
      · rw [releaseFrom_of_not_mem (hkey ▸ h.1)]
        rfl
    · rw [releaseFrom, if_neg hkey, alter, if_neg hkey, ih h.2]

lemma release_spec (h : Tidy c) (hpos : 0 < x.amount) (hle : x.amount ≤ reserved c owner x.asset)
    (hlt : reserved c owner x.asset < 2 ^ 63) :
    Tidy (release owner c x) ∧ Added owner (amountOf [x]) (release owner c x) c := by
  rw [release, releaseFrom_eq_alter h.keys_nodup]
  refine alter_taken h hpos hle _ (fun e he => ?_) hlt
  have hleft : uint64 (numberOfReservedShares c owner x.asset - x.amount) =
      ((reserved c owner x.asset - x.amount : Nat) : Int) := by
    rw [numberOfReservedShares_eq h hlt, uint64_eq (by omega) (by omega)]
    omega
  rw [hleft, he]
  by_cases heq : reserved c owner x.asset = x.amount
  · rw [if_pos heq, if_pos (by omega)]
  · rw [if_neg heq, if_neg (by omega), Nat.cast_sub hle]

lemma settle_spec (h : Tidy c) (hpos : 0 < x.amount) (hle : x.amount ≤ reserved c owner x.asset)
    (hlt : reserved c owner x.asset < 2 ^ 63) {shares fee : Int} (hsum : shares + fee = x.amount) :
    Tidy (settle owner x shares fee c) ∧ Added owner (amountOf [x]) (settle owner x shares fee c) c
    := by
  refine alter_taken h hpos hle _ (fun e he => ?_) hlt
  have hleft : sint64 (numberOfReservedShares c owner x.asset - shares - fee) =
      ((reserved c owner x.asset - x.amount : Nat) : Int) := by
    rw [numberOfReservedShares_eq h hlt, sint64_eq (by omega) (by omega)]
    omega
  rw [hleft, he]
  by_cases heq : reserved c owner x.asset = x.amount
  · rw [if_pos heq, if_pos (by omega)]
  · have hamount : ((reserved c owner x.asset : Nat) : Int) - shares - fee =
        ((reserved c owner x.asset - x.amount : Nat) : Int) := by omega
    rw [if_neg heq, if_neg (by omega), hamount]

/-! ## All assets of a deal -/

lemma amountOf_cons_eq (x : AssetWithAmount) (xs : List AssetWithAmount) :
    amountOf (x :: xs) = amountOf [x] + amountOf xs := by
  funext a
  rw [Pi.add_apply, amountOf_cons, amountOf_cons]
  rfl

lemma Added.refl (c : Collection AssetWithAmount) : Added owner (amountOf []) c c := by
  intro o a
  rw [show amountOf [] a = 0 from rfl, ite_self, add_zero]

lemma Added.trans {c'' : Collection AssetWithAmount} {m n : Asset → Nat} (h : Added owner m c c')
    (h' : Added owner n c' c'') : Added owner (m + n) c c'' := by
  intro o a
  rw [h' o a, h o a]
  split_ifs
  · rw [Pi.add_apply, add_assoc]
  · rfl

lemma Added.self {m : Asset → Nat} (h : Added owner m c c') (a : Asset) :
    reserved c' owner a = reserved c owner a + m a := by
  rw [h owner a, if_pos rfl]

lemma Tidy.length_lt (h : Tidy c) {pairs : List (M256i × Asset)}
    (hpairs : ∀ o a, 0 < reserved c o a → (o, a) ∈ pairs) {k : M256i × Asset}
    (hk : k ∉ c.map reservationKey) (hmem : k ∈ pairs) : c.length < pairs.length := by
  have hsub : k :: c.map reservationKey ⊆ pairs := by
    intro p hp
    obtain rfl | hp := mem_cons.mp hp
    · exact hmem
    · exact hpairs p.1 p.2 ((reserved_pos h).mpr hp)
  have hle := (subperm_of_subset (nodup_cons.mpr ⟨hk, h.keys_nodup⟩) hsub).length_le
  simpa using hle

variable (owner) in
lemma reserveAll_spec {pairs : List (M256i × Asset)}
    (hlength : pairs.length ≤ ESCROW_MAX_RESERVED_ASSETS) (h : Tidy c)
    (hpos : ∀ x ∈ xs, 0 < x.amount) (hlt : ∀ a, reserved c owner a + amountOf xs a < 2 ^ 63)
    (hpairs : ∀ o a, 0 < reserved c o a → (o, a) ∈ pairs)
    (hnew : ∀ x ∈ xs, (owner, x.asset) ∈ pairs) :
    Tidy (xs.foldl (reserve owner) c) ∧ Added owner (amountOf xs) c (xs.foldl (reserve owner) c)
    := by
  induction xs generalizing c with
  | nil => exact ⟨h, .refl c⟩
  | cons x xs ih =>
    have hfirst : reserved c owner x.asset + x.amount < 2 ^ 63 := by
      have := hlt x.asset
      rw [amountOf_cons, if_pos rfl] at this
      omega
    obtain ⟨htidy, hadd⟩ := reserve_spec h (hpos x mem_cons_self) hfirst
      fun hk => (h.length_lt hpairs hk (hnew x mem_cons_self)).trans_le hlength
    obtain ⟨htidy', hadd'⟩ := ih htidy (fun y hy => hpos y (mem_cons_of_mem x hy)) (fun a => by
        have := hlt a
        rw [amountOf_cons_eq, Pi.add_apply] at this
        rw [hadd.self]
        omega)
      (fun o a hres => by
        rw [hadd o a] at hres
        by_cases hold : 0 < reserved c o a
        · exact hpairs o a hold
        · split_ifs at hres with ho
          · by_cases ha : a = x.asset
            · rw [ho, ha]
              exact hnew x mem_cons_self
            · rw [amountOf_eq_zero (by simpa using ha)] at hres
              omega
          · omega)
      (fun y hy => hnew y (mem_cons_of_mem x hy))
    refine ⟨htidy', ?_⟩
    rw [amountOf_cons_eq]
    exact hadd.trans hadd'

/-- The amounts that remain to be taken are reserved after the first one was taken. -/
lemma Added.amountOf_le (h : Added owner (amountOf [x]) c' c)
    (hle : amountOf (x :: xs) a ≤ reserved c owner a) : amountOf xs a ≤ reserved c' owner a := by
  rw [amountOf_cons_eq, Pi.add_apply, h.self] at hle
  omega

lemma amountOf_head_le (hle : ∀ a, amountOf (x :: xs) a ≤ reserved c owner a) :
    x.amount ≤ reserved c owner x.asset := by
  have := hle x.asset
  rw [amountOf_cons, if_pos rfl] at this
  omega

variable (owner) in
lemma releaseAll_spec (h : Tidy c) (hpos : ∀ x ∈ xs, 0 < x.amount)
    (hle : ∀ a, amountOf xs a ≤ reserved c owner a) (hlt : ∀ a, reserved c owner a < 2 ^ 63) :
    Tidy (xs.foldl (release owner) c) ∧ Added owner (amountOf xs) (xs.foldl (release owner) c) c
    := by
  induction xs generalizing c with
  | nil => exact ⟨h, .refl c⟩
  | cons x xs ih =>
    obtain ⟨htidy, hadd⟩ :=
      release_spec h (hpos x mem_cons_self) (amountOf_head_le hle) (hlt x.asset)
    obtain ⟨htidy', hadd'⟩ := ih htidy (fun y hy => hpos y (mem_cons_of_mem x hy))
      (fun a => hadd.amountOf_le (hle a))
      (fun a => by
        have := hlt a
        rw [hadd.self] at this
        omega)
    refine ⟨htidy', ?_⟩
    rw [amountOf_cons_eq, add_comm]
    exact hadd'.trans hadd

end QubicCore.Contracts.Escrow
