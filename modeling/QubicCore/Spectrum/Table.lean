import QubicCore.Spectrum.Basic

/-!
# The spectrum table

`TableInv d table` is the invariant of the slots: keys are chained from their home slots and occur
once, free slots hold no amount, and no balance is negative. Burning and rebuilding keep it. A
rebuilt table has the same records as the old one, up to those whose balance is zero.
-/

namespace QubicCore

open Library.Probing Library.Cells Finset Function EntityRecord

lemma EntityRecord.unsignedBalance_eq {e : EntityRecord} (h : 0 ≤ e.balance) :
    e.unsignedBalance = e.balance := uint64_eq_sint64 h

lemma EntityRecord.balance_eq_zero {e : EntityRecord} (h : e.incomingAmount = e.outgoingAmount) :
    e.balance = 0 := by
  simp [balance, h, sint64]

@[simp] lemma EntityRecord.balance_settled (key : M256i) (amount : Int) (m n t u : Nat) :
    (mk key amount amount m n t u).balance = 0 :=
  balance_eq_zero rfl

namespace Spectrum

variable {table reorg : Nat → EntityRecord} {i d : Nat} {b : DustBurn} {k : Nat}

def slotKey (table : Nat → EntityRecord) (i : Nat) : Option M256i :=
  if (table i).publicKey = 0 then none else some (table i).publicKey

def Occupied (table : Nat → EntityRecord) (i : Nat) : Prop := (table i).publicKey ≠ 0

instance (table : Nat → EntityRecord) : DecidablePred (Occupied table) :=
  fun _ => inferInstanceAs (Decidable (_ ≠ _))

lemma slotKey_eq_some {key : M256i} :
    slotKey table i = some key ↔ (table i).publicKey = key ∧ key ≠ 0 := by
  unfold slotKey
  split_ifs with hz
  · simp only [false_iff]
    rintro ⟨rfl, hne⟩
    exact hne hz
  · simp only [Option.some.injEq]
    exact ⟨fun he => ⟨he, he ▸ hz⟩, fun he => he.1⟩

structure TableInv (d : Nat) (table : Nat → EntityRecord) : Prop where
  chained : Chained (2 ^ d) (homeSlot d) (slotKey table) (Occupied table)
  free : ∀ i < 2 ^ d, (table i).publicKey = 0 →
    (table i).incomingAmount = 0 ∧ (table i).outgoingAmount = 0
  balance_nonneg : ∀ i < 2 ^ d, 0 ≤ (table i).balance

lemma TableInv.occupied_of_balance (h : TableInv d table) (hi : i < 2 ^ d)
    (hne : (table i).balance ≠ 0) : (table i).publicKey ≠ 0 := by
  intro hz
  obtain ⟨hin, hout⟩ := h.free i hi hz
  exact hne (balance_eq_zero (hin.trans hout.symm))

/-- Rewriting the amounts of a slot in place keeps the chains. -/
lemma TableInv.update_amounts (h : TableInv d table) {e : EntityRecord}
    (hkey : e.publicKey = (table i).publicKey) (hb : 0 ≤ e.balance)
    (hfree : e.publicKey = 0 → e.incomingAmount = 0 ∧ e.outgoingAmount = 0) :
    TableInv d (update table i e) := by
  have hpk : ∀ j, (update table i e j).publicKey = (table j).publicKey := by
    intro j
    by_cases hj : j = i
    · subst hj; simp [hkey]
    · simp [hj]
  have hlive : slotKey (update table i e) = slotKey table := by
    funext j
    simp [slotKey, hpk j]
  have hocc : Occupied (update table i e) = Occupied table := by
    funext j
    simp [Occupied, hpk j]
  refine ⟨by rw [hlive, hocc]; exact h.chained, ?_, ?_⟩
  · intro j hj hz
    by_cases hji : j = i
    · subst hji
      simp only [update_self] at hz ⊢
      exact hfree hz
    · simp only [update_of_ne hji] at hz ⊢
      exact h.free j hj hz
  · intro j hj
    by_cases hji : j = i
    · subst hji; simpa using hb
    · simpa [hji] using h.balance_nonneg j hj

/-! ## Burning -/

/-- What burning may do to a table: set balances to zero, in place. -/
structure BurnStep (d : Nat) (table : Nat → EntityRecord) (b : DustBurn) : Prop where
  inv : TableInv d b.table
  slot : ∀ i < 2 ^ d, b.table i = table i ∨
    b.table i = { table i with outgoingAmount := (table i).incomingAmount }
  total : ∑ i ∈ range (2 ^ d), (b.table i).balance + (b.burns.map Prod.snd).sum =
    ∑ i ∈ range (2 ^ d), (table i).balance

lemma BurnStep.burn (h : BurnStep d table b) (hi : i < 2 ^ d) : BurnStep d table (b.burn i) := by
  have hb := h.inv.balance_nonneg i hi
  refine ⟨?_, ?_, ?_⟩
  · refine h.inv.update_amounts rfl (by simp) ?_
    intro hz
    exact ⟨(h.inv.free i hi hz).1, (h.inv.free i hi hz).1⟩
  · intro j hj
    by_cases hji : j = i
    · subst hji
      right
      rcases h.slot j hj with he | he <;> simp [DustBurn.burn, he]
    · simpa [DustBurn.burn, hji] using h.slot j hj
  · have hs := sum_update hi b.table
      { b.table i with outgoingAmount := (b.table i).incomingAmount } balance
    have ht := h.total
    simp only [DustBurn.burn, List.map_append, List.map_cons, List.map_nil, List.sum_append,
      List.sum_cons, List.sum_nil, unsignedBalance_eq hb]
    dsimp only at hs ⊢
    rw [balance_settled] at hs
    omega

/-- What every burn of dust keeps, the loops keep. -/
lemma burnAll_ind {threshold : Int} (R : DustBurn → Prop)
    (hburn : ∀ b i, i < 2 ^ d → isDust threshold (b.table i) → R b → R (b.burn i))
    (h : R b) : R (burnAll d threshold b) := by
  refine foldl_range (fun _ b => R b) h fun k hk b hb => ?_
  split_ifs with hdust
  · exact hburn b k hk hdust hb
  · exact hb

lemma burnHalf_ind {threshold : Int} (R : DustBurn → Prop)
    (hburn : ∀ b i, i < 2 ^ d → isDust threshold (b.table i) → R b → R (b.burn i))
    (hcount : ∀ b n, R b → R { b with countBurnCandidates := n }) (h : R b) :
    R (burnHalf d threshold b) := by
  refine foldl_range (fun _ b => R b) (hcount b 0 h) fun k hk b hb => ?_
  dsimp only
  split_ifs with hdust
  · exact hburn _ k hk hdust (hcount b _ hb)
  · exact hcount b _ hb
  · exact hb

lemma burnAll_step (threshold : Int) (h : BurnStep d table b) :
    BurnStep d table (burnAll d threshold b) :=
  burnAll_ind _ (fun _ _ hi _ hb => hb.burn hi) h

lemma burnHalf_step (threshold : Int) (h : BurnStep d table b) :
    BurnStep d table (burnHalf d threshold b) :=
  burnHalf_ind _ (fun _ _ hi _ hb => hb.burn hi) (fun _ _ hb => ⟨hb.inv, hb.slot, hb.total⟩) h

/-- Whatever the thresholds are, burning keeps the table and logs what it takes. -/
lemma burnDust_step (h : TableInv d table) : BurnStep d table (burnDust d table) := by
  have hstart : BurnStep d table ⟨table, 0, []⟩ := ⟨h, fun _ _ => .inl rfl, by simp⟩
  unfold burnDust
  dsimp only
  split_ifs
  · exact burnHalf_step _ (burnAll_step _ hstart)
  · exact burnHalf_step _ hstart
  · exact burnAll_step _ hstart
  · exact hstart

/-! ## Rebuilding -/

/-- The part of a sum that rebuilding keeps. -/
def kept (g : EntityRecord → Int) (e : EntityRecord) : Int := if e.balance ≠ 0 then g e else 0

/-- The new table after `k` slots of the old one. -/
structure Rebuilt (d k : Nat) (table reorg : Nat → EntityRecord) : Prop where
  chained : Chained (2 ^ d) (homeSlot d) (slotKey reorg) (Occupied reorg)
  free : ∀ i < 2 ^ d, (reorg i).publicKey = 0 → reorg i = zero
  sum : ∀ g : EntityRecord → Int, g zero = 0 →
    ∑ i ∈ range (2 ^ d), g (reorg i) = ∑ i ∈ range k, kept g (table i)

/-- Only records that were copied are in the new table. -/
lemma Rebuilt.exists_source (h : Rebuilt d k table reorg) (hi : i < 2 ^ d)
    (hne : (reorg i).publicKey ≠ 0) :
    ∃ j < k, table j = reorg i ∧ (table j).balance ≠ 0 := by
  by_contra hnone
  push Not at hnone
  have hz : zero ≠ reorg i := fun he => hne (by rw [← he]; rfl)
  have hsum := h.sum (fun e => if e = reorg i then 1 else 0) (if_neg hz)
  have hright : ∑ j ∈ range k, kept (fun e => if e = reorg i then 1 else 0) (table j) = 0 := by
    refine sum_eq_zero fun j hj => ?_
    by_cases he : table j = reorg i
    · simp [kept, hnone j (mem_range.mp hj) he]
    · simp [kept, he]
  have hleft := single_le_sum (f := fun j => if reorg j = reorg i then (1 : Int) else 0)
    (fun j _ => by split_ifs <;> simp) (mem_range.mpr hi)
  rw [hright] at hsum
  rw [hsum] at hleft
  simp at hleft

lemma Rebuilt.exists_target (h : Rebuilt d k table reorg) {j : Nat} (hj : j < k)
    (hb : (table j).balance ≠ 0) (hne : (table j).publicKey ≠ 0) :
    ∃ i < 2 ^ d, reorg i = table j := by
  by_contra hnone
  push Not at hnone
  have hz : zero ≠ table j := fun he => hne (by rw [← he]; rfl)
  have hsum := h.sum (fun e => if e = table j then 1 else 0) (if_neg hz)
  have hleft : ∑ i ∈ range (2 ^ d), (if reorg i = table j then (1 : Int) else 0) = 0 :=
    sum_eq_zero fun i hi => if_neg (hnone i (mem_range.mp hi))
  have hright := single_le_sum
    (f := fun i => kept (fun e => if e = table j then 1 else 0) (table i))
    (fun i _ => by dsimp only [kept]; split_ifs <;> simp) (mem_range.mpr hj)
  rw [hleft] at hsum
  rw [← hsum] at hright
  simp [kept, hb] at hright

lemma count_occupied_eq_sum (d : Nat) (table : Nat → EntityRecord) :
    (count (2 ^ d) (Occupied table) : Int) =
      ∑ i ∈ range (2 ^ d), if (table i).publicKey ≠ 0 then 1 else 0 := by
  rw [count_eq_sum]
  push_cast
  rfl

lemma Rebuilt.count_le (h : Rebuilt d k table reorg) : count (2 ^ d) (Occupied reorg) ≤ k := by
  have hsum := h.sum (fun e => if e.publicKey ≠ 0 then 1 else 0) (by simp [zero])
  rw [← count_occupied_eq_sum] at hsum
  have hle : ∑ i ∈ range k, kept (fun e => if e.publicKey ≠ 0 then 1 else 0) (table i) ≤
      ∑ _i ∈ range k, (1 : Int) :=
    sum_le_sum fun i _ => by
      dsimp only [kept]
      split_ifs <;> simp
  simp only [sum_const, card_range, nsmul_eq_mul, mul_one] at hle
  omega

/-- Inserting one record into the new table. -/
lemma Rebuilt.insert (h : Rebuilt d k table reorg) (hk : k < 2 ^ d) (hb : (table k).balance ≠ 0)
    (hne : (table k).publicKey ≠ 0) (hfresh : ∀ j < k, (table j).publicKey ≠ (table k).publicKey) :
    ∃ reorg', reorgInsert d reorg (table k) = some reorg' ∧ Rebuilt d (k + 1) table reorg' := by
  obtain ⟨f, hf, hfree⟩ := exists_not_of_count_lt (h.count_le.trans_lt hk)
  have hhome := homeSlot_lt d (table k).publicKey
  obtain ⟨r, hp⟩ := exists_probe (fun i => isZero (reorg i).publicKey) hhome hf
    (by simpa [Occupied] using hfree)
  have hr := probe_lt hhome hp
  have hrz : (reorg r).publicKey = 0 := by simpa using probe_stop hhome hp
  have hother : ∀ i ≠ r, update reorg r (table k) i = reorg i := fun i hi => update_of_ne hi _ _
  refine ⟨update reorg r (table k), by simp [reorgInsert, hp], ?_, ?_, ?_⟩
  · refine h.chained.insert
      (reach_of_probe hhome hp fun j _ hs => by simpa [Occupied] using hs) ?_ ?_ ?_ ?_ ?_
    · intro i hi hl
      obtain ⟨hkey, _⟩ := slotKey_eq_some.mp hl
      obtain ⟨j, hj, hje, _⟩ := h.exists_source hi (hkey ▸ hne)
      exact hfresh j hj (hje ▸ hkey)
    · simp [slotKey, hne]
    · intro i _ hir
      simp [slotKey, hir]
    · intro i _ ho
      have hir : i ≠ r := fun he => ho (he ▸ hrz)
      simpa [Occupied, hir] using ho
    · simpa [Occupied] using hne
  · intro i hi hz
    by_cases hir : i = r
    · subst hir
      exact absurd (by simpa using hz) hne
    · rw [hother i hir] at hz ⊢
      exact h.free i hi hz
  · intro g hg
    have hs := sum_update hr reorg (table k) g
    rw [h.free r hr hrz, hg, h.sum g hg] at hs
    rw [sum_range_succ, show kept g (table k) = g (table k) from if_pos hb]
    simpa using hs

/-- Rebuilding always ends, and the new table holds exactly the records with a balance. -/
lemma reorgSpectrum_spec (h : TableInv d table) :
    ∃ reorg, reorgSpectrum d table = some reorg ∧ Rebuilt d (2 ^ d) table reorg := by
  refine foldlM_range (fun k reorg => Rebuilt d k table reorg) ?_ ?_
  · refine ⟨Chained.empty fun i _ => by simp [slotKey, zero], fun _ _ _ => rfl, ?_⟩
    intro g hg
    simp [hg]
  · intro k hk reorg hr
    by_cases hb : (table k).balance = 0
    · refine ⟨reorg, by simp [hb], hr.chained, hr.free, fun g hg => ?_⟩
      rw [sum_range_succ, show kept g (table k) = 0 from if_neg (by simpa using hb), add_zero]
      exact hr.sum g hg
    · have hne := h.occupied_of_balance hk hb
      obtain ⟨reorg', hins, hr'⟩ := hr.insert hk hb hne fun j hj he =>
        hj.ne (h.chained.unique (hj.trans hk) hk (slotKey_eq_some.mpr ⟨he, hne⟩)
          (slotKey_eq_some.mpr ⟨rfl, hne⟩))
      exact ⟨reorg', by simp [hb, hins], hr'⟩

lemma Rebuilt.tableInv (h : TableInv d table) (hr : Rebuilt d (2 ^ d) table reorg) :
    TableInv d reorg where
  chained := hr.chained
  free i hi hz := by rw [hr.free i hi hz]; exact ⟨rfl, rfl⟩
  balance_nonneg i hi := by
    by_cases hz : (reorg i).publicKey = 0
    · rw [hr.free i hi hz, balance_eq_zero rfl]
    · obtain ⟨j, hj, he, _⟩ := hr.exists_source hi hz
      exact he ▸ h.balance_nonneg j hj

end Spectrum

end QubicCore
