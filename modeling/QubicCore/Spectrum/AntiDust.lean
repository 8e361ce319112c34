import QubicCore.Spectrum.Table

/-!
# How much the anti-dust step leaves

The thresholds are chosen from the populations of the balance categories, category `k` holding the
balances from `2^k` to `2^(k+1) - 1`. Either fewer than half of the slots hold a balance of a
counted category, or the categories above the threshold fill less than half of them, or one category
alone is the highest and every second balance of it is burned.
-/

namespace QubicCore.Spectrum

open Library.Cells Finset

variable {d k i : Nat} {table : Nat → EntityRecord}

def InCategory (table : Nat → EntityRecord) (k i : Nat) : Prop :=
  (table i).balance ≠ 0 ∧ (table i).balance.toNat.log2 = k

instance (table : Nat → EntityRecord) (k : Nat) : DecidablePred (InCategory table k) :=
  fun _ => inferInstanceAs (Decidable (_ ∧ _))

/-- Slot `i` holds a balance of a counted category from `k` on. -/
def FromCategory (table : Nat → EntityRecord) (k i : Nat) : Prop :=
  (table i).balance ≠ 0 ∧ k ≤ (table i).balance.toNat.log2 ∧
    (table i).balance.toNat.log2 < entityCategoryCount

instance (table : Nat → EntityRecord) (k : Nat) : DecidablePred (FromCategory table k) :=
  fun _ => inferInstanceAs (Decidable (_ ∧ _ ∧ _))

lemma category_eq {b : Nat} (h0 : b ≠ 0) (hb : b < 2 ^ 64) : 63 - lzcnt64 b = b.log2 := by
  have := (Nat.log2_lt h0).mpr hb
  simp only [lzcnt64, if_neg h0]
  omega

lemma entityCategoryPopulations_eq (h : TableInv d table) (k : Nat) :
    entityCategoryPopulations d table k = count (2 ^ d) (InCategory table k) := by
  refine foldl_range
    (fun n (populations : Nat → Nat) => ∀ k, populations k = count n (InCategory table k))
    (fun k => by simp [count]) (fun n hn populations hp k => ?_) k
  have hpos := h.balance_nonneg n hn
  rw [count_succ, ← hp k]
  simp only [EntityRecord.unsignedBalance_eq hpos, InCategory]
  by_cases hz : (table n).balance = 0
  · simp [hz]
  · have hlt : (table n).balance < 2 ^ 63 := sint64_lt _
    rw [category_eq (by omega) (by omega)]
    by_cases hk : (table n).balance.toNat.log2 = k
    · simp [hz, hk]
    · simp [hz, hk, Ne.symm hk]

lemma count_fromCategory_succ (d : Nat) (table : Nat → EntityRecord)
    (hk : k < entityCategoryCount) :
    count (2 ^ d) (FromCategory table k) =
      count (2 ^ d) (FromCategory table (k + 1)) + count (2 ^ d) (InCategory table k) := by
  refine count_add fun i _ => ?_
  unfold FromCategory InCategory
  omega

lemma count_fromCategory_top (d : Nat) (table : Nat → EntityRecord) :
    count (2 ^ d) (FromCategory table entityCategoryCount) = 0 := by
  rw [count, card_eq_zero, filter_eq_empty_iff]
  rintro i _ ⟨_, hge, hlt⟩
  omega

/-- The three ways the loop over the categories ends. -/
lemma analyzePopulations_cases (d : Nat) (populations above : Nat → Nat) (k : Nat)
    (hstep : ∀ j < k, above j = above (j + 1) + populations j)
    (hk : above k = 0 ∨ above k < 2 ^ d / 2) :
    (analyzePopulations d populations k (above k) = ⟨0, 0⟩ ∧ above 0 ≤ 2 ^ d / 2) ∨
    (∃ j < k, analyzePopulations d populations k (above k) = ⟨2 ^ (j + 1) - 1, 0⟩ ∧
      above (j + 1) < 2 ^ d / 2 ∧ 0 < above (j + 1)) ∨
    (∃ j < k, analyzePopulations d populations k (above k) = ⟨2 ^ j - 1, 2 ^ (j + 1) - 1⟩ ∧
      above (j + 1) = 0 ∧ 2 ^ d / 2 ≤ above j) := by
  induction k with
  | zero =>
    rcases hk with hk | hk
    · exact .inl ⟨rfl, by rw [hk]; exact Nat.zero_le _⟩
    · exact .inl ⟨rfl, hk.le⟩
  | succ k ih =>
    have hs := hstep k (by omega)
    simp only [analyzePopulations]
    rw [← hs]
    split_ifs with hhalf hall
    · exact .inr (.inr ⟨k, by omega, rfl, by omega, by omega⟩)
    · exact .inr (.inl ⟨k, by omega, rfl, by omega, by omega⟩)
    · rcases ih (fun j hj => hstep j (by omega)) (.inr (by omega)) with he | he | he
      · exact .inl he
      · obtain ⟨j, hj, hr⟩ := he
        exact .inr (.inl ⟨j, by omega, hr⟩)
      · obtain ⟨j, hj, hr⟩ := he
        exact .inr (.inr ⟨j, by omega, hr⟩)

/-- When only the lowest category makes the table half full, its balances of 1 are burned. -/
lemma analyzePopulations_lowest (d : Nat) (populations above : Nat → Nat) (hk : 0 < k)
    (hstep : ∀ j < k, above j = above (j + 1) + populations j) (hmono : Antitone above)
    (hone : above 1 < 2 ^ d / 2) (hne : above 1 ≠ 0) (hzero : 2 ^ d / 2 ≤ above 0) :
    analyzePopulations d populations k (above k) = ⟨1, 0⟩ := by
  induction k with
  | zero => omega
  | succ k ih =>
    have hs := hstep k (by omega)
    simp only [analyzePopulations]
    rw [← hs]
    obtain rfl | hpos := Nat.eq_zero_or_pos k
    · rw [Nat.zero_add] at hs
      rw [if_pos hzero, if_neg (by omega)]
      rfl
    · have : above k ≤ above 1 := hmono hpos
      rw [if_neg (by omega)]
      exact ih hpos fun j hj => hstep j (by omega)

/-- The first burning loop empties exactly the dust slots. -/
lemma burnAll_table (d : Nat) (threshold : Int) (b : DustBurn) (hi : i < 2 ^ d) :
    (burnAll d threshold b).table i =
      if isDust threshold (b.table i) then
        { b.table i with outgoingAmount := (b.table i).incomingAmount }
      else b.table i := by
  have hloop : ∀ j, (burnAll d threshold b).table j =
      if j < 2 ^ d ∧ isDust threshold (b.table j) then
        { b.table j with outgoingAmount := (b.table j).incomingAmount }
      else b.table j := by
    refine foldl_range (fun k (b' : DustBurn) => ∀ j, b'.table j =
      if j < k ∧ isDust threshold (b.table j) then
        { b.table j with outgoingAmount := (b.table j).incomingAmount }
      else b.table j) (by simp) fun k _ b' hb' j => ?_
    have hk : b'.table k = b.table k := by simpa using hb' k
    by_cases hjk : j = k
    · subst hjk
      by_cases hdust : isDust threshold (b.table j) <;> simp [hk, hdust, DustBurn.burn]
    · have hlt : j < k + 1 ↔ j < k := by omega
      by_cases hdust : isDust threshold (b'.table k) <;>
        simp [hdust, DustBurn.burn, hjk, hb' j, hlt]
  simpa [hi] using hloop i

/-- The second loop keeps half of the dust slots, rounded down. -/
lemma burnHalf_count (d : Nat) {threshold : Int} {b : DustBurn}
    (hdust : ∀ i < 2 ^ d, isDust threshold (b.table i) → (b.table i).balance ≠ 0) :
    count (2 ^ d) (fun i => ((burnHalf d threshold b).table i).balance ≠ 0) =
      count (2 ^ d) (fun i => (b.table i).balance ≠ 0 ∧ ¬isDust threshold (b.table i)) +
        count (2 ^ d) (fun i => isDust threshold (b.table i)) / 2 := by
  have hloop := foldl_range (n := 2 ^ d) (a := { b with countBurnCandidates := 0 })
    (f := fun b i => if isDust threshold (b.table i) then
      let b := { b with countBurnCandidates := b.countBurnCandidates + 1 }
      if b.countBurnCandidates % 2 = 1 then b.burn i else b
      else b)
    (fun k b' =>
      b'.countBurnCandidates = count k (fun i => isDust threshold (b.table i)) ∧
      (∀ i, k ≤ i → b'.table i = b.table i) ∧
      count k (fun i => (b'.table i).balance ≠ 0) =
        count k (fun i => (b.table i).balance ≠ 0 ∧ ¬isDust threshold (b.table i)) +
          b'.countBurnCandidates / 2)
    (by simp [count]) ?_
  · obtain ⟨hcount, _, hleft⟩ := hloop
    rw [← hcount]
    exact hleft
  · rintro k hk b' ⟨hcount, hrest, hleft⟩
    have hbk := hrest k le_rfl
    dsimp only
    by_cases hd : isDust threshold (b.table k)
    · have hne := hdust k hk hd
      rw [if_pos (by rw [hbk]; exact hd)]
      have hc' : b'.countBurnCandidates + 1 =
          count (k + 1) (fun i => isDust threshold (b.table i)) := by
        rw [count_succ, hcount]; simp [hd]
      split_ifs with hodd
      · refine ⟨hc', fun i hi => ?_, ?_⟩
        · rw [← hrest i (by omega)]
          exact Function.update_of_ne (by omega) _ _
        · have hsame : count k (fun i => ((DustBurn.burn { b' with
                countBurnCandidates := b'.countBurnCandidates + 1 } k).table i).balance ≠ 0) =
              count k (fun i => (b'.table i).balance ≠ 0) :=
            count_congr fun i hi => by simp [DustBurn.burn, hi.ne]
          rw [count_succ, count_succ, hsame, hleft]
          simp [DustBurn.burn, hd]
          omega
      · refine ⟨hc', fun i hi => hrest i (by omega), ?_⟩
        rw [count_succ, count_succ, hleft]
        simp only [hbk]
        simp [hne, hd]
        omega
    · rw [if_neg (by rw [hbk]; exact hd)]
      refine ⟨?_, fun i hi => hrest i (by omega), ?_⟩
      · rw [count_succ, hcount]; simp [hd]
      · rw [count_succ, count_succ, hleft]
        simp only [hbk]
        simp [hd]
        omega

/-- Balances from `2^48` on, which no category counts. -/
def Huge (table : Nat → EntityRecord) (i : Nat) : Prop := 2 ^ 48 ≤ (table i).balance

instance (table : Nat → EntityRecord) : DecidablePred (Huge table) :=
  fun _ => inferInstanceAs (Decidable (_ ≤ _))

lemma isDust_iff {threshold : Int} {e : EntityRecord} (h : 0 ≤ e.balance) :
    isDust threshold e ↔ e.balance ≤ threshold ∧ e.balance ≠ 0 := by
  simp [isDust, EntityRecord.unsignedBalance_eq h]

/-- A positive balance lies below the end of its category. -/
lemma le_threshold_iff {x : Int} (hx : 0 < x) (k : Nat) : x ≤ 2 ^ k - 1 ↔ x.toNat.log2 < k := by
  rw [Nat.log2_lt (by omega)]
  constructor
  · zify
    omega
  · intro h
    zify at h
    omega

/-- The balances that the first threshold leaves. -/
def afterBurnAll (d : Nat) (threshold : Int) (table : Nat → EntityRecord) : DustBurn :=
  if threshold > 0 then burnAll d threshold ⟨table, 0, []⟩ else ⟨table, 0, []⟩

section

variable (h : TableInv d table)
include h

lemma afterBurnAll_step (threshold : Int) : BurnStep d table (afterBurnAll d threshold table) := by
  have hstart : BurnStep d table ⟨table, 0, []⟩ := ⟨h, fun _ _ => .inl rfl, by simp⟩
  unfold afterBurnAll
  split_ifs
  · exact burnAll_step _ hstart
  · exact hstart

lemma afterBurnAll_balance (threshold : Int) (hi : i < 2 ^ d) :
    ((afterBurnAll d threshold table).table i).balance =
      if (table i).balance ≤ threshold then 0 else (table i).balance := by
  have hpos := h.balance_nonneg i hi
  unfold afterBurnAll
  split_ifs with ht hle hle
  · rw [burnAll_table d _ _ hi]
    split_ifs with hdust
    · simp
    · rw [isDust_iff (h.balance_nonneg i hi)] at hdust
      simpa [hle] using hdust
  · rw [burnAll_table d _ _ hi, if_neg]
    rw [isDust_iff (h.balance_nonneg i hi)]
    omega
  · exact le_antisymm (hle.trans (not_lt.mp ht)) hpos
  · rfl

omit h in
lemma fromCategory_or_huge (hpos : 0 < (table i).balance) (hk : ¬(table i).balance ≤ 2 ^ k - 1) :
    FromCategory table k i ∨ Huge table i := by
  rw [le_threshold_iff hpos] at hk
  by_cases hh : (table i).balance ≤ 2 ^ 48 - 1
  · exact .inl ⟨hpos.ne', not_lt.mp hk, (le_threshold_iff hpos 48).mp hh⟩
  · exact .inr (by unfold Huge; omega)

lemma count_above_le (k : Nat) (p : Nat → Prop) [DecidablePred p]
    (hp : ∀ i < 2 ^ d, p i → (table i).balance ≠ 0 ∧ ¬(table i).balance ≤ 2 ^ k - 1) :
    count (2 ^ d) p ≤ count (2 ^ d) (FromCategory table k) + count (2 ^ d) (Huge table) := by
  have hor : count (2 ^ d) p ≤
      count (2 ^ d) (fun i => FromCategory table k i ∨ Huge table i) := by
    refine count_mono fun i hi hpi => ?_
    have hpos := h.balance_nonneg i hi
    obtain ⟨hne, hk⟩ := hp i hi hpi
    exact fromCategory_or_huge (by omega) hk
  refine hor.trans ?_
  unfold count
  rw [filter_or]
  exact card_union_le _ _

/-- The three ways the dust is burned: not at all, all up to a category that is not the highest,
or all below the highest category and half of this one. -/
lemma burnDust_cases :
    (burnDust d table = ⟨table, 0, []⟩ ∧ count (2 ^ d) (FromCategory table 0) ≤ 2 ^ d / 2) ∨
    (∃ j, burnDust d table = afterBurnAll d (2 ^ (j + 1) - 1) table ∧
      count (2 ^ d) (FromCategory table (j + 1)) < 2 ^ d / 2 ∧
      0 < count (2 ^ d) (FromCategory table (j + 1))) ∨
    (∃ j, burnDust d table = burnHalf d (2 ^ (j + 1) - 1) (afterBurnAll d (2 ^ j - 1) table) ∧
      count (2 ^ d) (FromCategory table (j + 1)) = 0 ∧
      2 ^ d / 2 ≤ count (2 ^ d) (FromCategory table j)) := by
  have htop := count_fromCategory_top d table
  have hcases := analyzePopulations_cases d (entityCategoryPopulations d table)
    (fun k => count (2 ^ d) (FromCategory table k)) entityCategoryCount
    (fun j hj => by
      rw [entityCategoryPopulations_eq h]
      exact count_fromCategory_succ d table hj)
    (.inl htop)
  have hburn : burnDust d table =
      (if (updateAndAnalzeEntityCategoryPopulations d table).burnHalf > 0 then
        burnHalf d (updateAndAnalzeEntityCategoryPopulations d table).burnHalf
          (afterBurnAll d (updateAndAnalzeEntityCategoryPopulations d table).burnAll table)
      else afterBurnAll d (updateAndAnalzeEntityCategoryPopulations d table).burnAll table) := rfl
  rw [hburn, updateAndAnalzeEntityCategoryPopulations]
  rw [htop] at hcases
  rcases hcases with ⟨he, hle⟩ | ⟨j, hj, he, hfew⟩ | ⟨j, hj, he, hall⟩
  · exact .inl ⟨by rw [he]; rfl, hle⟩
  · exact .inr (.inl ⟨j, by rw [he, if_neg (by norm_num)], hfew⟩)
  · have hpow : (1 : Int) < 2 ^ (j + 1) := one_lt_pow₀ (by norm_num) (by omega)
    exact .inr (.inr ⟨j, by rw [he, if_pos (by dsimp only; omega)], hall⟩)

/-- The dust that the second loop meets, in terms of balances. -/
lemma afterBurnAll_isDust (j : Nat) (hi : i < 2 ^ d) :
    isDust (2 ^ (j + 1) - 1) ((afterBurnAll d (2 ^ j - 1) table).table i) ↔
      ¬(table i).balance ≤ 2 ^ j - 1 ∧ (table i).balance ≤ 2 ^ (j + 1) - 1 := by
  rw [isDust_iff ((afterBurnAll_step h _).inv.balance_nonneg i hi), afterBurnAll_balance h _ hi]
  split_ifs with hth
  · simp [hth]
  · omega

lemma burnDust_count :
    count (2 ^ d) (fun i => ((burnDust d table).table i).balance ≠ 0) ≤
      2 ^ d / 2 + count (2 ^ d) (Huge table) := by
  rcases burnDust_cases h with ⟨he, hle⟩ | ⟨j, he, hlt, -⟩ | ⟨j, he, hzero, -⟩ <;> rw [he]
  · -- No threshold: the counted categories together fill at most half of the slots.
    refine (count_above_le h 0 _ fun i hi hne => ?_).trans (Nat.add_le_add_right hle _)
    have := h.balance_nonneg i hi
    refine ⟨hne, ?_⟩
    simp only [pow_zero] at hne ⊢
    omega
  · -- The categories above `j` fill less than half of the slots.
    refine (count_above_le h (j + 1) _ fun i hi hne => ?_).trans
      (Nat.add_le_add_right hlt.le _)
    rw [afterBurnAll_balance h _ hi] at hne
    split_ifs at hne with hth
    · exact absurd rfl hne
    · exact ⟨hne, hth⟩
  · -- Category `j` is the highest: what is burned by halves are its balances.
    have hinv := (afterBurnAll_step h (2 ^ j - 1)).inv
    rw [burnHalf_count d fun i hi hdust => ((isDust_iff (hinv.balance_nonneg i hi)).1 hdust).2]
    have hrest := count_above_le h (j + 1)
      (fun i => ((afterBurnAll d (2 ^ j - 1) table).table i).balance ≠ 0 ∧
        ¬isDust (2 ^ (j + 1) - 1) ((afterBurnAll d (2 ^ j - 1) table).table i))
      (fun i hi ⟨hne, hnd⟩ => by
        rw [afterBurnAll_isDust h j hi] at hnd
        rw [afterBurnAll_balance h _ hi] at hne
        split_ifs at hne with hth
        · exact absurd rfl hne
        · exact ⟨hne, fun hle => hnd ⟨hth, hle⟩⟩)
    have hhalf := Nat.div_le_div_right (c := 2) (Library.Cells.count_le (2 ^ d)
      (fun i => isDust (2 ^ (j + 1) - 1) ((afterBurnAll d (2 ^ j - 1) table).table i)))
    omega

end

end QubicCore.Spectrum
