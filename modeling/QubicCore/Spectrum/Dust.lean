import QubicCore.Spectrum.Run

/-!
# What the anti-dust step burns and leaves

With all balances below `2^48` every balance has a counted category. The step then frees half of the
slots, burns no balance of a higher category than one it leaves, and logs every burn.
-/

namespace QubicCore.Spectrum

open Library.Probing Library.Cells Finset EntityRecord Spectrum

variable {d : Nat} {table : Nat → EntityRecord} {s : Spectrum} {b : DustBurn} {i j : Nat}
  {call : Call} {k12 : KangarooTwelve}

def Modest (d : Nat) (s : Spectrum) : Prop := ∀ i < 2 ^ d, (s.spectrum i).unsignedBalance < 2 ^ 48

instance (d : Nat) (s : Spectrum) : Decidable (Modest d s) :=
  inferInstanceAs (Decidable (∀ i < 2 ^ d, _))

structure Sound (d : Nat) (s : Spectrum) : Prop where
  table : TableInv d s.spectrum
  numberOfEntities : s.numberOfEntities = count (2 ^ d) (Occupied s.spectrum)

lemma balance_nonneg_of_unsigned {e : EntityRecord} (h : e.unsignedBalance < 2 ^ 48) :
    0 ≤ e.balance := by
  unfold unsignedBalance uint64 at h
  unfold balance sint64
  rw [Int.bmod_def]
  have := Int.emod_nonneg (e.incomingAmount - e.outgoingAmount)
    (show (2 ^ 64 : Int) ≠ 0 by norm_num)
  split_ifs <;> push_cast at * <;> omega

/-! ## The log of the burned balances -/

/-- The burn log of a table: balances up to category `j`, each of a slot, and every slot that was
emptied. -/
structure BurnLog (d : Nat) (table : Nat → EntityRecord) (j : Nat) (b : DustBurn) : Prop where
  step : BurnStep d table b
  logged : ∀ p ∈ b.burns, ∃ i < 2 ^ d, p = ((table i).publicKey, (table i).balance) ∧
    (table i).balance ≠ 0 ∧ (table i).balance.toNat.log2 ≤ j
  complete : ∀ i < 2 ^ d, (table i).balance ≠ 0 →
    b.table i = table i ∨ ((table i).publicKey, (table i).balance) ∈ b.burns

lemma BurnStep.intact (h : BurnStep d table b) (hi : i < 2 ^ d) (hne : (b.table i).balance ≠ 0) :
    b.table i = table i := by
  obtain he | he := h.slot i hi
  · exact he
  · rw [he, balance_settled] at hne
    exact absurd rfl hne

lemma BurnLog.start (h : TableInv d table) (j : Nat) : BurnLog d table j ⟨table, 0, []⟩ where
  step := ⟨h, fun _ _ => .inl rfl, by simp⟩
  logged := by simp
  complete := fun _ _ _ => .inl rfl

lemma BurnLog.burn {k : Nat} (h : BurnLog d table j b) (hk : k ≤ j + 1) (hi : i < 2 ^ d)
    (hdust : isDust (2 ^ k - 1) (b.table i)) :
    BurnLog d table j (b.burn i) := by
  have hnonneg := h.step.inv.balance_nonneg i hi
  obtain ⟨hle, hne⟩ := (isDust_iff hnonneg).1 hdust
  have hsame := h.step.intact hi hne
  rw [hsame] at hle hne hnonneg
  have hentry : (b.burn i).burns = b.burns ++ [((table i).publicKey, (table i).balance)] := by
    simp only [DustBurn.burn, hsame, unsignedBalance_eq hnonneg]
  refine ⟨h.step.burn hi, fun p hp => ?_, fun m hm hmne => ?_⟩
  · rw [hentry, List.mem_append, List.mem_singleton] at hp
    rcases hp with hp | rfl
    · exact h.logged p hp
    · have := (le_threshold_iff (by omega) k).1 hle
      exact ⟨i, hi, rfl, hne, by omega⟩
  · rw [hentry, List.mem_append]
    rcases eq_or_ne m i with rfl | hmi
    · exact .inr (Or.inr (List.mem_singleton_self _))
    · have hother : (b.burn i).table m = b.table m := by simp [DustBurn.burn, hmi]
      rw [hother]
      exact (h.complete m hm hmne).imp_right Or.inl

lemma BurnLog.afterBurnAll (h : TableInv d table) {k : Nat} (hk : k ≤ j + 1) :
    BurnLog d table j (afterBurnAll d (2 ^ k - 1) table) := by
  unfold Spectrum.afterBurnAll
  split_ifs
  · exact burnAll_ind _ (fun _ _ hi hdust hb => hb.burn hk hi hdust) (BurnLog.start h j)
  · exact BurnLog.start h j

lemma BurnLog.burnHalf (h : BurnLog d table j b) :
    BurnLog d table j (burnHalf d (2 ^ (j + 1) - 1) b) :=
  burnHalf_ind _ (fun _ _ hi hdust hb => hb.burn le_rfl hi hdust)
    (fun _ _ hb => ⟨⟨hb.step.inv, hb.step.slot, hb.step.total⟩, hb.logged, hb.complete⟩) h

/-- What is left after the first loop is above its threshold, and stays so. -/
lemma afterBurnAll_left (h : TableInv d table) (k : Nat) (hi : i < 2 ^ d)
    (hne : ((afterBurnAll d (2 ^ k - 1) table).table i).balance ≠ 0) :
    k ≤ (table i).balance.toNat.log2 := by
  have hnonneg := h.balance_nonneg i hi
  have hpow : (0 : Int) < 2 ^ k := by positivity
  rw [afterBurnAll_balance h _ hi] at hne
  split_ifs at hne with hle
  · exact absurd rfl hne
  · rw [le_threshold_iff (by omega)] at hle
    exact not_lt.1 hle

lemma burnHalf_left {threshold : Int} (hne : ((burnHalf d threshold b).table i).balance ≠ 0) :
    (b.table i).balance ≠ 0 := by
  revert hne
  refine burnHalf_ind (fun b' => (b'.table i).balance ≠ 0 → (b.table i).balance ≠ 0)
    (fun b' m _ _ ih hne => ih ?_) (fun _ _ ih => ih) id
  rcases eq_or_ne i m with rfl | him
  · simp [DustBurn.burn] at hne
  · simpa [DustBurn.burn, him] using hne

/-- Some category separates what is burned from what is left. -/
lemma burnDust_log (h : TableInv d table) :
    ∃ j, BurnLog d table j (burnDust d table) ∧ ∀ i < 2 ^ d,
      ((burnDust d table).table i).balance ≠ 0 → j ≤ (table i).balance.toNat.log2 := by
  rcases burnDust_cases h with ⟨he, -⟩ | ⟨j, he, -⟩ | ⟨j, he, -⟩ <;> rw [he]
  · exact ⟨0, BurnLog.start h 0, fun _ _ _ => Nat.zero_le _⟩
  · refine ⟨j, BurnLog.afterBurnAll h le_rfl, fun i hi hne => ?_⟩
    exact (Nat.le_succ j).trans (afterBurnAll_left h (j + 1) hi hne)
  · refine ⟨j, (BurnLog.afterBurnAll h (Nat.le_succ j)).burnHalf, fun i hi hne => ?_⟩
    exact afterBurnAll_left h j hi (burnHalf_left hne)

/-- Burning never takes the last balance. -/
lemma burnDust_survivor (hd : 2 ≤ d) (h : TableInv d table)
    (hex : ∃ i < 2 ^ d, (table i).balance ≠ 0) :
    ∃ i < 2 ^ d, ((burnDust d table).table i).balance ≠ 0 := by
  rcases burnDust_cases h with ⟨he, -⟩ | ⟨j, he, -, hpos⟩ | ⟨j, he, hzero, hhalf⟩ <;> rw [he]
  · exact hex
  · obtain ⟨i, hi, hne, hlow, -⟩ := exists_of_count_pos hpos
    have hnonneg := h.balance_nonneg i hi
    refine ⟨i, hi, ?_⟩
    rw [afterBurnAll_balance h _ hi, if_neg]
    · exact hne
    · rw [le_threshold_iff (by omega)]
      omega
  · -- every second balance of the highest category is left
    apply exists_of_count_pos
    have hinv := (afterBurnAll_step h (2 ^ j - 1)).inv
    rw [burnHalf_count d fun i hi hdust => ((isDust_iff (hinv.balance_nonneg i hi)).1 hdust).2]
    have hdust : count (2 ^ d) (FromCategory table j) ≤ count (2 ^ d) (fun i =>
        isDust (2 ^ (j + 1) - 1) ((afterBurnAll d (2 ^ j - 1) table).table i)) := by
      refine count_mono fun i hi hfrom => ?_
      obtain ⟨hne, hlow, htop⟩ := hfrom
      have hnonneg := h.balance_nonneg i hi
      rw [afterBurnAll_isDust h j hi, le_threshold_iff (by omega), le_threshold_iff (by omega)]
      refine ⟨not_lt.2 hlow, ?_⟩
      by_contra hhigh
      have hmem : i ∈ (range (2 ^ d)).filter (FromCategory table (j + 1)) :=
        mem_filter.2 ⟨mem_range.2 hi, hne, not_lt.1 hhigh, htop⟩
      rw [count, card_eq_zero] at hzero
      rw [hzero] at hmem
      exact absurd hmem (notMem_empty i)
    have hpow : 2 ^ 2 ≤ 2 ^ d := Nat.pow_le_pow_right (by norm_num) hd
    omega

lemma Modest.count_huge (h : Modest d s) (ht : TableInv d s.spectrum) :
    count (2 ^ d) (Huge s.spectrum) = 0 := by
  rw [count, card_eq_zero, filter_eq_empty_iff]
  intro i hi hhuge
  have hlt := h i (mem_range.1 hi)
  rw [unsignedBalance_eq (ht.balance_nonneg i (mem_range.1 hi))] at hlt
  unfold Huge at hhuge
  omega

/-- The anti-dust step in general: the table is rebuilt from what burning left. -/
lemma Sound.antiDust (h : Sound d s) (hm : Modest d s) (k12 : KangarooTwelve) :
    ∃ s', antiDust d k12 s = some s' ∧ Sound d s' ∧ s'.numberOfEntities ≤ 2 ^ d / 2 ∧
      Rebuilt d (2 ^ d) (burnDust d s.spectrum).table s'.spectrum ∧
      s'.totalAmount = uint64 (∑ i ∈ range (2 ^ d), ((burnDust d s.spectrum).table i).balance) ∧
      s'.dustBurns = s.dustBurns ++ (burnDust d s.spectrum).burns := by
  have hstep := burnDust_step h.table
  have hcount := burnDust_count h.table
  rw [hm.count_huge h.table, Nat.add_zero] at hcount
  obtain ⟨s', hs, hr, hn, ht, hb⟩ := reorganizeSpectrum_rebuilt k12
    (s := { s with
      spectrum := (burnDust d s.spectrum).table
      dustBurns := s.dustBurns ++ (burnDust d s.spectrum).burns }) hstep.inv
  have hleft := hr.count_eq hstep.inv
  exact ⟨s', hs, ⟨hr.tableInv hstep.inv, hn⟩, by omega, hr, ht, hb⟩

/-- What the anti-dust step does to a crowded table. -/
structure Cleared (d : Nat) (s s' : Spectrum) (burns : List (M256i × Int)) : Prop where
  half : count (2 ^ d) (Occupied s'.spectrum) ≤ 2 ^ d / 2
  numberOfEntities : s'.numberOfEntities = count (2 ^ d) (Occupied s'.spectrum)
  dustBurns : s'.dustBurns = s.dustBurns ++ burns
  /-- A remaining entity has the record it had. -/
  exact_record : ∀ i < 2 ^ d, (s'.spectrum i).publicKey ≠ 0 →
    (s'.spectrum i).balance ≠ 0 ∧ ∃ j < 2 ^ d, s.spectrum j = s'.spectrum i
  /-- A balance is either left or burned. -/
  accounted : ∀ j < 2 ^ d, (s.spectrum j).balance ≠ 0 →
    (∃ i < 2 ^ d, s'.spectrum i = s.spectrum j) ∨
      ((s.spectrum j).publicKey, (s.spectrum j).balance) ∈ burns
  burned : ∀ p ∈ burns, ∃ j < 2 ^ d, p = ((s.spectrum j).publicKey, (s.spectrum j).balance) ∧
    (s.spectrum j).balance ≠ 0
  category : ∀ p ∈ burns, ∀ i < 2 ^ d, (s'.spectrum i).publicKey ≠ 0 →
    p.2.toNat.log2 ≤ (s'.spectrum i).balance.toNat.log2
  totalAmount : s'.totalAmount + (burns.map Prod.snd).sum = s.totalAmount
  survivor : (∃ j < 2 ^ d, (s.spectrum j).balance ≠ 0) → ∃ i < 2 ^ d, (s'.spectrum i).balance ≠ 0

lemma Sound.cleared (hd : 2 ≤ d) (h : Sound d s) (hm : Modest d s) (k12 : KangarooTwelve)
    (htotal : s.totalAmount = ∑ i ∈ range (2 ^ d), (s.spectrum i).balance)
    (hrange : s.totalAmount < 2 ^ 64) :
    ∃ s', Spectrum.antiDust d k12 s = some s' ∧ Cleared d s s' (burnDust d s.spectrum).burns := by
  obtain ⟨s', hs, hsound, hhalf, hr, ht, hb⟩ := h.antiDust hm k12
  obtain ⟨j, hlog, hleft⟩ := burnDust_log h.table
  have hstep := hlog.step
  have hsource : ∀ i < 2 ^ d, (s'.spectrum i).publicKey ≠ 0 → ∃ m < 2 ^ d,
      s.spectrum m = s'.spectrum i ∧ ((burnDust d s.spectrum).table m).balance ≠ 0 := by
    intro i hi hne
    obtain ⟨m, hm, he, hbalance⟩ := hr.exists_source hi hne
    exact ⟨m, hm, (hstep.intact hm hbalance).symm.trans he, hbalance⟩
  have htarget : ∀ m < 2 ^ d, ((burnDust d s.spectrum).table m).balance ≠ 0 →
      ∃ i < 2 ^ d, s'.spectrum i = s.spectrum m := by
    intro m hm hbalance
    obtain ⟨i, hi, he⟩ := hr.exists_target hm hbalance (hstep.inv.occupied_of_balance hm hbalance)
    exact ⟨i, hi, he.trans (hstep.intact hm hbalance)⟩
  refine ⟨s', hs, ⟨hsound.numberOfEntities ▸ hhalf, hsound.numberOfEntities, hb, ?_, ?_, ?_, ?_,
    ?_, ?_⟩⟩
  · intro i hi hne
    obtain ⟨m, hm, he, hbalance⟩ := hsource i hi hne
    rw [hstep.intact hm hbalance, he] at hbalance
    exact ⟨hbalance, m, hm, he⟩
  · intro m hm hne
    refine (hlog.complete m hm hne).imp_left fun he => htarget m hm ?_
    rwa [he]
  · intro p hp
    obtain ⟨m, hm, he, hne, -⟩ := hlog.logged p hp
    exact ⟨m, hm, he, hne⟩
  · intro p hp i hi hne
    obtain ⟨m, hm, rfl, -, hle⟩ := hlog.logged p hp
    obtain ⟨n, hn, he, hbalance⟩ := hsource i hi hne
    exact hle.trans (he ▸ hleft n hn hbalance)
  · have hburned := hstep.burned_nonneg h.table
    have hsum := hstep.total
    have hnonneg : 0 ≤ ∑ i ∈ range (2 ^ d), ((burnDust d s.spectrum).table i).balance :=
      sum_nonneg fun i hi => hstep.inv.balance_nonneg i (mem_range.1 hi)
    rw [uint64_eq hnonneg (by omega)] at ht
    omega
  · intro hex
    obtain ⟨m, hm, hbalance⟩ := burnDust_survivor hd h.table hex
    obtain ⟨i, hi, he⟩ := htarget m hm hbalance
    rw [hstep.intact hm hbalance] at hbalance
    exact ⟨i, hi, he ▸ hbalance⟩

/-! ## Runs -/

/-- At most 75% of the slots are occupied. -/
structure Roomy (d : Nat) (s : Spectrum) : Prop extends Sound d s where
  room : s.numberOfEntities ≤ 2 ^ d / 2 + 2 ^ d / 4

lemma Roomy.empty (d : Nat) : Roomy d empty :=
  ⟨⟨(Inv.empty d).table, (Inv.empty d).numberOfEntities⟩, (Inv.empty d).room⟩

lemma Roomy.exists_free (h : Roomy d s) : ∃ f < 2 ^ d, ¬Occupied s.spectrum f := by
  apply exists_not_of_count_lt
  have := h.room
  have := h.numberOfEntities
  have := Nat.two_pow_pos d
  omega

lemma Roomy.spectrumIndex (h : Roomy d s) (key : M256i) :
    ∃ index, Spectrum.spectrumIndex d s key = some index := by
  rcases eq_or_ne key 0 with rfl | hkey
  · exact ⟨-1, by simp [Spectrum.spectrumIndex]⟩
  · obtain ⟨r, -, hp, -⟩ := h.table.probe_key h.exists_free hkey
    exact ⟨_, by simp [Spectrum.spectrumIndex, hkey, hp]; rfl⟩

lemma Roomy.makeRoom (hd : 2 ≤ d) (h : Roomy d s) (hm : Modest d s) (k12 : KangarooTwelve) :
    ∃ s₁, Spectrum.makeRoom d k12 s = some s₁ ∧ Sound d s₁ ∧
      s₁.numberOfEntities < 2 ^ d / 2 + 2 ^ d / 4 := by
  rw [Spectrum.makeRoom]
  split_ifs with hcrowd
  · obtain ⟨s₁, hs₁, hsound, hhalf, -⟩ := h.antiDust hm k12
    have hpow : 2 ^ 2 ≤ 2 ^ d := Nat.pow_le_pow_right (by norm_num) hd
    exact ⟨s₁, hs₁, hsound, by omega⟩
  · refine ⟨s, rfl, h.toSound, ?_⟩
    simpa [isCrowded] using hcrowd

/-- A credit ends, and keeps the table if the balance it leaves is in range. -/
lemma Roomy.increaseEnergy (hd : 2 ≤ d) (h : Roomy d s) (hm : Modest d s)
    (k12 : KangarooTwelve) (tick : Nat) (key : M256i) (amount : Int) :
    ∃ s', Spectrum.increaseEnergy d k12 tick s key amount = some s' ∧
      (Modest d s' → Roomy d s') := by
  rw [Spectrum.increaseEnergy]
  split_ifs with hvalid
  · have hkey : key ≠ 0 := by simpa using hvalid.1
    obtain ⟨s₁, hs₁, h₁, hroom⟩ := h.makeRoom hd hm k12
    have hfree := Roomy.exists_free ⟨h₁, hroom.le⟩
    obtain ⟨r, hr, hp, hfound⟩ := h₁.table.probe_key hfree hkey
    refine ⟨_, by simp [hs₁, hp]; rfl, fun hm' => ?_⟩
    split_ifs at hm' ⊢ with hkey'
    · have hbalance := balance_nonneg_of_unsigned (hm' r hr)
      simp only [credit, spectrumMarkDirty_spectrum, Function.update_self] at hbalance
      refine ⟨⟨?_, ?_⟩, ?_⟩
      · simp only [credit, spectrumMarkDirty_spectrum]
        exact h₁.table.update_amounts rfl hbalance fun hz => absurd (hkey'.symm.trans hz) hkey
      · simp only [credit, spectrumMarkDirty_spectrum, spectrumMarkDirty_numberOfEntities]
        rw [h₁.numberOfEntities]
        exact (count_occupied_same (by rfl)).symm
      · simpa [credit] using hroom.le
    · obtain ⟨hz, habsent, hreach⟩ := hfound.resolve_left hkey'
      have hbalance := balance_nonneg_of_unsigned (hm' r hr)
      simp only [create, spectrumMarkDirty_spectrum, Function.update_self] at hbalance
      refine ⟨⟨?_, ?_⟩, ?_⟩
      · simp only [create, spectrumMarkDirty_spectrum]
        exact h₁.table.insert hz hkey habsent hreach hbalance
      · simp only [create, spectrumMarkDirty_spectrum, spectrumMarkDirty_numberOfEntities]
        rw [h₁.numberOfEntities]
        exact (count_occupied_new hr hz hkey).symm
      · simpa [create] using hroom
  · exact ⟨s, rfl, fun _ => h⟩

lemma Roomy.decreaseEnergy (h : Roomy d s) (tick : Nat) {index : Nat} (hindex : index < 2 ^ d)
    (amount : Int) (hm : Modest d (Spectrum.decreaseEnergy tick s index amount).2) :
    Roomy d (Spectrum.decreaseEnergy tick s index amount).2 := by
  rw [Spectrum.decreaseEnergy] at hm ⊢
  split_ifs at hm ⊢ with hok
  · have hbalance := balance_nonneg_of_unsigned (hm index hindex)
    simp only [debit, spectrumMarkDirty_spectrum, Function.update_self] at hbalance
    refine ⟨⟨?_, ?_⟩, ?_⟩
    · simp only [debit, spectrumMarkDirty_spectrum]
      refine h.table.update_amounts rfl hbalance fun hz => ?_
      obtain ⟨hin, hout⟩ := h.table.free index hindex hz
      have hle : amount ≤ (s.spectrum index).balance := hok.2
      rw [balance_eq_zero (hin.trans hout.symm)] at hle
      obtain rfl : amount = 0 := le_antisymm hle hok.1
      exact ⟨hin, by simp [hout, sint64]⟩
    · simp only [debit, spectrumMarkDirty_spectrum, spectrumMarkDirty_numberOfEntities]
      rw [h.numberOfEntities]
      exact (count_occupied_same (by rfl)).symm
    · simpa [debit] using h.room
  · exact h

lemma Roomy.reorganize (h : Roomy d s) (k12 : KangarooTwelve) :
    ∃ s', reorganizeSpectrum d k12 s = some s' ∧ Roomy d s' := by
  obtain ⟨s', hs, hr, hn, -⟩ := reorganizeSpectrum_rebuilt k12 h.table
  have hle : count (2 ^ d) (fun i => (s.spectrum i).balance ≠ 0) ≤
      count (2 ^ d) (Occupied s.spectrum) :=
    count_mono fun i hi hne => h.table.occupied_of_balance hi hne
  rw [← hr.count_eq h.table, ← hn, ← h.numberOfEntities] at hle
  exact ⟨s', hs, ⟨hr.tableInv h.table, hn⟩, hle.trans h.room⟩

lemma Roomy.step (hd : 2 ≤ d) (h : Roomy d s) (hm : Modest d s) (k12 : KangarooTwelve)
    (hcall : call.InTable d) :
    ∃ s', step d k12 s call = some s' ∧ (Modest d s' → Roomy d s') := by
  cases call with
  | increaseEnergy tick key amount => exact h.increaseEnergy hd hm k12 tick key amount
  | decreaseEnergy tick index amount => exact ⟨_, rfl, h.decreaseEnergy tick hcall amount⟩
  | reorganizeSpectrum =>
    obtain ⟨s', hs, h'⟩ := h.reorganize k12
    exact ⟨s', hs, fun _ => h'⟩

def after (d : Nat) (k12 : KangarooTwelve) (s : Spectrum) (calls : List Call) : Option Spectrum :=
  calls.foldlM (step d k12) s

/-- Calls through which all balances stay below `2^48`. -/
def StaysModest (d : Nat) (k12 : KangarooTwelve) (s : Spectrum) (calls : List Call) : Prop :=
  ∀ first, first <+: calls → ∀ s', after d k12 s first = some s' → Modest d s'

lemma after_cons {s₁ : Spectrum} (hstep : step d k12 s call = some s₁)
    (calls : List Call) :
    after d k12 s (call :: calls) = after d k12 s₁ calls := by
  simp [after, hstep]

lemma staysModest_nil (hm : Modest d s) : StaysModest d k12 s [] := by
  rintro first hfirst s' hs'
  rw [List.prefix_nil.1 hfirst] at hs'
  cases hs'
  exact hm

lemma staysModest_cons {s₁ : Spectrum} {calls : List Call}
    (hstep : step d k12 s call = some s₁) :
    StaysModest d k12 s (call :: calls) ↔ Modest d s ∧ StaysModest d k12 s₁ calls := by
  constructor
  · intro h
    refine ⟨h [] List.nil_prefix s rfl, fun first hfirst s' hs' => ?_⟩
    exact h (call :: first) (List.cons_prefix_cons.2 ⟨rfl, hfirst⟩) s'
      ((after_cons hstep first).trans hs')
  · rintro ⟨hm, h⟩ first hfirst s' hs'
    rcases List.prefix_cons_iff.1 hfirst with rfl | ⟨rest, rfl, hrest⟩
    · cases hs'
      exact hm
    · exact h rest hrest s' ((after_cons hstep rest).symm.trans hs')

lemma Roomy.after (hd : 2 ≤ d) (k12 : KangarooTwelve) (calls : List Call) (h : Roomy d s)
    (hcalls : ∀ call ∈ calls, call.InTable d) (hmodest : StaysModest d k12 s calls) :
    ∃ s', after d k12 s calls = some s' ∧ Roomy d s' ∧ Modest d s' := by
  induction calls generalizing s with
  | nil => exact ⟨s, rfl, h, hmodest [] List.prefix_rfl s rfl⟩
  | cons call calls ih =>
    have hm := hmodest [] List.nil_prefix s rfl
    obtain ⟨s₁, hs₁, h₁⟩ := h.step hd hm k12 (hcalls call List.mem_cons_self)
    have hmodest₁ := ((staysModest_cons hs₁).1 hmodest).2
    rw [after_cons hs₁]
    exact ih (h₁ (hmodest₁ [] List.nil_prefix s₁ rfl))
      (fun c hc => hcalls c (List.mem_cons_of_mem call hc)) hmodest₁

/-- The anti-dust step clears a crowded table. Over any run that keeps the balances below `2^48`
the table therefore never fills up, and lookups and credits end. -/
theorem antiDust_clears (hd : 2 ≤ d) (k12 : KangarooTwelve) :
    (∀ s, Sound d s → Modest d s →
      s.totalAmount = ∑ i ∈ range (2 ^ d), (s.spectrum i).balance → s.totalAmount < 2 ^ 64 →
      isCrowded d s →
      ∃ s' burns, makeRoom d k12 s = some s' ∧ Cleared d s s' burns) ∧
    (∀ s calls, Roomy d s → (∀ call ∈ calls, Call.InTable d call) → StaysModest d k12 s calls →
      ∃ s', after d k12 s calls = some s' ∧
        count (2 ^ d) (Occupied s'.spectrum) ≤ 2 ^ d / 2 + 2 ^ d / 4 ∧
        (∀ key, ∃ index, spectrumIndex d s' key = some index) ∧
        ∀ tick key amount, ∃ s'', increaseEnergy d k12 tick s' key amount = some s'') := by
  constructor
  · intro s h hm htotal hrange hcrowd
    obtain ⟨s', hs, hcleared⟩ := h.cleared hd hm k12 htotal hrange
    exact ⟨s', _, by rw [makeRoom, if_pos hcrowd, hs], hcleared⟩
  · intro s calls h hcalls hmodest
    obtain ⟨s', hs, h', hm'⟩ := h.after hd k12 calls hcalls hmodest
    refine ⟨s', hs, h'.numberOfEntities ▸ h'.room, h'.spectrumIndex, fun tick key amount => ?_⟩
    obtain ⟨s'', hs'', -⟩ := h'.increaseEnergy hd hm' k12 tick key amount
    exact ⟨s'', hs''⟩

/-- Three entities with a balance of the same category, in a table of four slots. -/
def threeEntities : List Call :=
  [.increaseEnergy 1 ⟨1⟩ 4, .increaseEnergy 1 ⟨2⟩ 5, .increaseEnergy 1 ⟨3⟩ 6]

theorem antiDust_clears_threeEntities :
    ∃ s, after 2 zeroHash empty threeEntities = some s ∧ isCrowded 2 s ∧
      (∃ s' burns, makeRoom 2 zeroHash s = some s' ∧ Cleared 2 s s' burns) ∧
      ∀ key, ∃ index, spectrumIndex 2 s key = some index := by
  have hmodest : StaysModest 2 zeroHash empty threeEntities := by
    refine (staysModest_cons rfl).2 ⟨by decide, (staysModest_cons rfl).2 ⟨by decide,
      (staysModest_cons rfl).2 ⟨by decide, staysModest_nil (by decide)⟩⟩⟩
  have hcalls : ∀ call ∈ threeEntities, Call.InTable 2 call := by simp [threeEntities, Call.InTable]
  obtain ⟨s, hs, hroomy, hm⟩ := (Roomy.empty 2).after le_rfl zeroHash _ hcalls hmodest
  obtain ⟨hclears, hruns⟩ := antiDust_clears le_rfl zeroHash
  obtain ⟨s', hs', -, hlookup, -⟩ := hruns empty _ (Roomy.empty 2) hcalls hmodest
  obtain rfl : s = s' := Option.some.inj (hs.symm.trans hs')
  have hcrowd : isCrowded 2 s := by
    cases hs
    rfl
  refine ⟨s, hs, hcrowd, hclears s hroomy.toSound hm ?_ ?_ hcrowd, hlookup⟩
  · cases hs
    rfl
  · cases hs
    decide

end QubicCore.Spectrum
