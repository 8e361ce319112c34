import QubicCore.Spectrum.AntiDust

/-!
# The invariant of the spectrum

`Inv d c s` joins the table invariant with the counters kept beside the table, `c` bounding the
supply. The amounts of a record may wrap, as long as its balance is right. The anti-dust step breaks
the counters while it burns; rebuilding the table recounts them.
-/

namespace QubicCore.Spectrum

open Library.Probing Library.Cells Finset

variable {d : Nat} {c : Int} {s : Spectrum} {table : Nat → EntityRecord}

structure Inv (d : Nat) (c : Int) (s : Spectrum) : Prop where
  table : TableInv d s.spectrum
  numberOfEntities : s.numberOfEntities = count (2 ^ d) (Occupied s.spectrum)
  totalAmount : s.totalAmount = ∑ i ∈ range (2 ^ d), (s.spectrum i).balance
  supply : s.totalAmount ≤ c
  room : s.numberOfEntities ≤ 2 ^ d / 2 + 2 ^ d / 4

/-- Credits that neither wrap a counter nor fill a quarter of the slots with huge balances. -/
structure Affordable (d : Nat) (c : Int) : Prop where
  lt : c < 2 ^ 63
  room : c < 2 ^ 48 * (2 ^ d / 4 : Nat)

lemma Affordable.mono {c' : Int} (h : Affordable d c') (hc : c ≤ c') :
    Affordable d c := ⟨hc.trans_lt h.lt, hc.trans_lt h.room⟩

/-- From depth 17 on every sum below `2^63` will do. -/
lemma affordable_of_depth (hd : 17 ≤ d) (hc : c < 2 ^ 63) :
    Affordable d c := by
  refine ⟨hc, hc.trans_le ?_⟩
  have hpow : 2 ^ 17 ≤ 2 ^ d := Nat.pow_le_pow_right (by norm_num) hd
  have hquarter : 2 ^ 15 ≤ 2 ^ d / 4 := by
    rw [Nat.le_div_iff_mul_le (by norm_num)]
    exact (by norm_num : 2 ^ 15 * 4 = 2 ^ 17).le.trans hpow
  omega

lemma Inv.nonneg (h : Inv d c s) : 0 ≤ s.totalAmount := by
  rw [h.totalAmount]
  exact sum_nonneg fun i hi => h.table.balance_nonneg i (mem_range.mp hi)

lemma Inv.mono {c' : Int} (h : Inv d c s) (hc : c ≤ c') :
    Inv d c' s := { h with supply := h.supply.trans hc }

lemma Inv.empty (d : Nat) : Inv d 0 empty where
  table := {
    chained := Chained.empty fun i _ => by simp [slotKey, Spectrum.empty, EntityRecord.zero]
    free := fun _ _ _ => ⟨rfl, rfl⟩
    balance_nonneg := fun _ _ => by simp [Spectrum.empty, EntityRecord.zero] }
  numberOfEntities := by
    rw [count_eq_sum]
    simp [Occupied, Spectrum.empty, EntityRecord.zero]
  totalAmount := by simp [Spectrum.empty, EntityRecord.zero]
  supply := le_refl _
  room := Nat.zero_le _

/-! ## Recounting -/

lemma uint64_add (x y : Int) : uint64 (uint64 x + y) = uint64 (x + y) :=
  Int.emod_add_emod x (2 ^ 64) y

lemma spectrumInfo_eq (h : TableInv d table) :
    spectrumInfo d table =
      (count (2 ^ d) (Occupied table), uint64 (∑ i ∈ range (2 ^ d), (table i).balance)) := by
  refine foldl_range (fun k (si : Nat × Int) =>
    si = (count k (Occupied table), uint64 (∑ i ∈ range k, (table i).balance)))
    (by simp [count, uint64]) ?_
  rintro k hk _ rfl
  rw [count_succ, sum_range_succ]
  by_cases hz : (table k).publicKey = 0
  · obtain ⟨hin, hout⟩ := h.free k hk hz
    simp [hz, EntityRecord.balance_eq_zero (hin.trans hout.symm), Occupied]
  · simp [Occupied, hz, uint64_add]

/-- Rebuilding loses no amount: only slots without a balance are dropped. -/
lemma Rebuilt.sum_balance {reorg : Nat → EntityRecord} (hr : Rebuilt d (2 ^ d) table reorg) :
    ∑ i ∈ range (2 ^ d), (reorg i).balance = ∑ i ∈ range (2 ^ d), (table i).balance := by
  rw [hr.sum EntityRecord.balance (by simp [EntityRecord.zero])]
  refine sum_congr rfl fun i hi => ?_
  unfold kept
  split_ifs with hz
  · rfl
  · exact (not_not.mp hz).symm

lemma Rebuilt.count_eq {reorg : Nat → EntityRecord} (h : TableInv d table)
    (hr : Rebuilt d (2 ^ d) table reorg) :
    count (2 ^ d) (Occupied reorg) = count (2 ^ d) (fun i => (table i).balance ≠ 0) := by
  have hsum := hr.sum (fun e => if e.publicKey ≠ 0 then 1 else 0) (by simp [EntityRecord.zero])
  rw [← count_occupied_eq_sum] at hsum
  zify
  rw [hsum, count_eq_sum]
  push_cast
  refine sum_congr rfl fun i hi => ?_
  have hocc := h.occupied_of_balance (mem_range.mp hi)
  unfold kept
  by_cases hz : (table i).balance = 0
  · simp [hz]
  · simp [hz, hocc hz]

/-- Reorganizing a sound table ends, moves every record with a balance and recounts. -/
lemma reorganizeSpectrum_rebuilt (k12 : KangarooTwelve) (h : TableInv d s.spectrum) :
    ∃ s', reorganizeSpectrum d k12 s = some s' ∧ Rebuilt d (2 ^ d) s.spectrum s'.spectrum ∧
      s'.numberOfEntities = count (2 ^ d) (Occupied s'.spectrum) ∧
      s'.totalAmount = uint64 (∑ i ∈ range (2 ^ d), (s.spectrum i).balance) ∧
      s'.dustBurns = s.dustBurns := by
  obtain ⟨reorg, hreorg, hr⟩ := reorgSpectrum_spec h
  have hinfo := spectrumInfo_eq (hr.tableInv h)
  rw [hr.sum_balance] at hinfo
  refine ⟨{ s with
    spectrum := reorg
    numberOfEntities := count (2 ^ d) (Occupied reorg)
    totalAmount := uint64 (∑ i ∈ range (2 ^ d), (s.spectrum i).balance)
    spectrumDigests := rebuildDigests d k12 reorg s.spectrumDigests
    spectrumDirtyOverflow := true
    spectrumDirtyCount := 0 }, ?_, hr, rfl, rfl, rfl⟩
  simp [reorganizeSpectrum, hreorg, updateSpectrumInfo, hinfo]

lemma reorganizeSpectrum_spec (k12 : KangarooTwelve) (h : TableInv d s.spectrum) (hc : c < 2 ^ 64)
    (htotal : ∑ i ∈ range (2 ^ d), (s.spectrum i).balance ≤ c)
    (hroom : count (2 ^ d) (fun i => (s.spectrum i).balance ≠ 0) ≤ 2 ^ d / 2 + 2 ^ d / 4) :
    ∃ s', reorganizeSpectrum d k12 s = some s' ∧ Inv d c s' ∧
      Rebuilt d (2 ^ d) s.spectrum s'.spectrum ∧
      s'.totalAmount = ∑ i ∈ range (2 ^ d), (s.spectrum i).balance ∧
      s'.numberOfEntities = count (2 ^ d) (fun i => (s.spectrum i).balance ≠ 0) ∧
      s'.dustBurns = s.dustBurns := by
  obtain ⟨s', hs, hr, hn, ht, hb⟩ := reorganizeSpectrum_rebuilt k12 h
  have hnonneg : 0 ≤ ∑ i ∈ range (2 ^ d), (s.spectrum i).balance :=
    sum_nonneg fun i hi => h.balance_nonneg i (mem_range.mp hi)
  rw [uint64_eq hnonneg (by omega)] at ht
  have hcount := hr.count_eq h
  refine ⟨s', hs, ⟨hr.tableInv h, hn, ?_, ?_, ?_⟩, hr, ht, hn.trans hcount, hb⟩
  · rw [ht, hr.sum_balance]
  · exact ht.le.trans htotal
  · exact (hn.trans hcount).le.trans hroom

lemma Inv.count_balance_le (h : Inv d c s) :
    count (2 ^ d) (fun i => (s.spectrum i).balance ≠ 0) ≤ s.numberOfEntities := by
  rw [h.numberOfEntities]
  exact count_mono fun i hi hne => h.table.occupied_of_balance hi hne

lemma Inv.reorganize (h : Inv d c s) (k12 : KangarooTwelve) (hc : c < 2 ^ 63) :
    ∃ s', reorganizeSpectrum d k12 s = some s' ∧ Inv d c s' ∧
      Rebuilt d (2 ^ d) s.spectrum s'.spectrum ∧ s'.totalAmount = s.totalAmount ∧
      s'.dustBurns = s.dustBurns := by
  obtain ⟨s', hs, hinv, hr, ht, _, hb⟩ := reorganizeSpectrum_spec k12 h.table (by omega)
    (h.totalAmount ▸ h.supply) (h.count_balance_le.trans h.room)
  exact ⟨s', hs, hinv, hr, ht.trans h.totalAmount.symm, hb⟩

/-! ## The anti-dust step -/

/-- Few balances reach `2^48`. -/
lemma Inv.count_huge_lt (h : Inv d c s) (hc : Affordable d c) :
    count (2 ^ d) (Huge s.spectrum) < 2 ^ d / 4 := by
  have hle : 2 ^ 48 * (count (2 ^ d) (Huge s.spectrum) : Int) ≤
      ∑ i ∈ range (2 ^ d), (s.spectrum i).balance := by
    rw [count_eq_sum]
    push_cast
    rw [mul_sum]
    refine sum_le_sum fun i hi => ?_
    have := h.table.balance_nonneg i (mem_range.mp hi)
    split_ifs with hh
    · simpa [Huge] using hh
    · simpa using this
  have hsupply := h.totalAmount ▸ h.supply
  have := hc.room
  omega

lemma BurnStep.burned_nonneg {b : DustBurn} (h : BurnStep d table b) (ht : TableInv d table) :
    0 ≤ (b.burns.map Prod.snd).sum := by
  have hle : ∑ i ∈ range (2 ^ d), (b.table i).balance ≤ ∑ i ∈ range (2 ^ d), (table i).balance := by
    refine sum_le_sum fun i hi => ?_
    have hpos := ht.balance_nonneg i (mem_range.mp hi)
    obtain he | he := h.slot i (mem_range.mp hi)
    · rw [he]
    · simpa [he] using hpos
  have := h.total
  omega

lemma Inv.antiDust (h : Inv d c s) (k12 : KangarooTwelve) (hc : Affordable d c) :
    ∃ s', antiDust d k12 s = some s' ∧ Inv d c s' ∧ s'.numberOfEntities < 2 ^ d / 2 + 2 ^ d / 4 ∧
      Rebuilt d (2 ^ d) (burnDust d s.spectrum).table s'.spectrum ∧
      s'.totalAmount + ((burnDust d s.spectrum).burns.map Prod.snd).sum = s.totalAmount ∧
      s'.dustBurns = s.dustBurns ++ (burnDust d s.spectrum).burns := by
  have hstep := burnDust_step h.table
  have hcount := burnDust_count h.table
  have hhuge := h.count_huge_lt hc
  have hpos := hstep.burned_nonneg h.table
  have htotal := hstep.total
  rw [← h.totalAmount] at htotal
  have hsupply := h.supply
  obtain ⟨s', hs, hinv, hr, ht, hn, hb⟩ := reorganizeSpectrum_spec k12
    (s := { s with
      spectrum := (burnDust d s.spectrum).table
      dustBurns := s.dustBurns ++ (burnDust d s.spectrum).burns })
    hstep.inv (hc.lt.trans (by norm_num)) (by dsimp only; omega) (by dsimp only; omega)
  dsimp only at ht hn
  exact ⟨s', hs, hinv, by omega, hr, by omega, hb⟩

end QubicCore.Spectrum
