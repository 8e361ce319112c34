import QubicCore.Spectrum.Invariant

/-!
# Lookup, credit and debit

One lemma for each operation on a state that meets `Inv`. `Deposit` and `Withdrawal` say what a
credit and a debit write; everything that is later summed over a run is read off them.
-/

namespace QubicCore.Spectrum

open Library.Probing Library.Cells Finset Function EntityRecord Spectrum

variable {d : Nat} {c : Int} {s : Spectrum} {key : M256i} {amount : Int}
  {table : Nat → EntityRecord} {r : Nat} {e : EntityRecord}

@[simp] lemma spectrumMarkDirty_spectrum (s : Spectrum) (i : Nat) :
    (spectrumMarkDirty s i).spectrum = s.spectrum := by
  unfold spectrumMarkDirty; split_ifs <;> rfl

@[simp] lemma spectrumMarkDirty_numberOfEntities (s : Spectrum) (i : Nat) :
    (spectrumMarkDirty s i).numberOfEntities = s.numberOfEntities := by
  unfold spectrumMarkDirty; split_ifs <;> rfl

@[simp] lemma spectrumMarkDirty_totalAmount (s : Spectrum) (i : Nat) :
    (spectrumMarkDirty s i).totalAmount = s.totalAmount := by
  unfold spectrumMarkDirty; split_ifs <;> rfl

@[simp] lemma spectrumMarkDirty_dustBurns (s : Spectrum) (i : Nat) :
    (spectrumMarkDirty s i).dustBurns = s.dustBurns := by
  unfold spectrumMarkDirty; split_ifs <;> rfl

/-! ## Lookup -/

/-- The stop test shared by `spectrumIndex` and `increaseEnergy`. -/
lemma stop_iff (table : Nat → EntityRecord) (hkey : key ≠ 0) (j : Nat) :
    ((table j).publicKey == key || isZero (table j).publicKey) ↔
      slotKey table j = some key ∨ ¬Occupied table j := by
  simp [slotKey_eq_some, Occupied, hkey]

lemma Inv.exists_free (h : Inv d c s) : ∃ f < 2 ^ d, ¬Occupied s.spectrum f := by
  apply exists_not_of_count_lt
  have := h.room
  have := h.numberOfEntities
  have := Nat.two_pow_pos d
  omega

/-- A key that sits in some slot. -/
def Present (d : Nat) (table : Nat → EntityRecord) (key : M256i) : Prop :=
  ∃ i < 2 ^ d, (table i).publicKey = key

/-- The walk for a key ends at its slot, or else at a free one. -/
lemma TableInv.probe_key (h : TableInv d table) (hfree : ∃ f < 2 ^ d, ¬Occupied table f)
    (hkey : key ≠ 0) :
    ∃ r < 2 ^ d, probe (2 ^ d) (fun i => (table i).publicKey == key ||
        isZero (table i).publicKey) (2 ^ d) (homeSlot d key) = some r ∧
      ((table r).publicKey = key ∨ ((table r).publicKey = 0 ∧ ¬Present d table key ∧
        Reach (2 ^ d) (Occupied table) (homeSlot d key) r)) := by
  have hhome := homeSlot_lt d key
  by_cases hp : Present d table key
  · obtain ⟨i, hi, hik⟩ := hp
    refine ⟨i, hi, ?_, .inl hik⟩
    exact h.chained.probe_live hhome hi (slotKey_eq_some.mpr ⟨hik, hkey⟩)
      fun j _ => stop_iff table hkey j
  · obtain ⟨f, hf, hfree⟩ := hfree
    obtain ⟨r, hr, hlt, hrfree, hreach⟩ := Chained.probe_absent hhome hf hfree
      (fun i hi hl => hp ⟨i, hi, (slotKey_eq_some.mp hl).1⟩)
      fun j _ => stop_iff table hkey j
    exact ⟨r, hlt, hr, .inr ⟨by simpa [Occupied] using hrfree, hp, hreach⟩⟩

lemma Inv.probe_key (h : Inv d c s) (hkey : key ≠ 0) :
    ∃ r < 2 ^ d, probe (2 ^ d) (fun i => (s.spectrum i).publicKey == key ||
        isZero (s.spectrum i).publicKey) (2 ^ d) (homeSlot d key) = some r ∧
      ((s.spectrum r).publicKey = key ∨ ((s.spectrum r).publicKey = 0 ∧ ¬Present d s.spectrum key ∧
        Reach (2 ^ d) (Occupied s.spectrum) (homeSlot d key) r)) :=
  h.table.probe_key h.exists_free hkey

lemma TableInv.slot_unique (h : TableInv d table) {i j : Nat} (hi : i < 2 ^ d) (hj : j < 2 ^ d)
    (hne : (table i).publicKey ≠ 0) (he : (table j).publicKey = (table i).publicKey) : i = j :=
  h.chained.unique hi hj (slotKey_eq_some.mpr ⟨rfl, hne⟩) (slotKey_eq_some.mpr ⟨he, hne⟩)

lemma Inv.spectrumIndex_of_slot (h : Inv d c s) {i : Nat} (hi : i < 2 ^ d)
    (hne : (s.spectrum i).publicKey ≠ 0) :
    spectrumIndex d s (s.spectrum i).publicKey = some (i : Int) := by
  obtain ⟨r, hr, hp, hfound | ⟨_, habsent, _⟩⟩ := h.probe_key hne
  · obtain rfl := h.table.slot_unique hi hr hne hfound
    simp [spectrumIndex, hne, hp]
  · exact absurd ⟨i, hi, rfl⟩ habsent

lemma Inv.spectrumIndex_absent (h : Inv d c s) (hkey : key ≠ 0)
    (habsent : ¬Present d s.spectrum key) : spectrumIndex d s key = some (-1) := by
  obtain ⟨r, hr, hp, hfound | ⟨hzero, _, _⟩⟩ := h.probe_key hkey
  · exact absurd ⟨r, hr, hfound⟩ habsent
  · simp [spectrumIndex, hkey, hp, hzero, hkey.symm]

lemma publicKey_of_spectrumIndex {i : Int} (h : spectrumIndex d s key = some i) (hi : 0 ≤ i) :
    (s.spectrum i.toNat).publicKey = key := by
  unfold spectrumIndex at h
  split_ifs at h
  · grind
  · obtain ⟨index, -, hindex⟩ := Option.bind_eq_some_iff.mp h
    split_ifs at hindex with hfound <;> grind

/-- Every lookup ends: with the slot of the key, or with -1 when it has none. -/
lemma Inv.spectrumIndex_cases (h : Inv d c s) (key : M256i) :
    (∃ i < 2 ^ d, (s.spectrum i).publicKey = key ∧ key ≠ 0 ∧
      spectrumIndex d s key = some (i : Int)) ∨
    ((key = 0 ∨ ¬Present d s.spectrum key) ∧ spectrumIndex d s key = some (-1)) := by
  by_cases hkey : key = 0
  · exact .inr ⟨.inl hkey, by simp [spectrumIndex, hkey]⟩
  · by_cases hp : Present d s.spectrum key
    · obtain ⟨i, hi, rfl⟩ := hp
      exact .inl ⟨i, hi, rfl, hkey, h.spectrumIndex_of_slot hi hkey⟩
    · exact .inr ⟨.inr hp, h.spectrumIndex_absent hkey hp⟩

/-! ## Credit -/

/-- What `increaseEnergy` writes once there is room: `amount` more in the slot `r` of `key`. -/
structure Deposit (d : Nat) (s s' : Spectrum) (key : M256i) (amount : Int) (r : Nat) : Prop where
  lt : r < 2 ^ d
  found : (s.spectrum r).publicKey = key ∨
    ((s.spectrum r).publicKey = 0 ∧ ¬Present d s.spectrum key)
  publicKey : (s'.spectrum r).publicKey = key
  incomingAmount : (s'.spectrum r).incomingAmount = sint64 ((s.spectrum r).incomingAmount + amount)
  outgoingAmount : (s'.spectrum r).outgoingAmount = (s.spectrum r).outgoingAmount
  balance : (s'.spectrum r).balance = (s.spectrum r).balance + amount
  other : ∀ i ≠ r, s'.spectrum i = s.spectrum i
  totalAmount : s'.totalAmount = s.totalAmount + amount
  dustBurns : s'.dustBurns = s.dustBurns

lemma Deposit.present_iff {s' : Spectrum} (h : Deposit d s s' key amount r) {k : M256i}
    (hk : k ≠ 0) : Present d s'.spectrum k ↔ k = key ∨ Present d s.spectrum k := by
  constructor
  · rintro ⟨i, hi, hik⟩
    by_cases hir : i = r
    · subst hir
      exact .inl (hik.symm.trans h.publicKey)
    · exact .inr ⟨i, hi, by rw [← h.other i hir]; exact hik⟩
  · rintro (rfl | ⟨i, hi, hik⟩)
    · exact ⟨r, h.lt, h.publicKey⟩
    · by_cases hir : i = r
      · subst hir
        obtain hf | ⟨hz, _⟩ := h.found
        · exact ⟨i, hi, by rw [h.publicKey, ← hf]; exact hik⟩
        · exact absurd (hik.symm.trans hz) hk
      · exact ⟨i, hi, by rw [h.other i hir]; exact hik⟩

lemma Inv.balance_le (h : Inv d c s) (hr : r < 2 ^ d) : (s.spectrum r).balance ≤ s.totalAmount := by
  rw [h.totalAmount]
  exact single_le_sum
    (fun i hi => h.table.balance_nonneg i (mem_range.mp hi)) (mem_range.mpr hr)

lemma Inv.sum_update_balance (h : Inv d c s) (hr : r < 2 ^ d) (e : EntityRecord)
    (he : e.balance = (s.spectrum r).balance + amount) :
    s.totalAmount + amount = ∑ i ∈ range (2 ^ d), (update s.spectrum r e i).balance := by
  have hs := sum_update hr s.spectrum e balance
  rw [← h.totalAmount, he] at hs
  omega

lemma count_occupied_same {n : Nat} (he : e.publicKey = (table r).publicKey) :
    count n (Occupied (update table r e)) = count n (Occupied table) :=
  count_update_same (p := fun e : EntityRecord => e.publicKey ≠ 0) (by rw [he])

lemma count_occupied_new {n : Nat} (hr : r < n) (hz : (table r).publicKey = 0)
    (he : e.publicKey ≠ 0) :
    count n (Occupied (update table r e)) = count n (Occupied table) + 1 :=
  count_update_new (p := fun e : EntityRecord => e.publicKey ≠ 0) hr (by simp [hz]) he

lemma Inv.credit (h : Inv d c s) (tick : Nat) (hr : r < 2 ^ d)
    (hne : (s.spectrum r).publicKey ≠ 0) (ha : 0 ≤ amount) (hc : c + amount < 2 ^ 63) :
    Inv d (c + amount) (Spectrum.credit tick s r amount) ∧
      Deposit d s (Spectrum.credit tick s r amount) (s.spectrum r).publicKey amount r := by
  have hb := h.table.balance_nonneg r hr
  have hle := h.balance_le hr
  have hsupply := h.supply
  have hpos := h.nonneg
  have htotal : uint64 (s.totalAmount + amount) = s.totalAmount + amount :=
    uint64_eq (by omega) (by omega)
  have hbalance : balance { s.spectrum r with
        incomingAmount := sint64 ((s.spectrum r).incomingAmount + amount)
        numberOfIncomingTransfers := ((s.spectrum r).numberOfIncomingTransfers + 1) % 2 ^ 32
        latestIncomingTransferTick := tick } = (s.spectrum r).balance + amount :=
    sint64_add_left (by change _ ≤ (s.spectrum r).balance + _; omega)
      (by change (s.spectrum r).balance + _ < _; omega)
  refine ⟨⟨?_, ?_, ?_, ?_, ?_⟩, ⟨hr, .inl rfl, ?_, ?_, ?_, ?_, ?_, ?_, ?_⟩⟩
  · simp only [Spectrum.credit, spectrumMarkDirty_spectrum]
    refine h.table.update_amounts rfl ?_ fun hz => absurd hz hne
    rw [hbalance]
    omega
  · simp only [Spectrum.credit, spectrumMarkDirty_spectrum, spectrumMarkDirty_numberOfEntities]
    rw [h.numberOfEntities]
    exact (count_occupied_same (by rfl)).symm
  · simpa [Spectrum.credit, htotal] using h.sum_update_balance hr _ hbalance
  · simpa [Spectrum.credit, htotal] using hsupply
  · simpa [Spectrum.credit] using h.room
  · simp [Spectrum.credit]
  · simp [Spectrum.credit]
  · simp [Spectrum.credit]
  · simpa [Spectrum.credit] using hbalance
  · intro i hir
    simp [Spectrum.credit, hir]
  · simp [Spectrum.credit, htotal]
  · simp [Spectrum.credit]

/-- A record with a new key, in the free slot where the walk for the key ended. -/
lemma TableInv.insert (h : TableInv d table) (hz : (table r).publicKey = 0)
    (hkey : e.publicKey ≠ 0) (habsent : ¬Present d table e.publicKey)
    (hreach : Reach (2 ^ d) (Occupied table) (homeSlot d e.publicKey) r) (hb : 0 ≤ e.balance) :
    TableInv d (update table r e) := by
  refine ⟨h.chained.insert hreach ?_ ?_ ?_ ?_ ?_, fun i hi => ?_, fun i hi => ?_⟩
  · exact fun i hi hl => habsent ⟨i, hi, (slotKey_eq_some.mp hl).1⟩
  · simp [slotKey, hkey]
  · intro i _ hir
    simp [slotKey, hir]
  · intro i _ ho
    have hir : i ≠ r := fun he => ho (he ▸ hz)
    simpa [Occupied, hir] using ho
  · simpa [Occupied] using hkey
  · rcases eq_or_ne i r with rfl | hir
    · simp [hkey]
    · simpa [hir] using h.free i hi
  · rcases eq_or_ne i r with rfl | hir
    · simpa using hb
    · simpa [hir] using h.balance_nonneg i hi

lemma Inv.create (h : Inv d c s) (tick : Nat) (hr : r < 2 ^ d) (hz : (s.spectrum r).publicKey = 0)
    (hkey : key ≠ 0) (habsent : ¬Present d s.spectrum key)
    (hreach : Reach (2 ^ d) (Occupied s.spectrum) (homeSlot d key) r)
    (hroom : s.numberOfEntities < 2 ^ d / 2 + 2 ^ d / 4) (ha : 0 ≤ amount)
    (hc : c + amount < 2 ^ 63) :
    Inv d (c + amount) (Spectrum.create tick s r key amount) ∧
      Deposit d s (Spectrum.create tick s r key amount) key amount r := by
  obtain ⟨hin, hout⟩ := h.table.free r hr hz
  have hsupply := h.supply
  have hpos := h.nonneg
  have htotal : uint64 (s.totalAmount + amount) = s.totalAmount + amount :=
    uint64_eq (by omega) (by omega)
  have hsint : sint64 amount = amount := sint64_eq (by omega) (by omega)
  have hbalance : balance { s.spectrum r with
        publicKey := key
        incomingAmount := amount
        numberOfIncomingTransfers := 1
        latestIncomingTransferTick := tick } = (s.spectrum r).balance + amount := by
    rw [balance_eq_zero (hin.trans hout.symm), zero_add]
    simpa [balance, hout] using hsint
  refine ⟨⟨?_, ?_, ?_, ?_, ?_⟩, ⟨hr, .inr ⟨hz, habsent⟩, ?_, ?_, ?_, ?_, ?_, ?_, ?_⟩⟩
  · simp only [Spectrum.create, spectrumMarkDirty_spectrum]
    refine h.table.insert hz hkey habsent hreach ?_
    have := h.table.balance_nonneg r hr
    rw [hbalance]
    omega
  · simp only [Spectrum.create, spectrumMarkDirty_spectrum, spectrumMarkDirty_numberOfEntities]
    rw [h.numberOfEntities]
    exact (count_occupied_new hr hz hkey).symm
  · simpa [Spectrum.create, htotal] using h.sum_update_balance hr _ hbalance
  · simpa [Spectrum.create, htotal] using hsupply
  · simpa [Spectrum.create] using hroom
  · simp [Spectrum.create]
  · simp [Spectrum.create, hin, hsint]
  · simp [Spectrum.create]
  · simpa [Spectrum.create] using hbalance
  · intro i hir
    simp [Spectrum.create, hir]
  · simp [Spectrum.create, htotal]
  · simp [Spectrum.create]

/-- How `makeRoom` leaves the table: as it was, or with the dust burned and the rest rebuilt. -/
lemma Inv.makeRoom (h : Inv d c s) (k12 : KangarooTwelve) (hc : Affordable d c) :
    ∃ s₁, Spectrum.makeRoom d k12 s = some s₁ ∧ Inv d c s₁ ∧
      s₁.numberOfEntities < 2 ^ d / 2 + 2 ^ d / 4 ∧
      ((isCrowded d s = false ∧ s₁ = s) ∨ (isCrowded d s ∧
        Rebuilt d (2 ^ d) (burnDust d s.spectrum).table s₁.spectrum ∧
        s₁.totalAmount + ((burnDust d s.spectrum).burns.map Prod.snd).sum = s.totalAmount ∧
        s₁.dustBurns = s.dustBurns ++ (burnDust d s.spectrum).burns)) := by
  cases hcrowd : isCrowded d s with
  | false =>
    refine ⟨s, by simp [Spectrum.makeRoom, hcrowd], h, ?_, .inl ⟨rfl, rfl⟩⟩
    simpa [isCrowded] using hcrowd
  | true =>
    obtain ⟨s₁, hs, hinv, hroom, hr, ht, hb⟩ := h.antiDust k12 hc
    exact ⟨s₁, by simp [Spectrum.makeRoom, hcrowd, hs], hinv, hroom, .inr ⟨rfl, hr, ht, hb⟩⟩

lemma Inv.deposit {s₁ : Spectrum} (h₁ : Inv d c s₁) {k12 : KangarooTwelve} (tick : Nat)
    (hs₁ : Spectrum.makeRoom d k12 s = some s₁)
    (hroom : s₁.numberOfEntities < 2 ^ d / 2 + 2 ^ d / 4) (hkey : key ≠ 0) (ha : 0 ≤ amount)
    (hc : c + amount < 2 ^ 63) :
    ∃ s' r, Spectrum.increaseEnergy d k12 tick s key amount = some s' ∧
      Inv d (c + amount) s' ∧ Deposit d s₁ s' key amount r := by
  obtain ⟨r, hr, hp, hfound | ⟨hz, habsent, hreach⟩⟩ := h₁.probe_key hkey
  · obtain ⟨hinv, hdep⟩ := h₁.credit tick hr (hfound ▸ hkey) ha hc
    refine ⟨_, r, ?_, hinv, hfound ▸ hdep⟩
    simp [Spectrum.increaseEnergy, hkey, ha, hs₁, hp, hfound]
  · obtain ⟨hinv, hdep⟩ := h₁.create tick hr hz hkey habsent hreach hroom ha hc
    refine ⟨_, r, ?_, hinv, hdep⟩
    simp [Spectrum.increaseEnergy, hkey, ha, hs₁, hp, hz, hkey.symm]

/-- A credit ends: room is made if needed, then one slot receives the amount. -/
lemma Inv.increaseEnergy (h : Inv d c s) (k12 : KangarooTwelve) (tick : Nat) (hkey : key ≠ 0)
    (ha : 0 ≤ amount) (hc : Affordable d (c + amount)) :
    ∃ s₁ s' r, Spectrum.makeRoom d k12 s = some s₁ ∧
      Spectrum.increaseEnergy d k12 tick s key amount = some s' ∧
      Inv d c s₁ ∧ Inv d (c + amount) s' ∧ Deposit d s₁ s' key amount r := by
  obtain ⟨s₁, hs₁, h₁, hroom, _⟩ := h.makeRoom k12 (hc.mono (by omega))
  obtain ⟨s', r, hs', hinv, hdep⟩ := h₁.deposit tick hs₁ hroom hkey ha hc.lt
  exact ⟨s₁, s', r, hs₁, hs', h₁, hinv, hdep⟩

/-! ## Debit -/

/-- What a successful `decreaseEnergy` writes. -/
structure Withdrawal (d : Nat) (s s' : Spectrum) (amount : Int) (r : Nat) : Prop where
  lt : r < 2 ^ d
  publicKey : (s'.spectrum r).publicKey = (s.spectrum r).publicKey
  incomingAmount : (s'.spectrum r).incomingAmount = (s.spectrum r).incomingAmount
  outgoingAmount : (s'.spectrum r).outgoingAmount = sint64 ((s.spectrum r).outgoingAmount + amount)
  balance : (s'.spectrum r).balance = (s.spectrum r).balance - amount
  other : ∀ i ≠ r, s'.spectrum i = s.spectrum i
  totalAmount : s'.totalAmount = s.totalAmount - amount
  dustBurns : s'.dustBurns = s.dustBurns

lemma Inv.debit (h : Inv d c s) (tick : Nat) (hc : c < 2 ^ 63) (hr : r < 2 ^ d) (ha : 0 ≤ amount)
    (hle : amount ≤ (s.spectrum r).balance) :
    Inv d c (Spectrum.debit tick s r amount) ∧
      Withdrawal d s (Spectrum.debit tick s r amount) amount r := by
  have hsum := h.balance_le hr
  have hsupply := h.supply
  have htotal : uint64 (s.totalAmount - amount) = s.totalAmount - amount :=
    uint64_eq (by omega) (by omega)
  have hbalance : balance { s.spectrum r with
        outgoingAmount := sint64 ((s.spectrum r).outgoingAmount + amount)
        numberOfOutgoingTransfers := ((s.spectrum r).numberOfOutgoingTransfers + 1) % 2 ^ 32
        latestOutgoingTransferTick := tick } = (s.spectrum r).balance - amount :=
    sint64_add_right (by change _ ≤ (s.spectrum r).balance - _; omega)
      (by change (s.spectrum r).balance - _ < _; omega)
  refine ⟨⟨?_, ?_, ?_, ?_, ?_⟩, ⟨hr, ?_, ?_, ?_, ?_, ?_, ?_, ?_⟩⟩
  · simp only [Spectrum.debit, spectrumMarkDirty_spectrum]
    refine h.table.update_amounts rfl (by rw [hbalance]; omega) fun hz => ?_
    obtain ⟨hin, hout⟩ := h.table.free r hr hz
    rw [balance_eq_zero (hin.trans hout.symm)] at hle
    obtain rfl : amount = 0 := by omega
    exact ⟨hin, by simp [hout, sint64]⟩
  · simp only [Spectrum.debit, spectrumMarkDirty_spectrum, spectrumMarkDirty_numberOfEntities]
    rw [h.numberOfEntities]
    exact (count_occupied_same (by rfl)).symm
  · have := h.sum_update_balance hr _ (hbalance.trans (sub_eq_add_neg _ _))
    simpa [Spectrum.debit, htotal] using (sub_eq_add_neg _ _).trans this
  · have : s.totalAmount - amount ≤ c := by omega
    simpa [Spectrum.debit, htotal] using this
  · simpa [Spectrum.debit] using h.room
  · simp [Spectrum.debit]
  · simp [Spectrum.debit]
  · simp [Spectrum.debit]
  · simpa [Spectrum.debit] using hbalance
  · intro i hir
    simp [Spectrum.debit, hir]
  · simp [Spectrum.debit, htotal]
  · simp [Spectrum.debit]

lemma decreaseEnergy_eq_true {tick : Nat} :
    (decreaseEnergy tick s r amount).1 ↔ 0 ≤ amount ∧ amount ≤ (s.spectrum r).balance := by
  unfold decreaseEnergy energy
  split_ifs with hok <;> simpa using hok

/-- A debit either moves nothing and reports false, or withdraws and reports true. -/
lemma Inv.decreaseEnergy (h : Inv d c s) (tick : Nat) (hc : c < 2 ^ 63) (hr : r < 2 ^ d)
    (amount : Int) :
    Inv d c (Spectrum.decreaseEnergy tick s r amount).2 ∧
      if 0 ≤ amount ∧ amount ≤ (s.spectrum r).balance then
        (Spectrum.decreaseEnergy tick s r amount).1 ∧
          Withdrawal d s (Spectrum.decreaseEnergy tick s r amount).2 amount r
      else Spectrum.decreaseEnergy tick s r amount = (false, s) := by
  unfold Spectrum.decreaseEnergy energy
  by_cases hok : 0 ≤ amount ∧ amount ≤ (s.spectrum r).balance
  · obtain ⟨hinv, hw⟩ := h.debit tick hc hr hok.1 hok.2
    simp [hok, hinv, hw]
  · simp [hok, h]

end QubicCore.Spectrum
