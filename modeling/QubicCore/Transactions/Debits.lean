import QubicCore.Spectrum.Similar
import QubicCore.Transactions.Basic

/-!
# Whom a transaction debits

The slot of the source is looked up once, before the destination is credited. Crediting can
reorganize the spectrum, and an IPO bid is then taken from whatever entity has moved into the old
slot.
-/

namespace QubicCore.Node

open Library Library.Probing Spectrum Finset EntityRecord Traced Option

variable {env : Env} {n : Node} {tx : Transaction} {p : Purpose} {i d tag : Nat} {amount a c : Int}
  {k : M256i} {s : Spectrum}

/-- Only the source is debited; a refund is taken back from the called contract. -/
def DebitsSigned (tx : Transaction) (events : List Entry) : Prop :=
  ∀ purpose publicKey amount, Entry.debit purpose publicKey amount ∈ events → publicKey =
    if purpose = .contractRefund then tx.destinationPublicKey else tx.sourcePublicKey

structure IsIpoBid (env : Env) (tx : Transaction) : Prop where
  source : isRejectedSource env tx.sourcePublicKey = false
  destination_ne : tx.destinationPublicKey ≠ 0
  destination : isPublicKeyOfContract env tx.destinationPublicKey
  epoch : env.epoch + 1 =
    (env.contractDescriptions (contractIndexOf tx.destinationPublicKey)).constructionEpoch
  amount : tx.amount = 0
  inputSize : tx.inputSize = sizeofContractIPOBid
  valid : isValidBid tx.bidPrice tx.bidQuantity

/-- Burning the dust of the table and rebuilding it puts an entity other than `publicKey`, with a
balance of at least `amount`, into the slot `i`. -/
def Displaced (d : Nat) (table : Nat → EntityRecord) (i : Nat) (publicKey : M256i)
    (amount : Int) : Prop :=
  ∃ reorg, reorgSpectrum d (burnDust d table).table = some reorg ∧
    (reorg i).publicKey ≠ publicKey ∧ amount ≤ (reorg i).balance

/-! ## Debits in the traces -/

@[simp] lemma decreaseEnergy_result (purpose : Purpose) (i : Nat) (amount : Int) :
    (n.decreaseEnergy env purpose i amount).result =
      some ((n.spectrum.decreaseEnergy env.tick i amount).1,
        { n with spectrum := (n.spectrum.decreaseEnergy env.tick i amount).2 }) := rfl

lemma mem_decreaseEnergy {purpose : Purpose} :
    Entry.debit p k a ∈ (n.decreaseEnergy env purpose i amount).events ↔
      (n.spectrum.decreaseEnergy env.tick i amount).1 ∧ p = purpose ∧
        k = (n.spectrum.spectrum i).publicKey ∧ a = amount := by
  simp only [Node.decreaseEnergy]
  split_ifs with hpaid <;> simp [hpaid]

lemma not_mem_increaseEnergy {purpose : Purpose} {key : M256i} :
    Entry.debit p k a ∉ (n.increaseEnergy env purpose key amount).events := by
  simp only [Node.increaseEnergy]
  split_ifs <;> simp

lemma not_mem_refundReleased (notify : M256i → Int → Handler) (released : List (M256i × Int)) :
    Entry.debit p k a ∉ (n.refundReleased env notify released).events := by
  induction released generalizing n with
  | nil => simp [refundReleased]
  | cons entry released ih =>
    simp only [refundReleased, List.foldlM_cons, mem_bind_events, not_or, not_exists, not_and]
    refine ⟨?_, fun n' _ => ih⟩
    split_ifs
    · simp
    · simp [not_mem_increaseEnergy]

lemma mem_bidInContractIPO {notify : M256i → Int → Handler} {price : Int} {quantity c : Nat}
    {source : M256i} :
    Entry.debit p k a ∈
        (n.bidInContractIPO env notify price quantity source i c).events ↔
      isValidBid price quantity ∧ p = .ipoBid ∧
        (n.spectrum.decreaseEnergy env.tick i (sint64 (price * quantity))).1 ∧
        k = (n.spectrum.spectrum i).publicKey ∧ a = sint64 (price * quantity) := by
  unfold bidInContractIPO
  split_ifs with hvalid
  · simp only [mem_bind_events, mem_decreaseEnergy, decreaseEnergy_result,
      some.injEq, exists_eq_left', hvalid, true_and]
    constructor
    · rintro (⟨hpaid, rfl, hk, ha⟩ | hrest)
      · exact ⟨rfl, hpaid, hk, ha⟩
      · split_ifs at hrest
        · simp [not_mem_refundReleased] at hrest
        · simp at hrest
    · rintro ⟨hp, hpaid, hk, ha⟩
      exact .inl ⟨hpaid, hp, hk, ha⟩
  · simp [hvalid]

lemma mem_refundTransaction (h : Entry.debit p k a ∈ (n.refundTransaction env tx).events) :
    p = .contractRefund ∧ k = tx.destinationPublicKey := by
  unfold refundTransaction at h
  split_ifs at h with hpos
  · simp only [mem_bind_events, ofOption_events, List.not_mem_nil, false_or, ofOption_result] at h
    obtain ⟨i, hidx, h⟩ := h
    split_ifs at h with hi
    · simp only [mem_bind_events, mem_decreaseEnergy, not_mem_increaseEnergy, and_false,
        exists_false, or_false] at h
      exact ⟨h.2.1, h.2.2.1.trans (publicKey_of_spectrumIndex hidx hi)⟩
    · simp at h
  · simp at h

lemma mem_dispatchTransaction (hp : p ≠ .contractRefund)
    (hsource : isRejectedSource env tx.sourcePublicKey = false) :
    Entry.debit p k a ∈ (n.dispatchTransaction env tx i).events ↔ IsIpoBid env tx ∧ p = .ipoBid ∧
        (n.spectrum.decreaseEnergy env.tick i
          (sint64 (tx.bidPrice * tx.bidQuantity))).1 ∧
        k = (n.spectrum.spectrum i).publicKey ∧ a = sint64 (tx.bidPrice * tx.bidQuantity) := by
  constructor
  · intro h
    unfold dispatchTransaction at h
    dsimp only at h
    split at h
    next => simp at h
    next hz =>
      split at h
      next hcontract =>
        split at h
        next hepoch =>
          split at h
          next hbid =>
            simp only [processTickTransactionContractIPO, mem_bind_events,
              mem_bidInContractIPO, pure_events, List.not_mem_nil, and_false, exists_false,
              or_false] at h
            exact ⟨⟨hsource, by simpa using hz, hcontract, hepoch, hbid.1, hbid.2, h.1⟩, h.2⟩
          next => simp at h
        next =>
          split at h
          next =>
            split at h
            next => exact absurd (mem_refundTransaction h).1 hp
            next => simp at h
          next => simp at h
      next => simp at h
  · rintro ⟨⟨_, hz, hcontract, hepoch, hamount, hsize, hvalid⟩, h⟩
    simp [dispatchTransaction, processTickTransactionContractIPO, hz, hcontract, hepoch, hamount,
      hsize, mem_bidInContractIPO, hvalid, h]

lemma mem_executeTransaction (hp : p ≠ .contractRefund)
    (hsource : isRejectedSource env tx.sourcePublicKey = false) :
    Entry.debit p k a ∈ (n.executeTransaction env tx i).events ↔
      (n.spectrum.decreaseEnergy env.tick i tx.amount).1 ∧
        ((p = .transfer ∧ k = (n.spectrum.spectrum i).publicKey ∧ a = tx.amount) ∨
        ∃ s, (n.spectrum.decreaseEnergy env.tick i tx.amount).2.increaseEnergy env.spectrumDepth
            env.k12 env.tick tx.destinationPublicKey tx.amount = some s ∧
          IsIpoBid env tx ∧ p = .ipoBid ∧
          (s.decreaseEnergy env.tick i (sint64 (tx.bidPrice * tx.bidQuantity))).1 ∧
          k = (s.spectrum i).publicKey ∧ a = sint64 (tx.bidPrice * tx.bidQuantity)) := by
  simp only [executeTransaction, mem_bind_events, mem_decreaseEnergy,
    decreaseEnergy_result, some.injEq, exists_eq_left']
  cases hpaid : (n.spectrum.decreaseEnergy env.tick i tx.amount).1 with
  | false => simp
  | true =>
    simp only [if_true, mem_bind_events, not_mem_increaseEnergy, false_or, true_and,
      mem_dispatchTransaction hp hsource]
    simp only [Node.increaseEnergy, map_eq_some_iff, exists_exists_and_eq_and]

lemma refund_mem_executeTransaction
    (h : Entry.debit .contractRefund k a ∈ (n.executeTransaction env tx i).events) :
    k = tx.destinationPublicKey := by
  simp only [executeTransaction, mem_bind_events, mem_decreaseEnergy, decreaseEnergy_result,
    some.injEq, exists_eq_left', reduceCtorEq, false_and, and_false, false_or] at h
  split at h
  · obtain ⟨n', -, h⟩ := (mem_bind_events.mp h).resolve_left not_mem_increaseEnergy
    unfold dispatchTransaction at h
    dsimp only at h
    split_ifs at h <;> first
      | simp [processTickTransactionContractIPO, mem_bidInContractIPO] at h
      | exact (mem_refundTransaction h).2
  · simp at h

/-! ## The slot a bid is taken from -/

lemma antiDust_spectrum {k12 : KangarooTwelve} {s' : Spectrum} (h : antiDust d k12 s = some s') :
    reorgSpectrum d (burnDust d s.spectrum).table = some s'.spectrum := by
  obtain ⟨table, htable, ⟨⟩⟩ := bind_eq_some_iff.mp h
  exact htable

/-- A debit of nothing leaves all keys and balances. -/
lemma similar_decreaseEnergy_zero (h : Inv d c s) (hc : c < 2 ^ 63) (tick : Nat) (hi : i < 2 ^ d) :
    (s.decreaseEnergy tick i 0).1 ∧ Inv d c (s.decreaseEnergy tick i 0).2 ∧
      Similar (s.decreaseEnergy tick i 0).2.spectrum s.spectrum ∧
      (s.decreaseEnergy tick i 0).2.numberOfEntities = s.numberOfEntities := by
  obtain ⟨hinv, hcases⟩ := h.decreaseEnergy tick hc hi 0
  rw [if_pos ⟨le_refl 0, h.table.balance_nonneg i hi⟩] at hcases
  obtain ⟨hpaid, hw⟩ := hcases
  refine ⟨hpaid, hinv, fun j => ?_, ?_⟩
  · by_cases hj : j = i
    · subst hj
      exact ⟨hw.publicKey, by simpa using hw.balance⟩
    · rw [hw.other j hj]
      exact SameBalance.refl _
  · unfold Spectrum.decreaseEnergy
    split_ifs <;> simp [debit]

/-- After the destination was credited with nothing, the old slot of the source holds another
entity that can pay `amount` exactly when the anti-dust step ran and displaced the source. -/
lemma increaseEnergy_displaces (h : Inv d c s) (hc : Affordable d c) (k12 : KangarooTwelve)
    (tick : Nat) (hi : i < 2 ^ d) {dest : M256i} (hdest : dest ≠ 0) (ha : 0 < amount) :
    ∃ s', (s.decreaseEnergy tick i 0).2.increaseEnergy d k12 tick dest 0 = some s' ∧
      ((s'.spectrum i).publicKey ≠ (s.spectrum i).publicKey ∧ amount ≤ (s'.spectrum i).balance ↔
        isCrowded d s ∧ Displaced d s.spectrum i (s.spectrum i).publicKey amount) := by
  obtain ⟨_, hinv, hsim, hn⟩ := similar_decreaseEnergy_zero h hc.lt tick hi
  generalize (s.decreaseEnergy tick i 0).2 = s₁ at hinv hsim hn ⊢
  obtain ⟨s₂, s', r, hroom, hs', h₂, _, hdep⟩ :=
    hinv.increaseEnergy k12 tick hdest (le_refl 0) (by simpa using hc)
  refine ⟨s', hs', ?_⟩
  have hslot : (s'.spectrum i).publicKey ≠ (s.spectrum i).publicKey ∧
        amount ≤ (s'.spectrum i).balance ↔
      (s₂.spectrum i).publicKey ≠ (s.spectrum i).publicKey ∧ amount ≤ (s₂.spectrum i).balance := by
    by_cases hir : i = r
    · subst hir
      rw [hdep.publicKey, hdep.balance, add_zero]
      obtain hfound | ⟨hz, _⟩ := hdep.found
      · rw [hfound]
      · obtain ⟨hin, hout⟩ := h₂.table.free i hi hz
        rw [balance_eq_zero (hin.trans hout.symm)]
        simp [not_le.mpr ha]
    · rw [hdep.other i hir]
  rw [hslot]
  have hcrowd : isCrowded d s₁ = isCrowded d s := by simp only [isCrowded, hn]
  unfold Spectrum.makeRoom at hroom
  split_ifs at hroom with hfull
  · -- The rebuilt tables of both states have the same entities in the same slots.
    obtain ⟨reorg, hreorg, hsim'⟩ := (hsim.burnDust d).reorgSpectrum (antiDust_spectrum hroom)
    rw [(hsim' i).publicKey, (hsim' i).balance]
    refine ⟨fun hd => ⟨hcrowd ▸ hfull, reorg, hreorg, hd⟩, ?_⟩
    rintro ⟨_, reorg', hreorg', hd⟩
    obtain rfl : reorg = reorg' := some.inj (hreorg.symm.trans hreorg')
    exact hd
  · obtain rfl := some.inj hroom
    rw [hcrowd] at hfull
    simp [hfull, (hsim i).publicKey]

lemma executeTransaction_signed_iff (h : Inv env.spectrumDepth c n.spectrum)
    (hc : Affordable env.spectrumDepth c)
    (hsource : isRejectedSource env tx.sourcePublicKey = false) (hi : i < 2 ^ env.spectrumDepth)
    (hkey : (n.spectrum.spectrum i).publicKey = tx.sourcePublicKey) :
    DebitsSigned tx (n.executeTransaction env tx i).events ↔
      ¬(IsIpoBid env tx ∧ isCrowded env.spectrumDepth n.spectrum ∧
        Displaced env.spectrumDepth n.spectrum.spectrum i tx.sourcePublicKey
          (tx.bidPrice * tx.bidQuantity)) := by
  rw [← hkey]
  constructor
  · rintro hsigned ⟨hbid, hdisplaced⟩
    obtain ⟨hpos, _, hcost⟩ := isValidBid.cost hbid.valid
    obtain ⟨s, hs, hiff⟩ :=
      increaseEnergy_displaces h hc env.k12 env.tick hi hbid.destination_ne hpos
    obtain ⟨hother, hbalance⟩ := hiff.mpr hdisplaced
    obtain ⟨hpaid, _⟩ := similar_decreaseEnergy_zero h hc.lt env.tick hi
    rw [hkey] at hother
    refine hother (hsigned .ipoBid _ (sint64 (tx.bidPrice * tx.bidQuantity)) ?_)
    rw [mem_executeTransaction (by decide) hsource, hbid.amount]
    refine ⟨hpaid, Or.inr ⟨s, hs, hbid, rfl, ?_, rfl, rfl⟩⟩
    rw [decreaseEnergy_eq_true, hcost]
    exact ⟨hpos.le, hbalance⟩
  · intro hcond p k a hmem
    split_ifs with hp
    · exact refund_mem_executeTransaction (hp ▸ hmem)
    obtain ⟨_, ⟨_, rfl, _⟩ | ⟨s, hs, hbid, _, hpaid, rfl, _⟩⟩ :=
      (mem_executeTransaction hp hsource).mp hmem
    · exact hkey
    · obtain ⟨hpos, _, hcost⟩ := isValidBid.cost hbid.valid
      obtain ⟨s', hs', hiff⟩ :=
        increaseEnergy_displaces h hc env.k12 env.tick hi hbid.destination_ne hpos
      rw [hbid.amount, hs'] at hs
      obtain rfl := some.inj hs
      rw [decreaseEnergy_eq_true, hcost] at hpaid
      by_contra hother
      exact hcond ⟨hbid, hiff.mp ⟨hkey ▸ hother, hpaid.2⟩⟩

lemma processTickTransaction_events (hsource : isRejectedSource env tx.sourcePublicKey = false)
    (hidx : n.spectrum.spectrumIndex env.spectrumDepth tx.sourcePublicKey = some (i : Int)) :
    (n.processTickTransaction env tx).events = (n.executeTransaction env tx i).events := by
  simp [processTickTransaction, hsource, bind_events, hidx]

/-- A transaction debits nobody but its source, or the contract it called for a refund, unless it is
a contract IPO bid, crediting the contract runs the anti-dust step, and that step moves another
entity with enough balance into the slot in which the source was found. -/
theorem debits_signed_iff (env : Env) (n : Node) (tx : Transaction) {c : Int}
    (h : Inv env.spectrumDepth c n.spectrum) (hc : Affordable env.spectrumDepth c) :
    DebitsSigned tx (n.processTickTransaction env tx).events ↔
      ¬(IsIpoBid env tx ∧ isCrowded env.spectrumDepth n.spectrum ∧
        ∃ i : Nat, n.spectrum.spectrumIndex env.spectrumDepth tx.sourcePublicKey = some (i : Int) ∧
          Displaced env.spectrumDepth n.spectrum.spectrum i tx.sourcePublicKey
            (tx.bidPrice * tx.bidQuantity)) := by
  cases hsource : isRejectedSource env tx.sourcePublicKey with
  | true =>
    refine iff_of_true (by simp [DebitsSigned, processTickTransaction, hsource]) fun hbid => ?_
    simp [hbid.1.source] at hsource
  | false =>
    obtain ⟨i, hi, hkey, _, hidx⟩ | ⟨_, hidx⟩ := h.spectrumIndex_cases tx.sourcePublicKey
    · rw [processTickTransaction_events hsource hidx,
        executeTransaction_signed_iff h hc hsource hi hkey]
      simp [hidx]
    · refine iff_of_true (by simp [DebitsSigned, processTickTransaction, hsource, hidx]) ?_
      rintro ⟨_, _, i, hi, _⟩
      rw [hidx] at hi
      have := some.inj hi
      omega

/-! ## A bid that another entity pays

Three quarters of the slots are in use, nearly all of them with a balance of 1. The bidder sits one
slot after its home slot and the next entity one slot after its own. The anti-dust step burns what
is in front of them, and each moves up by one slot.
-/

/-- The key in slot `i`; the walk for it starts one slot earlier, if there is one. -/
def crowdKey (i : Nat) : M256i := ⟨BitVec.ofNat 256 (if i = 0 then 2 ^ 33 else 2 ^ 32 + (i - 1))⟩

def bidder : M256i := crowdKey 1

def funded (publicKey : M256i) (amount : Int) : EntityRecord := ⟨publicKey, amount, 0, 1, 0, 1, 0⟩

lemma funded_balance (publicKey : M256i) (hl : 0 ≤ amount) (hu : amount < 2 ^ 63) :
    (funded publicKey amount).balance = amount := by
  rw [balance, funded, sub_zero, sint64_eq (by omega) hu]

def crowdedTable (i : Nat) : EntityRecord :=
  if i < 12582912 then funded (crowdKey i) (if i = 1 ∨ i = 2 then 1000000 else 1) else zero

def crowdedSpectrum : Spectrum :=
  { Spectrum.empty with
    spectrum := crowdedTable
    numberOfEntities := 12582912
    totalAmount := 14582910 }

section

variable {i : Nat} (hi : i < 2 ^ 24)

include hi

lemma crowdKey_toNat :
    (crowdKey i).bits.toNat = if i = 0 then 2 ^ 33 else 2 ^ 32 + (i - 1) := by
  rw [crowdKey, BitVec.toNat_ofNat, Nat.mod_eq_of_lt]
  split_ifs <;> omega

lemma crowdKey_inj {j : Nat} (hj : j < 2 ^ 24) (h : crowdKey i = crowdKey j) : i = j := by
  have hbits := congrArg (fun k => k.bits.toNat) h
  simp only [crowdKey_toNat hi, crowdKey_toNat hj] at hbits
  split_ifs at hbits <;> omega

lemma crowdKey_ne_zero : crowdKey i ≠ 0 := by
  intro h
  have hbits := crowdKey_toNat hi
  rw [h, show (0 : M256i).bits.toNat = 0 from rfl] at hbits
  split_ifs at hbits
  omega

lemma homeSlot_crowdKey : homeSlot 24 (crowdKey i) = i - 1 := by
  have hword : (crowdKey i).u32 0 = i - 1 := by
    rw [M256i.u32, BitVec.toNat_setWidth, Nat.mul_zero, BitVec.ushiftRight_zero, crowdKey_toNat hi]
    split_ifs <;> omega
  rw [homeSlot, hword, mask_eq, Nat.mod_eq_of_lt (by omega)]

omit hi in
lemma crowdedTable_balance (i : Nat) : (crowdedTable i).balance =
    (if i < 12582912 then 1 else 0) + (if i = 1 then 999999 else 0) +
      if i = 2 then 999999 else 0 := by
  unfold crowdedTable
  split_ifs <;> first
    | omega
    | simp [funded_balance, zero]

omit hi in
lemma crowdedTable_publicKey (i : Nat) :
    (crowdedTable i).publicKey = if i < 12582912 then crowdKey i else 0 := by
  unfold crowdedTable
  split_ifs <;> rfl

omit hi in
/-- Only the two large balances are above category 0. -/
lemma crowdedTable_fromCategory (i : Nat) :
    (FromCategory crowdedTable 1 i ↔ i = 1 ∨ i = 2) ∧
      (FromCategory crowdedTable 0 i ↔ i < 12582912) := by
  have hlarge : (Int.toNat 1000000).log2 = 19 := by decide
  unfold FromCategory entityCategoryCount
  rw [crowdedTable_balance]
  split_ifs with hlt h1 h2 h2
  · omega
  · norm_num [hlarge, h1]
  · norm_num [hlarge, h2]
  · norm_num [h1, h2, hlt]
    decide
  all_goals
    norm_num
    omega

lemma crowdedTable_occupied : Occupied crowdedTable i ↔ i < 12582912 := by
  rw [Occupied, crowdedTable_publicKey]
  split_ifs with hlt
  · simp [hlt, crowdKey_ne_zero hi]
  · simp [hlt]

omit hi in
/-- Every key is where its own walk finds it. -/
lemma crowdedTable_reach (hi : i < 12582912) :
    Reach (2 ^ 24) (Occupied crowdedTable) (homeSlot 24 (crowdedTable i).publicKey) i := by
  rw [crowdedTable_publicKey, if_pos hi, homeSlot_crowdKey (by omega)]
  obtain rfl | hpos := Nat.eq_zero_or_pos i
  · exact Reach.refl (by norm_num)
  · refine ⟨1, by omega, ?_, fun j hj => ?_⟩
    · rw [ring_eq (by omega) (by omega), if_pos (by omega)]
      omega
    · obtain rfl : j = 0 := by omega
      rw [ring_zero (by omega), crowdedTable_occupied (by omega)]
      omega

end

lemma crowdedTable_inv : TableInv 24 crowdedTable := by
  have hlive : ∀ {i k}, i < 2 ^ 24 → slotKey crowdedTable i = some k →
      i < 12582912 ∧ (crowdedTable i).publicKey = k := by
    intro i k hi hk
    obtain ⟨hkey, hne⟩ := slotKey_eq_some.mp hk
    exact ⟨(crowdedTable_occupied hi).mp (by rw [Occupied, hkey]; exact hne), hkey⟩
  refine ⟨⟨?_, ?_, ?_⟩, ?_, ?_⟩
  · intro i k hi hk
    exact (crowdedTable_occupied hi).mpr (hlive hi hk).1
  · intro i j k hi hj hik hjk
    obtain ⟨hi', rfl⟩ := hlive hi hik
    obtain ⟨hj', he⟩ := hlive hj hjk
    rw [crowdedTable_publicKey, crowdedTable_publicKey, if_pos hi', if_pos hj'] at he
    exact (crowdKey_inj hj hi he).symm
  · intro i k hi hk
    obtain ⟨hi', rfl⟩ := hlive hi hk
    exact crowdedTable_reach hi'
  · intro i hi hz
    have hout : ¬i < 12582912 := fun hlt => (crowdedTable_occupied hi).mpr hlt hz
    simp [crowdedTable, hout, zero]
  · intro i _
    rw [crowdedTable_balance]
    split_ifs <;> norm_num

lemma crowdedSpectrum_inv : Inv 24 (2 ^ 40) crowdedSpectrum := by
  have hcount : Cells.count (2 ^ 24) (· < 12582912) = 12582912 := Cells.count_lt (by norm_num)
  refine ⟨crowdedTable_inv, ?_, ?_, by norm_num [crowdedSpectrum], le_refl _⟩
  · exact hcount.symm.trans (Cells.count_congr fun i hi => (crowdedTable_occupied hi).symm)
  · change (14582910 : Int) = ∑ i ∈ range (2 ^ 24), (crowdedTable i).balance
    simp only [crowdedTable_balance, sum_add_distrib, sum_ite_eq', mem_range,
      show 1 < 2 ^ 24 by norm_num, show 2 < 2 ^ 24 by norm_num, if_true]
    rw [sum_boole, ← Cells.count, hcount]
    norm_num

lemma crowdedTable_thresholds :
    updateAndAnalzeEntityCategoryPopulations 24 crowdedTable = ⟨1, 0⟩ := by
  have hone : Cells.count (2 ^ 24) (FromCategory crowdedTable 1) = 2 := by
    have hfilter : (range (2 ^ 24)).filter (FromCategory crowdedTable 1) = {1, 2} := by
      ext i
      simp only [mem_filter, mem_range, (crowdedTable_fromCategory i).1, mem_insert, mem_singleton]
      omega
    rw [Cells.count, hfilter]
    rfl
  have hzero : Cells.count (2 ^ 24) (FromCategory crowdedTable 0) = 12582912 :=
    (Cells.count_congr fun i _ => (crowdedTable_fromCategory i).2).trans
      (Cells.count_lt (by norm_num))
  have htop := count_fromCategory_top 24 crowdedTable
  have := analyzePopulations_lowest 24 (entityCategoryPopulations 24 crowdedTable)
    (fun k => Cells.count (2 ^ 24) (FromCategory crowdedTable k))
    (k := entityCategoryCount) (by decide)
    (fun j hj => by
      rw [entityCategoryPopulations_eq crowdedTable_inv]
      exact count_fromCategory_succ 24 _ hj)
    (fun _ _ hle => Cells.count_mono fun _ _ h => ⟨h.1, hle.trans h.2.1, h.2.2⟩)
    (by omega) (by omega) (by omega)
  rw [htop] at this
  exact this

/-- All but the two large balances are burned. -/
lemma crowdedTable_burned {i : Nat} (hi : i < 2 ^ 24) :
    ((i = 1 ∨ i = 2) ∧ (burnDust 24 crowdedTable).table i = crowdedTable i) ∨
      (i ≠ 1 ∧ i ≠ 2 ∧ ((burnDust 24 crowdedTable).table i).balance = 0) := by
  have hburn : burnDust 24 crowdedTable = burnAll 24 1 ⟨crowdedTable, 0, []⟩ := by
    simp [burnDust, crowdedTable_thresholds]
  have hbal := crowdedTable_balance i
  rw [hburn, burnAll_table 24 1 _ hi]
  simp only [isDust_iff (crowdedTable_inv.balance_nonneg i hi)]
  by_cases hlarge : i = 1 ∨ i = 2
  · left
    rw [if_neg (by split_ifs at hbal <;> omega)]
    exact ⟨hlarge, rfl⟩
  · right
    refine ⟨by omega, by omega, ?_⟩
    split_ifs with hdust
    · simp
    · split_ifs at hbal <;> omega

/-- The rebuilt table when `k` slots have been copied: each of the two moves up by one slot. -/
def rebuiltTable (k i : Nat) : EntityRecord :=
  if i < 2 ∧ i + 1 < k then funded (crowdKey (i + 1)) 1000000 else zero

lemma rebuiltTable_insert {k : Nat} (hk : k = 1 ∨ k = 2) :
    reorgInsert 24 (rebuiltTable k) (crowdedTable k) = some (rebuiltTable (k + 1)) := by
  have hentry : crowdedTable k = funded (crowdKey k) 1000000 := by
    rw [crowdedTable, if_pos (by omega), if_pos hk]
  have hhome : homeSlot 24 (crowdedTable k).publicKey = k - 1 := by
    rw [hentry]
    exact homeSlot_crowdKey (by omega)
  have hstop : isZero (rebuiltTable k (k - 1)).publicKey := by obtain rfl | rfl := hk <;> rfl
  rw [reorgInsert, hhome, probe_here (Nat.two_pow_pos 24) hstop, hentry]
  refine congrArg some (funext fun i => ?_)
  by_cases hi : i = k - 1
  · subst hi
    rw [Function.update_self, rebuiltTable, if_pos (by omega), Nat.sub_add_cancel (by omega)]
  · rw [Function.update_of_ne hi]
    simp only [rebuiltTable, show (i < 2 ∧ i + 1 < k) ↔ (i < 2 ∧ i + 1 < k + 1) by omega]

lemma crowdedTable_rebuilt :
    reorgSpectrum 24 (burnDust 24 crowdedTable).table = some (rebuiltTable (2 ^ 24)) := by
  have hstep : ∀ k < 2 ^ 24, ∀ reorg, reorg = rebuiltTable k →
      ∃ reorg', (if ((burnDust 24 crowdedTable).table k).balance ≠ 0 then
        reorgInsert 24 reorg ((burnDust 24 crowdedTable).table k) else some reorg) =
          some reorg' ∧ reorg' = rebuiltTable (k + 1) := by
    rintro k hk _ rfl
    refine ⟨_, ?_, rfl⟩
    obtain ⟨hlarge, hsame⟩ | ⟨h1, h2, hzero⟩ := crowdedTable_burned hk
    · have hne : (crowdedTable k).balance ≠ 0 := by
        rw [crowdedTable_balance]
        split_ifs <;> omega
      rw [hsame, if_pos hne]
      exact rebuiltTable_insert hlarge
    · rw [if_neg (by simpa using hzero)]
      refine congrArg some (funext fun i => ?_)
      simp only [rebuiltTable, show (i < 2 ∧ i + 1 < k) ↔ (i < 2 ∧ i + 1 < k + 1) by omega]
  obtain ⟨_, hreorg, rfl⟩ := Cells.foldlM_range (a := fun _ => zero)
    (fun k reorg => reorg = rebuiltTable k) (by funext i; simp [rebuiltTable]) hstep
  exact hreorg

lemma crowdedTable_displaced : Displaced 24 crowdedTable 1 bidder 1000 := by
  have hslot : rebuiltTable (2 ^ 24) 1 = funded (crowdKey 2) 1000000 := if_pos (by norm_num)
  refine ⟨_, crowdedTable_rebuilt, ?_⟩
  rw [hslot, funded_balance _ (by norm_num) (by norm_num)]
  exact ⟨by decide, by norm_num⟩

def auctionEnv : Env where
  spectrumDepth := 24
  assetsDepth := 24
  k12 := ⟨fun _ => 0, fun _ _ => 0⟩
  epoch := 200
  tick := 30000000
  contractCount := 30
  contractDescriptions _ := ⟨0, 201, 10000⟩
  isFrozenAddress _ := false
  notifyContractOfIncomingTransfer _ _ := some
  processSystemTransaction _ := some
  processTickTransactionContractProcedure _ _ _ := some

def crowdedNode : Node where
  spectrum := crowdedSpectrum
  assets := Universe.empty
  ipos _ := some IPO.empty
  contractFeeReserves _ := 0
  contractError _ := .noContractError

/-- Ten shares of contract 29 for 100 each. -/
def auctionBid : Transaction where
  sourcePublicKey := bidder
  destinationPublicKey := ⟨29⟩
  amount := 0
  inputType := 0
  inputSize := 16
  input i := if i = 0 then 100 else if i = 8 then 10 else 0

lemma auctionBid_isIpoBid : IsIpoBid auctionEnv auctionBid where
  source := rfl
  destination_ne := by decide
  destination := rfl
  epoch := rfl
  amount := rfl
  inputSize := rfl
  valid := by decide

/-- The bid is taken from a balance that is not the bidder's, in a sound spectrum. -/
theorem bid_debits_another_entity :
    Inv 24 (2 ^ 40) crowdedNode.spectrum ∧ IsIpoBid auctionEnv auctionBid ∧
      ¬DebitsSigned auctionBid
        (crowdedNode.processTickTransaction auctionEnv auctionBid).events := by
  have hinv : Inv auctionEnv.spectrumDepth (2 ^ 40) crowdedNode.spectrum := crowdedSpectrum_inv
  have hkey : (crowdedNode.spectrum.spectrum 1).publicKey = bidder := rfl
  have hlt : 1 < 2 ^ auctionEnv.spectrumDepth := Nat.one_lt_two_pow (by decide)
  have hidx := hinv.spectrumIndex_of_slot hlt (show bidder ≠ 0 by decide)
  have hbid := auctionBid_isIpoBid
  have hiff := executeTransaction_signed_iff hinv (affordable_of_depth (by decide) (by norm_num))
    hbid.source hlt hkey
  have hcost : auctionBid.bidPrice * auctionBid.bidQuantity = 1000 := by decide
  refine ⟨hinv, hbid, ?_⟩
  rw [processTickTransaction_events hbid.source hidx, hiff, not_not, hcost]
  exact ⟨hbid, rfl, crowdedTable_displaced⟩

def plainTransfer : Transaction := { auctionBid with amount := 5 }

theorem debits_signed_plainTransfer : DebitsSigned plainTransfer
    (crowdedNode.processTickTransaction auctionEnv plainTransfer).events := by
  have hc : Affordable 24 (2 ^ 40) := affordable_of_depth (by norm_num) (by norm_num)
  rw [debits_signed_iff auctionEnv crowdedNode plainTransfer crowdedSpectrum_inv hc]
  exact fun hbid => absurd hbid.1.amount (by decide)

end QubicCore.Node
