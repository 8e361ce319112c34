import QubicCore.MathLib
import QubicCore.Node
import QubicCore.Qpi.Transfers
import QubicCore.Sorting

/-!
# Execution fee reports

Every computor reports the execution fees of the contracts in a transaction of its own tick. The
collector checks a report, stores its entries, and at the end of the phase takes from the fee
reserve of each contract the value that two thirds of the computors do not exceed.

The payload is a phase number, the number of entries, the contract indices, padding to a multiple
of eight bytes, the fees and a data lock, all in little-endian byte order.
-/

namespace QubicCore

open Library Sorting MathLib Function List

structure TickTransaction extends Transaction where
  tick : Nat

def readNumber (input : Nat → BitVec 8) (offset size : Nat) : Nat :=
  (List.range size).foldl (fun v i => v + (input (offset + i)).toNat * 256 ^ i) 0

def readM256i (input : Nat → BitVec 8) (offset : Nat) : M256i :=
  ⟨BitVec.ofNat 256 (readNumber input offset 32)⟩

namespace ExecutionFee

section

variable (contractCount : Nat) (transaction : TickTransaction)

def minAmount : Int := 0

def minInputSize : Nat := 4 + 4 + 32

/-- The sizes of the contract indices, of the padding and of the fees. -/
def payloadSize (numEntries : Nat) : Nat :=
  numEntries * 4 + (if numEntries % 2 = 1 then 4 else 0) + numEntries * 8

def maxInputSize : Nat := (4 + 4 + payloadSize contractCount + 32) % 2 ^ 16

def getNumEntries : Nat := readNumber transaction.input 4 4

def isValidExecutionFeeReport : Bool :=
  transaction.amount = minAmount ∧ transaction.inputSize ≥ minInputSize ∧
  transaction.inputSize ≤ maxInputSize contractCount ∧ getNumEntries transaction ≤ contractCount

def isValidEntryAlignment : Bool :=
  if getNumEntries transaction > contractCount then false
  else
    let actualPayloadSize := uint64 (transaction.inputSize - 4 - 4 - 32)
    actualPayloadSize = payloadSize (getNumEntries transaction)

def getContractIndices (i : Nat) : Nat := readNumber transaction.input (8 + i * 4) 4

def getExecutionFees (i : Nat) : Nat :=
  let numEntries := getNumEntries transaction
  let indicesSize := numEntries * 4
  let alignmentPadding := if numEntries % 2 = 1 then 4 else 0
  readNumber transaction.input (8 + indicesSize + alignmentPadding + i * 8) 8

end

/-- The table `executionFeeReports[contractCount][NUMBER_OF_COMPUTORS]`. -/
abbrev Collector := Nat → Nat → Nat

section

variable (contractCount : Nat)

def reset : Collector := fun _ _ => 0

def storeReport (s : Collector) (contractIndex computorIndex executionFee : Nat) : Collector :=
  if contractIndex > 0 ∧ contractIndex < contractCount ∧ computorIndex < NUMBER_OF_COMPUTORS then
    update s contractIndex
      (update (s contractIndex) computorIndex executionFee)
  else s

def validateReportEntries (contractIndices executionFees : Nat → Nat) (numEntries : Nat) : Bool :=
  if numEntries > contractCount then false
  else
    (List.range numEntries).all fun i =>
      !(contractIndices i = 0 || contractIndices i ≥ contractCount || executionFees i = 0)

def storeReportEntries (s : Collector) (contractIndices executionFees : Nat → Nat)
    (numEntries computorIndex : Nat) : Collector :=
  (List.range numEntries).foldl
    (fun s i => storeReport contractCount s (contractIndices i) computorIndex (executionFees i)) s

structure Report where
  transaction : TickTransaction
  dataLock : M256i

def Report.computorIndex (r : Report) : Nat := r.transaction.tick % NUMBER_OF_COMPUTORS

def Report.txDataLock (r : Report) : M256i :=
  readM256i r.transaction.input (r.transaction.inputSize - 32)

variable (publicKeys : Nat → M256i)

def processTransactionData (s : Collector) (r : Report) : Collector :=
  let transaction := r.transaction
  if transaction.sourcePublicKey ≠ publicKeys r.computorIndex then s
  else if !isValidExecutionFeeReport contractCount transaction then s
  else if r.txDataLock ≠ r.dataLock then s
  else if !isValidEntryAlignment contractCount transaction then s
  else
    let numEntries := getNumEntries transaction
    let contractIndices := getContractIndices transaction
    let executionFees := getExecutionFees transaction
    if !validateReportEntries contractCount contractIndices executionFees numEntries then s
    else storeReportEntries contractCount s contractIndices executionFees numEntries
      r.computorIndex

def collect (reports : List Report) : Collector :=
  reports.foldl (processTransactionData contractCount publicKeys) reset

end

section

def calculatePercentileValue (numerator denominator : Nat) (order : SortingOrder)
    (values : Nat → Nat) (count : Nat) : Nat × (Nat → Nat) :=
  if count = 0 then (0, values)
  else
    let values := quickSort (fun a b => decide (a < b)) order count values 0 count
    (values (count * numerator / denominator), values)

def calculateAscendingQuorumValue (values : Nat → Nat) (count : Nat) : Nat × (Nat → Nat) :=
  calculatePercentileValue 2 3 .sortAscending values count

/-- The state of contract 0, and whether its change flag is set. -/
structure Contract0 where
  contractFeeReserves : Nat → Int
  changed : Bool

def subtractFromContractFeeReserve (c : Contract0) (contractIndex subtractAmount : Nat) :
    Contract0 :=
  let negativeAddAmount :=
    if subtractAmount > INT64_MAX then INT64_MIN else -1 * (subtractAmount : Int)
  ⟨update c.contractFeeReserves contractIndex
    (sadd (c.contractFeeReserves contractIndex) negativeAddAmount), true⟩

def deductReported (st : Collector × Contract0) (contractIndex : Nat) : Collector × Contract0 :=
  let (s, c) := st
  let (quorumValue, values) := calculateAscendingQuorumValue (s contractIndex) NUMBER_OF_COMPUTORS
  let s := update s contractIndex values
  if quorumValue > 0 then (s, subtractFromContractFeeReserve c contractIndex quorumValue)
  else (s, c)

def processReports (contractCount : Nat) (s : Collector) (c : Contract0) : Collector × Contract0 :=
  let (_, c) := (List.range' 1 (contractCount - 1)).foldl deductReported (s, c)
  (reset, c)

end

/-! ## What is stored -/

section

variable {contractCount : Nat} {publicKeys : Nat → M256i} {r : Report}

def Report.entries (r : Report) : List (Nat × Nat) :=
  (List.range (getNumEntries r.transaction)).map fun i =>
    (getContractIndices r.transaction i, getExecutionFees r.transaction i)

structure Accepted (contractCount : Nat) (publicKeys : Nat → M256i) (r : Report) : Prop where
  source : r.transaction.sourcePublicKey = publicKeys r.computorIndex
  report : isValidExecutionFeeReport contractCount r.transaction
  lock : r.txDataLock = r.dataLock
  alignment : isValidEntryAlignment contractCount r.transaction
  entries : ∀ e ∈ r.entries, e.1 ≠ 0 ∧ e.1 < contractCount ∧ e.2 ≠ 0

instance (contractCount : Nat) (publicKeys : Nat → M256i) :
    DecidablePred (Accepted contractCount publicKeys) := fun r =>
  decidable_of_iff (r.transaction.sourcePublicKey = publicKeys r.computorIndex ∧
      isValidExecutionFeeReport contractCount r.transaction ∧
      r.txDataLock = r.dataLock ∧ isValidEntryAlignment contractCount r.transaction ∧
      ∀ e ∈ r.entries, e.1 ≠ 0 ∧ e.1 < contractCount ∧ e.2 ≠ 0)
    ⟨fun ⟨h₁, h₂, h₃, h₄, h₅⟩ => ⟨h₁, h₂, h₃, h₄, h₅⟩,
      fun ⟨h₁, h₂, h₃, h₄, h₅⟩ => ⟨h₁, h₂, h₃, h₄, h₅⟩⟩

def lastFee (entries : List (Nat × Nat)) (contractIndex : Nat) : Option Nat :=
  (entries.filter fun e => e.1 = contractIndex).getLast?.map Prod.snd

def acceptedEntries (contractCount : Nat) (publicKeys : Nat → M256i) (reports : List Report)
    (computorIndex : Nat) : List (Nat × Nat) :=
  let own := reports.filter fun r => r.computorIndex = computorIndex
  (own.filter fun r => Accepted contractCount publicKeys r).flatMap Report.entries

def reportedFee (contractCount : Nat) (publicKeys : Nat → M256i) (reports : List Report)
    (contractIndex computorIndex : Nat) : Nat :=
  (lastFee (acceptedEntries contractCount publicKeys reports computorIndex) contractIndex).getD 0

lemma lastFee_append (es es' : List (Nat × Nat)) (contractIndex : Nat) :
    lastFee (es ++ es') contractIndex =
      (lastFee es' contractIndex).or (lastFee es contractIndex) := by
  rw [lastFee, filter_append, List.getLast?_append, lastFee, lastFee]
  cases (es'.filter fun e => e.1 = contractIndex).getLast? <;> rfl

lemma acceptedEntries_concat (reports : List Report) (r : Report) (c : Nat) :
    acceptedEntries contractCount publicKeys (reports ++ [r]) c =
      acceptedEntries contractCount publicKeys reports c ++
        if r.computorIndex = c ∧ Accepted contractCount publicKeys r then r.entries else [] := by
  by_cases hc : r.computorIndex = c
  · by_cases hr : Accepted contractCount publicKeys r <;> simp [acceptedEntries, hc, hr]
  · simp [acceptedEntries, hc]

lemma Report.computorIndex_lt (r : Report) : r.computorIndex < NUMBER_OF_COMPUTORS :=
  Nat.mod_lt _ (by decide)

lemma validateReportEntries_iff (hcount : getNumEntries r.transaction ≤ contractCount) :
    validateReportEntries contractCount (getContractIndices r.transaction)
        (getExecutionFees r.transaction) (getNumEntries r.transaction) ↔
      ∀ e ∈ r.entries, e.1 ≠ 0 ∧ e.1 < contractCount ∧ e.2 ≠ 0 := by
  rw [validateReportEntries, if_neg (by omega), Report.entries, forall_mem_map,
    all_eq_true]
  refine forall₂_congr fun i _ => ?_
  simp only [Bool.not_eq_true', Bool.or_eq_false_iff, decide_eq_false_iff_not]
  omega

lemma foldl_storeReport {entries : List (Nat × Nat)} {c : Nat} (hc : c < NUMBER_OF_COMPUTORS)
    (hvalid : ∀ e ∈ entries, e.1 ≠ 0 ∧ e.1 < contractCount ∧ e.2 ≠ 0) (s : Collector)
    (k c' : Nat) :
    entries.foldl (fun s e => storeReport contractCount s e.1 c e.2) s k c' =
      if c' = c then (lastFee entries k).getD (s k c') else s k c' := by
  induction entries using List.reverseRecOn with
  | nil => simp [lastFee]
  | append_singleton es e ih =>
    obtain ⟨hpos, hlt, -⟩ := hvalid e (by simp)
    have hes := ih fun e he => hvalid e (by simp [he])
    rw [foldl_append, foldl_cons, foldl_nil, storeReport,
      if_pos ⟨Nat.pos_of_ne_zero hpos, hlt, hc⟩, lastFee_append]
    obtain rfl | hk := eq_or_ne k e.1
    · rw [update_self]
      obtain rfl | hc' := eq_or_ne c' c
      · simp [lastFee]
      · rw [update_of_ne hc', hes, if_neg hc', if_neg hc']
    · rw [update_of_ne hk, hes]
      simp [lastFee, Ne.symm hk]

lemma processTransactionData_rejected (h : ¬Accepted contractCount publicKeys r) (s : Collector) :
    processTransactionData contractCount publicKeys s r = s := by
  rw [processTransactionData]
  dsimp only
  split_ifs with hsource hreport hlock halign hentries <;> try rfl
  simp only [not_not, Bool.not_eq_true', Bool.not_eq_false] at hsource hreport hlock halign
  have hcount : getNumEntries r.transaction ≤ contractCount := by
    simp only [isValidExecutionFeeReport, decide_eq_true_eq] at hreport
    exact hreport.2.2.2
  refine absurd ⟨hsource, hreport, hlock, halign, ?_⟩ h
  rw [← validateReportEntries_iff hcount]
  simpa using hentries

lemma processTransactionData_accepted (h : Accepted contractCount publicKeys r) (s : Collector)
    (k c : Nat) :
    processTransactionData contractCount publicKeys s r k c =
      if c = r.computorIndex then (lastFee r.entries k).getD (s k c) else s k c := by
  have hcount : getNumEntries r.transaction ≤ contractCount := by
    have := h.report
    simp only [isValidExecutionFeeReport, decide_eq_true_eq] at this
    exact this.2.2.2
  rw [processTransactionData]
  rw [if_neg (not_not.2 h.source), if_neg (by simp [h.report]), if_neg (not_not.2 h.lock),
    if_neg (by simp [h.alignment]),
    if_neg (by simp [(validateReportEntries_iff hcount).2 h.entries]),
    ← foldl_storeReport r.computorIndex_lt h.entries, storeReportEntries, Report.entries,
    foldl_map]

lemma collect_eq (reports : List Report) :
    collect contractCount publicKeys reports = reportedFee contractCount publicKeys reports := by
  induction reports using List.reverseRecOn with
  | nil => rfl
  | append_singleton reports r ih =>
    rw [collect, foldl_append, foldl_cons, foldl_nil, ← collect, ih]
    funext k c
    rw [reportedFee, acceptedEntries_concat]
    by_cases hr : Accepted contractCount publicKeys r
    · rw [processTransactionData_accepted hr]
      obtain rfl | hc := eq_or_ne c r.computorIndex
      · rw [if_pos rfl, if_pos ⟨rfl, hr⟩, lastFee_append, reportedFee]
        cases lastFee r.entries k <;> rfl
      · rw [if_neg hc, if_neg fun h => hc h.1.symm, append_nil, reportedFee]
    · rw [processTransactionData_rejected hr, if_neg fun h => hr h.2, append_nil, reportedFee]

end

/-! ## What is deducted -/

section

/-- The 451st smallest of the values of all computors. -/
def quorumFee (fees : Nat → Nat) : Nat :=
  (orderStatistic ((List.range NUMBER_OF_COMPUTORS).map fees) (QUORUM - 1)).getD 0

/-- The deduction goes wrong: the reserve is at its minimum and the difference wraps to zero, or
more than `2^63` would have to be taken from a positive reserve. -/
def Miscounted (reserve : Int) (fee : Nat) : Prop :=
  2 ^ 63 ≤ fee ∧ reserve = INT64_MIN ∨ 2 ^ 63 < fee ∧ 0 < reserve

lemma quickSorted (values : Nat → Nat) (count : Nat) :
    Rearranged values (quickSort (fun a b => decide (a < b)) .sortAscending count values 0 count)
      0 count ∧
    Ordered id (quickSort (fun a b => decide (a < b)) .sortAscending count values 0 count)
      0 count :=
  quickSort_spec id values (by omega)

lemma quorum_eq : QUORUM - 1 = NUMBER_OF_COMPUTORS * 2 / 3 := Nat.add_sub_cancel ..

lemma calculateAscendingQuorumValue_eq {count : Nat} (hcount : 0 < count) (values : Nat → Nat) :
    orderStatistic ((List.range count).map values) (count * 2 / 3) =
      some (calculateAscendingQuorumValue values count).1 := by
  obtain ⟨hperm, hord⟩ := quickSorted values count
  rw [hperm.orderStatistic_eq hord (by omega), calculateAscendingQuorumValue,
    calculatePercentileValue, if_neg (by omega)]

lemma numberOfComputors_eq : NUMBER_OF_COMPUTORS = 676 := rfl

attribute [local irreducible] NUMBER_OF_COMPUTORS

lemma quorumFee_eq (values : Nat → Nat) :
    quorumFee values = (calculateAscendingQuorumValue values NUMBER_OF_COMPUTORS).1 := by
  have hpos : 0 < NUMBER_OF_COMPUTORS := by rw [numberOfComputors_eq]; omega
  rw [quorumFee, quorum_eq, calculateAscendingQuorumValue_eq hpos, Option.getD_some]

/-- With at most 225 dishonest computors the value lies between two honest ones. -/
lemma quorumFee_honest (fees : Nat → Nat) (honest : Nat → Prop) [DecidablePred honest]
    (hcount : Cells.count NUMBER_OF_COMPUTORS (fun i => ¬honest i) ≤ 225) :
    (∃ i < NUMBER_OF_COMPUTORS, honest i ∧ fees i ≤ quorumFee fees) ∧
    ∃ i < NUMBER_OF_COMPUTORS, honest i ∧ quorumFee fees ≤ fees i := by
  obtain ⟨hperm, hord⟩ := quickSorted fees NUMBER_OF_COMPUTORS
  have hall := numberOfComputors_eq
  have hrank : NUMBER_OF_COMPUTORS * 2 / 3 = 450 := by omega
  rw [quorumFee, quorum_eq, hperm.orderStatistic_eq hord (by omega), Option.getD_some]
  exact orderStatistic_trusted hperm hord (by omega) honest (by omega) (by omega)

lemma subtract_eq_clamp_iff {r : Int} (hr : -2 ^ 63 ≤ r ∧ r < 2 ^ 63) (fee : Nat) :
    sadd r (if fee > INT64_MAX then INT64_MIN else -1 * (fee : Int)) = clamp (r - fee) ↔
      ¬Miscounted r fee := by
  rw [sadd_eq hr (by unfold INT64_MIN INT64_MAX; omega), clamp, clamp, Miscounted, INT64_MIN,
    INT64_MAX]
  split_ifs <;> omega

/-- The reserve of a contract after `processReports`. -/
def reserveAfter (reserve : Int) (fee : Nat) : Int :=
  if fee > 0 then sadd reserve (if fee > INT64_MAX then INT64_MIN else -1 * (fee : Int))
  else reserve

lemma reserveAfter_eq_iff {r : Int} (hr : -2 ^ 63 ≤ r ∧ r < 2 ^ 63) (fee : Nat) :
    reserveAfter r fee = max (-2 ^ 63) (r - fee) ↔ ¬Miscounted r fee := by
  have hclamp : clamp (r - fee) = max (-2 ^ 63) (r - fee) := by
    rw [clamp, INT64_MIN, INT64_MAX]
    omega
  rw [reserveAfter]
  by_cases hpos : fee > 0
  · rw [if_pos hpos, ← hclamp, subtract_eq_clamp_iff hr]
  · rw [if_neg hpos, Miscounted]
    omega

lemma deductReported_spec (s : Collector) (c : Contract0) (k : Nat) :
    (∀ j ≠ k, (deductReported (s, c) k).1 j = s j) ∧
    (deductReported (s, c) k).2.contractFeeReserves = update c.contractFeeReserves k
        (reserveAfter (c.contractFeeReserves k) (quorumFee (s k))) := by
  rw [deductReported, quorumFee_eq]
  generalize calculateAscendingQuorumValue (s k) NUMBER_OF_COMPUTORS = q
  obtain ⟨quorumValue, values⟩ := q
  dsimp only
  split_ifs with hpos
  · refine ⟨fun j hj => update_of_ne hj .., ?_⟩
    rw [reserveAfter, if_pos hpos, subtractFromContractFeeReserve]
  · refine ⟨fun j hj => update_of_ne hj .., ?_⟩
    rw [reserveAfter, if_neg hpos, update_eq_self]

lemma processReports_snd (contractCount : Nat) (s : Collector) (c : Contract0) :
    (processReports contractCount s c).2 =
      ((List.range (contractCount - 1)).foldl (fun st i => deductReported st (1 + i))
        (s, c)).2 := by
  rw [processReports, List.range'_eq_map_range, foldl_map]

/-- The contracts up to `i` have been charged and no other. -/
structure Charged (s : Collector) (c : Contract0) (i : Nat) (st : Collector × Contract0) :
    Prop where
  rest : ∀ j, i < j → st.1 j = s j ∧ st.2.contractFeeReserves j = c.contractFeeReserves j
  done : ∀ j, 0 < j → j ≤ i → st.2.contractFeeReserves j =
    reserveAfter (c.contractFeeReserves j) (quorumFee (s j))

lemma Charged.step {s : Collector} {c : Contract0} {i : Nat} {st : Collector × Contract0}
    (h : Charged s c i st) : Charged s c (i + 1) (deductReported st (1 + i)) := by
  obtain ⟨s', c'⟩ := st
  obtain ⟨hs, hc⟩ := deductReported_spec s' c' (1 + i)
  generalize deductReported (s', c') (1 + i) = st' at hs hc ⊢
  refine ⟨fun j hj => ?_, fun j hj hj' => ?_⟩
  · rw [hs j (by omega), hc, update_of_ne (by omega)]
    exact h.rest j (by omega)
  · rw [hc]
    obtain rfl | hne := eq_or_ne j (1 + i)
    · obtain ⟨hs', hc'⟩ := h.rest (1 + i) (by omega)
      dsimp only at hs' hc'
      rw [update_self, hs', hc']
    · rw [update_of_ne hne]
      exact h.done j hj (by omega)

lemma processReports_reserves {contractCount : Nat} (s : Collector) (c : Contract0) {k : Nat}
    (hpos : 0 < k) (hk : k < contractCount) :
    (processReports contractCount s c).2.contractFeeReserves k =
      reserveAfter (c.contractFeeReserves k) (quorumFee (s k)) := by
  have hcharged : Charged s c (contractCount - 1)
      ((List.range (contractCount - 1)).foldl (fun st i => deductReported st (1 + i)) (s, c)) :=
    Cells.foldl_range (Charged s c) ⟨fun j _ => ⟨rfl, rfl⟩, fun j _ _ => by omega⟩
      fun i _ st h => h.step
  rw [processReports_snd]
  exact hcharged.done k hpos (by omega)

lemma reportedFee_congr {contractCount : Nat} {publicKeys : Nat → M256i}
    {reports reports' : List Report}
    (h : ∀ c, reports'.filter (fun r => r.computorIndex = c) =
      reports.filter fun r => r.computorIndex = c) :
    reportedFee contractCount publicKeys reports' =
      reportedFee contractCount publicKeys reports := by
  funext k c
  rw [reportedFee, reportedFee, acceptedEntries, acceptedEntries, h c]

/-- The value that is deducted is the 451st smallest fee, and the reserve stops at its minimum,
if and only if no deduction is miscounted. The outcome depends only on the sequence of reports of
each computor, a report that fails a check is without effect, and with at most 225 dishonest
computors the fee lies between fees of honest ones. -/
theorem processReports_exact_iff (contractCount : Nat) (publicKeys : Nat → M256i)
    (reports : List Report) (c : Contract0)
    (hreserves : ∀ k, -2 ^ 63 ≤ c.contractFeeReserves k ∧ c.contractFeeReserves k < 2 ^ 63) :
    ((∀ k, 0 < k → k < contractCount →
        (processReports contractCount (collect contractCount publicKeys reports)
          c).2.contractFeeReserves k =
          max (-2 ^ 63) (c.contractFeeReserves k -
            quorumFee (reportedFee contractCount publicKeys reports k))) ↔
      ∀ k, 0 < k → k < contractCount → ¬Miscounted (c.contractFeeReserves k)
        (quorumFee (reportedFee contractCount publicKeys reports k))) ∧
    (∀ reports' : List Report, (∀ i, reports'.filter (fun r => r.computorIndex = i) =
        reports.filter fun r => r.computorIndex = i) →
      processReports contractCount (collect contractCount publicKeys reports') c =
        processReports contractCount (collect contractCount publicKeys reports) c) ∧
    (∀ before r after, ¬Accepted contractCount publicKeys r → reports = before ++ r :: after →
      collect contractCount publicKeys (before ++ after) =
        collect contractCount publicKeys reports) ∧
    ∀ (honest : Nat → Prop) [DecidablePred honest],
      Cells.count NUMBER_OF_COMPUTORS (fun i => ¬honest i) ≤ 225 → ∀ k,
      (∃ i < NUMBER_OF_COMPUTORS, honest i ∧ reportedFee contractCount publicKeys reports k i ≤
          quorumFee (reportedFee contractCount publicKeys reports k)) ∧
      ∃ i < NUMBER_OF_COMPUTORS, honest i ∧
        quorumFee (reportedFee contractCount publicKeys reports k) ≤
          reportedFee contractCount publicKeys reports k i := by
  refine ⟨?_, fun reports' h => ?_, ?_, fun honest _ hcount k => quorumFee_honest _ honest hcount⟩
  · refine forall_congr' fun k => forall₂_congr fun hpos hk => ?_
    rw [processReports_reserves _ _ hpos hk, collect_eq, reserveAfter_eq_iff (hreserves k)]
  · rw [collect_eq, collect_eq, reportedFee_congr h]
  · rintro before r after hr rfl
    simp only [collect, foldl_append, foldl_cons, processTransactionData_rejected hr]

def vote (fee tick : Nat) : Report where
  dataLock := 0
  transaction :=
    { sourcePublicKey := 0
      destinationPublicKey := 0
      amount := 0
      inputType := 9
      inputSize := 56
      tick := tick
      input := fun j =>
        if j = 4 ∨ j = 8 then 1
        else if 16 ≤ j ∧ j < 24 then BitVec.ofNat 8 (fee / 256 ^ (j - 16)) else 0 }

def unanimous (fee : Nat) : List Report := (List.range NUMBER_OF_COMPUTORS).map (vote fee)

lemma quorumFee_unanimous {fee : Nat} (h : Accepted 2 (fun _ => 0) (vote fee 0))
    (hentries : (vote fee 0).entries = [(1, fee)]) :
    quorumFee (reportedFee 2 (fun _ => 0) (unanimous fee) 1) = fee := by
  have hall : ∀ i < NUMBER_OF_COMPUTORS, reportedFee 2 (fun _ => 0) (unanimous fee) 1 i = fee := by
    rw [← collect_eq, collect, unanimous, foldl_map]
    refine Cells.foldl_range (fun n (s : Collector) => ∀ i < n, s 1 i = fee)
      (fun i hi => by omega) fun n hn s hs i hi => ?_
    -- The tick matters for nothing but the column.
    have haccepted : Accepted 2 (fun _ => 0) (vote fee n) := { h with }
    rw [processTransactionData_accepted haccepted,
      show (vote fee n).entries = [(1, fee)] from hentries]
    have hindex : (vote fee n).computorIndex = n := Nat.mod_eq_of_lt hn
    split_ifs with heq
    · rfl
    · exact hs i (by omega)
  obtain ⟨⟨i, hi, -, hle⟩, ⟨j, hj, -, hge⟩⟩ :=
    quorumFee_honest (reportedFee 2 (fun _ => 0) (unanimous fee) 1) (fun _ => True)
      (by simp [Cells.count])
  rw [hall i hi] at hle
  rw [hall j hj] at hge
  exact le_antisymm hge hle

/-- A reserve at its minimum is filled up to zero by a deduction of `2^63`. -/
theorem processReports_fills_reserve :
    quorumFee (reportedFee 2 (fun _ => 0) (unanimous (2 ^ 63)) 1) = 2 ^ 63 ∧
    (processReports 2 (collect 2 (fun _ => 0) (unanimous (2 ^ 63)))
      ⟨fun _ => -2 ^ 63, false⟩).2.contractFeeReserves 1 = 0 := by
  have hfee : quorumFee (reportedFee 2 (fun _ => 0) (unanimous (2 ^ 63)) 1) = 2 ^ 63 :=
    quorumFee_unanimous (by decide +kernel) (by decide +kernel)
  refine ⟨hfee, ?_⟩
  rw [processReports_reserves _ _ (by decide) (by decide), collect_eq, hfee]
  decide

theorem processReports_exact_iff_unanimous :
    (processReports 2 (collect 2 (fun _ => 0) (unanimous 5))
      ⟨fun _ => 3, false⟩).2.contractFeeReserves 1 = -2 := by
  have hfee : quorumFee (reportedFee 2 (fun _ => 0) (unanimous 5) 1) = 5 :=
    quorumFee_unanimous (by decide +kernel) (by decide +kernel)
  have hexact := (processReports_exact_iff 2 (fun _ => 0) (unanimous 5) ⟨fun _ => 3, false⟩
    fun _ => ⟨by simp, by simp⟩).1.2 fun k hpos hk => by
      obtain rfl : k = 1 := by omega
      rw [hfee]
      exact fun h => by simp [Miscounted] at h
  rw [hexact 1 (by decide) (by decide), hfee]
  decide

end

/-! ## Saturation -/

open Qpi.Transfers in
/-- The products and the unsigned sum are clamped. The signed sum is, unless both terms are
`INT64_MIN`; an addition to a reserve, unless an amount above `INT64_MAX` meets a negative one. -/
theorem saturation_iff {a b : Int} (ha : -2 ^ 63 ≤ a ∧ a < 2 ^ 63) (hb : -2 ^ 63 ≤ b ∧ b < 2 ^ 63)
    {x : Nat} (hx : x ≤ UINT64_MAX) (y : Nat) (w : World) (c : Contract0) (k : Nat)
    (hw : w.node.contractFeeReserves k = a) (hc : c.contractFeeReserves k = a) :
    smulWords a b = clamp (a * b) ∧ smulUnsignedWords x y = min (x * y) UINT64_MAX ∧
    saddUnsigned x y = min (x + y) UINT64_MAX ∧
    (sadd a b = clamp (a + b) ↔ ¬(a = INT64_MIN ∧ b = INT64_MIN)) ∧
    ((addToContractFeeReserve w k x).node.contractFeeReserves k = clamp (a + x) ↔
      ¬(INT64_MAX < x ∧ a < 0)) ∧
    ((subtractFromContractFeeReserve c k x).contractFeeReserves k = clamp (a - x) ↔
      ¬Miscounted a x) := by
  rw [smulWords_eq_smul, smulUnsignedWords_eq_smulUnsigned]
  refine ⟨smul_eq_clamp a b, ?_, ?_, ?_, ?_, ?_⟩
  · rw [smulUnsigned]
    split_ifs <;> omega
  · rw [saddUnsigned]
    split_ifs <;> omega
  · rw [sadd_eq ha hb]
    unfold clamp INT64_MIN INT64_MAX
    split_ifs <;> omega
  · simp only [addToContractFeeReserve, update_self, hw]
    rw [sadd_eq ha (by unfold INT64_MAX; omega)]
    unfold clamp INT64_MIN INT64_MAX
    split_ifs <;> omega
  · rw [subtractFromContractFeeReserve, ← subtract_eq_clamp_iff ha]
    simp only [update_self, hc]

theorem sadd_minimum : sadd INT64_MIN INT64_MIN = 0 ∧ clamp (INT64_MIN + INT64_MIN) = INT64_MIN ∧
    (subtractFromContractFeeReserve ⟨fun _ => 1, false⟩ 1 UINT64_MAX).contractFeeReserves 1 ≠
      clamp (1 - UINT64_MAX) := by
  decide

theorem saturation_iff_zero :
    (subtractFromContractFeeReserve ⟨fun _ => 0, false⟩ 1 5).contractFeeReserves 1 = -5 :=
  (saturation_iff (b := 0) (x := 5) (by decide) (by decide) (by decide) 0
    Qpi.Transfers.smallWorld ⟨fun _ => 0, false⟩ 1 rfl rfl).2.2.2.2.2.2 (by simp [Miscounted])

end ExecutionFee

end QubicCore
