import QubicCore.Revenue.Basic

/-!
# The issuance at the end of an epoch

`endEpoch` issues `ISSUANCE_RATE`: every computor gets its revenue, reduced by the donations that
the quorum agreed on, and the arbitrator gets what is left. The revenue comes from one of two
formulas, chosen when the node is built.

A result `none` is an epoch end without issuance because the supply is exhausted. The table of
logarithms that the older formula looks up is a parameter.
-/

namespace QubicCore.Revenue

open MathLib List

def MAX_TX_LUT_INDEX : Nat := 4096

def MAX_SUPPLY : Int := ISSUANCE_RATE * 200

/-- What was recorded during the epoch. -/
structure EpochRevenueData where
  (initialTick totalTicks : Nat)
  (oracleScore dogeMiningScore perTickTxCount : Nat → Nat)

structure Build where
  (useRevenueMultiDimension revenueDogeDisabled : Bool)
  contractCount : Nat
  gTxRevenuePoints : Nat → Nat

/-! ## The formula with one dimension -/

variable (b : Build) (data : EpochRevenueData)

/-- The logarithm of the number of transactions of a tick. -/
def logScore (t : Nat) : Nat := b.gTxRevenuePoints (min (data.perTickTxCount t) MAX_TX_LUT_INDEX)

/-- The window sum of the first tick, over the indices from `-REVENUE_HALF_WINDOW` on. -/
def firstWindow : Nat :=
  (List.range REVENUE_WINDOW_SIZE).foldl (fun sum k =>
    let i : Int := k - REVENUE_HALF_WINDOW
    let idx := (i.tmod data.totalTicks + data.totalTicks).tmod data.totalTicks
    (sum + logScore b data idx.toNat) % 2 ^ 64) 0

/-- Body of the loop over the ticks: window sum and scores of the computors. -/
def slideWindow (s : Nat × (Nat → Nat)) (t : Nat) : Nat × (Nat → Nat) :=
  let windowVal := if s.1 = 0 then 1 else s.1
  let txScore := logScore b data t * REVENUE_SCALE * REVENUE_WINDOW_SIZE % 2 ^ 64 / windowVal
  let computorIndex := leader data.initialTick t
  let leavingIdx := (t + data.totalTicks - REVENUE_HALF_WINDOW) % data.totalTicks
  let enteringIdx := (t + REVENUE_HALF_WINDOW + 1) % data.totalTicks
  ((s.1 + 2 ^ 64 - logScore b data leavingIdx + logScore b data enteringIdx) % 2 ^ 64,
    Function.update s.2 computorIndex ((s.2 computorIndex + txScore) % 2 ^ 64))

def slidingWindowTxScore : Nat → Nat :=
  ((List.range data.totalTicks).foldl (slideWindow b data) (firstWindow b data, fun _ => 0)).2

def computeRevenueV2 (i : Nat) : Int :=
  if data.totalTicks < REVENUE_WINDOW_SIZE then 0
  else
    let scoreTx := computeRevFactor (slidingWindowTxScore b data) REVENUE_SCALE i
    let scoreOracle := activityFactor data.oracleScore i
    let e := computeRevFactor data.dogeMiningScore REVENUE_SCALE i
    let m := (REVENUE_W_TX * scoreTx + REVENUE_W_ORACLE * scoreOracle) / REVENUE_W_SUM
    let numerator := m * (REVENUE_SCALE * REVENUE_SCALE + REVENUE_BONUS_CAP * e)
    sint64 ((REVENUE_IPC * numerator % 2 ^ 64 / REVENUE_DIVISOR : Nat))

/-! ## The formula with many dimensions -/

def dogeFactor : Nat → Nat :=
  if b.revenueDogeDisabled then fun _ => REVENUE_SCALE else activityFactor data.dogeMiningScore

variable (m : MultiDimRevenue) (i : Nat)

def computeMultiDimRevenue : Int :=
  let txScore := (scoreEpochEdgeTicks b.contractCount m data.totalTicks).txScore
  let txFactor := computeRevFactor txScore REVENUE_SCALE i
  let oracleFactor := activityFactor data.oracleScore i
  let sPowKm1 := ipow REVENUE_SCALE (REVENUE_DOGE_K - 1)
  let dogeRootScaled := irootK64 REVENUE_DOGE_K (dogeFactor b data i * sPowKm1 % 2 ^ 64)
  let num := REVENUE_IPC * txFactor * oracleFactor * dogeRootScaled % 2 ^ 64
  sint64 ((num / (REVENUE_SCALE * REVENUE_SCALE * REVENUE_SCALE) : Nat))

def computorRevenue : Nat → Int :=
  if b.useRevenueMultiDimension then computeMultiDimRevenue b data m else computeRevenueV2 b data

/-! ## Paying out -/

structure RevenueDonationEntry where
  destinationPublicKey : M256i
  millionthAmount : Int
  firstEpoch : Nat

def donationCapacity : Nat := 128

def donate (epoch : Nat) : List RevenueDonationEntry → Int → List (M256i × Int) × Int
  | [], revenue => ([], revenue)
  | entry :: entries, revenue =>
    if isZero entry.destinationPublicKey then ([], revenue)
    else if 0 < entry.millionthAmount ∧ entry.millionthAmount ≤ 1000000 ∧
        epoch ≥ entry.firstEpoch then
      let donation := (sint64 (revenue * entry.millionthAmount)).tdiv 1000000
      let rest := donate epoch entries (sint64 (revenue - donation))
      ((entry.destinationPublicKey, donation) :: rest.1, rest.2)
    else donate epoch entries revenue

structure Payment where
  revenue : Int
  donations : List (M256i × Int)
  received : Int

/-- The amounts credited at the end of an epoch. -/
structure Issuance where
  computors : List Payment
  arbitratorRevenue : Int

def pay (epoch : Nat) (emissionDist : Nat → RevenueDonationEntry) (revenue : Nat → Int)
    (issuance : Issuance) (computorIndex : Nat) : Issuance :=
  let payout := donate epoch ((List.range donationCapacity).map emissionDist)
    (revenue computorIndex)
  ⟨issuance.computors ++ [⟨revenue computorIndex, payout.1, payout.2⟩],
    sint64 (issuance.arbitratorRevenue - revenue computorIndex)⟩

/-- The part of `endEpoch` that issues new units. -/
def issue (totalAmount : Int) (data : EpochRevenueData) (m : MultiDimRevenue)
    (epoch : Nat) (emissionDist : Nat → RevenueDonationEntry) : Option Issuance :=
  if totalAmount + ISSUANCE_RATE ≤ MAX_SUPPLY then
    some ((List.range NUMBER_OF_COMPUTORS).foldl
      (pay epoch emissionDist (computorRevenue b data m)) ⟨[], ISSUANCE_RATE⟩)
  else none

/-! ## Factors and revenues -/

lemma computeRevFactor_le (score : Nat → Nat) (scale i : Nat) :
    computeRevFactor score scale i ≤ scale := by
  simp only [computeRevFactor]
  split_ifs with hzero hquorum
  · exact Nat.zero_le _
  · exact le_rfl
  · refine Nat.div_le_of_le_mul ((Nat.mod_le _ _).trans ?_)
    rw [Nat.mul_comm]
    exact Nat.mul_le_mul_right _ (by omega)

lemma activityFactor_le (score : Nat → Nat) (i : Nat) : activityFactor score i ≤ REVENUE_SCALE := by
  unfold activityFactor
  split_ifs
  · exact computeRevFactor_le score REVENUE_SCALE i
  · exact le_rfl

lemma dogeFactor_le : dogeFactor b data i ≤ REVENUE_SCALE := by
  unfold dogeFactor
  split_ifs
  · exact le_rfl
  · exact activityFactor_le _ i

/-- The root of a factor, scaled back, is again a factor. -/
lemma dogeRoot_le {f : Nat} (hf : f ≤ REVENUE_SCALE) :
    irootK64 REVENUE_DOGE_K (f * ipow REVENUE_SCALE (REVENUE_DOGE_K - 1) % 2 ^ 64) ≤
      REVENUE_SCALE := by
  have hpow : ipow REVENUE_SCALE (REVENUE_DOGE_K - 1) = REVENUE_SCALE := by decide
  have hroot := (irootK64_spec (k := REVENUE_DOGE_K) (by decide)
    (n := f * ipow REVENUE_SCALE (REVENUE_DOGE_K - 1) % 2 ^ 64)
    (Nat.le_sub_one_of_lt (Nat.mod_lt _ (by norm_num)))).1
  refine (Nat.pow_le_pow_iff_left (by decide)).mp (hroot.trans ?_)
  refine (Nat.mod_le _ _).trans ?_
  exact (Nat.mul_le_mul_right _ hf).trans_eq (by decide)

lemma sint64_share {x : Nat} (h : x ≤ REVENUE_IPC) : 0 ≤ sint64 x ∧ sint64 x ≤ REVENUE_IPC := by
  have hipc : REVENUE_IPC = 1479289940 := by decide
  rw [sint64_eq (by omega) (by omega)]
  omega

lemma computeRevenueV2_share :
    0 ≤ computeRevenueV2 b data i ∧ computeRevenueV2 b data i ≤ REVENUE_IPC := by
  unfold computeRevenueV2
  split_ifs
  · exact ⟨le_rfl, by decide⟩
  · have htx := computeRevFactor_le (slidingWindowTxScore b data) REVENUE_SCALE i
    have horacle := activityFactor_le data.oracleScore i
    have hdoge := computeRevFactor_le data.dogeMiningScore REVENUE_SCALE i
    refine sint64_share (Nat.div_le_of_le_mul ((Nat.mod_le _ _).trans ?_))
    have hm : (REVENUE_W_TX * computeRevFactor (slidingWindowTxScore b data) REVENUE_SCALE i +
        REVENUE_W_ORACLE * activityFactor data.oracleScore i) / REVENUE_W_SUM ≤
        REVENUE_SCALE := by
      simp only [REVENUE_W_TX, REVENUE_W_ORACLE, REVENUE_W_SUM, REVENUE_SCALE] at *
      omega
    calc REVENUE_IPC * (_ * (REVENUE_SCALE * REVENUE_SCALE + REVENUE_BONUS_CAP * _))
        ≤ REVENUE_IPC * (REVENUE_SCALE * (REVENUE_SCALE * REVENUE_SCALE +
            REVENUE_BONUS_CAP * REVENUE_SCALE)) := by gcongr
      _ = REVENUE_DIVISOR * REVENUE_IPC := by decide

lemma computeMultiDimRevenue_share :
    0 ≤ computeMultiDimRevenue b data m i ∧ computeMultiDimRevenue b data m i ≤ REVENUE_IPC := by
  have htx := computeRevFactor_le
    (scoreEpochEdgeTicks b.contractCount m data.totalTicks).txScore REVENUE_SCALE i
  have horacle := activityFactor_le data.oracleScore i
  have hdoge := dogeRoot_le (dogeFactor_le b data i)
  refine sint64_share (Nat.div_le_of_le_mul ((Nat.mod_le _ _).trans ?_))
  calc REVENUE_IPC * _ * _ * _
      ≤ REVENUE_IPC * REVENUE_SCALE * REVENUE_SCALE * REVENUE_SCALE := by gcongr
    _ = REVENUE_SCALE * REVENUE_SCALE * REVENUE_SCALE * REVENUE_IPC := by decide

lemma computorRevenue_share :
    0 ≤ computorRevenue b data m i ∧ computorRevenue b data m i ≤ REVENUE_IPC := by
  unfold computorRevenue
  split_ifs
  · exact computeMultiDimRevenue_share b data m i
  · exact computeRevenueV2_share b data i

/-! ## Donations -/

def donated (donations : List (M256i × Int)) : Int := (donations.map Prod.snd).sum

lemma donation_bounds {revenue amount : Int} (hr : 0 ≤ revenue) (hipc : revenue ≤ REVENUE_IPC)
    (ha : 0 < amount) (ha' : amount ≤ 1000000) :
    0 ≤ (sint64 (revenue * amount)).tdiv 1000000 ∧
      (sint64 (revenue * amount)).tdiv 1000000 ≤ revenue := by
  have hconst : (REVENUE_IPC : Int) = 1479289940 := by decide
  have hlow : 0 ≤ revenue * amount := by positivity
  have hhigh : revenue * amount ≤ revenue * 1000000 := by gcongr
  rw [sint64_eq (by omega) (by omega), Int.tdiv_eq_ediv_of_nonneg hlow]
  exact ⟨Int.ediv_nonneg hlow (by norm_num), Int.ediv_le_of_le_mul (by norm_num) hhigh⟩

/-- Donations and rest of a revenue: nothing is negative and nothing is lost. -/
lemma donate_spec (epoch : Nat) (entries : List RevenueDonationEntry) {revenue : Int}
    (hr : 0 ≤ revenue) (hipc : revenue ≤ REVENUE_IPC) :
    (∀ d ∈ (donate epoch entries revenue).1, 0 ≤ d.2) ∧
    0 ≤ (donate epoch entries revenue).2 ∧
    donated (donate epoch entries revenue).1 + (donate epoch entries revenue).2 = revenue := by
  induction entries generalizing revenue with
  | nil => simpa [donate, donated] using hr
  | cons entry entries ih =>
    rw [donate]
    split_ifs with hzero hactive
    · simpa [donated] using hr
    · obtain ⟨hlow, hhigh⟩ := donation_bounds hr hipc hactive.1 hactive.2.1
      have hconst : (REVENUE_IPC : Int) = 1479289940 := by decide
      have hrest : sint64 (revenue - (sint64 (revenue * entry.millionthAmount)).tdiv 1000000) =
          revenue - (sint64 (revenue * entry.millionthAmount)).tdiv 1000000 :=
        sint64_eq (by omega) (by omega)
      simp only [hrest]
      obtain ⟨hnonneg, hleft, hsum⟩ := ih (Int.sub_nonneg.mpr hhigh) (by omega)
      refine ⟨?_, hleft, ?_⟩
      · exact forall_mem_cons.mpr ⟨hlow, hnonneg⟩
      · simp only [donated, map_cons, sum_cons] at hsum ⊢
        omega
    · exact ih hr hipc

/-! ## The issuance -/

def Issuance.total (issuance : Issuance) : Int :=
  (issuance.computors.map fun p => donated p.donations + p.received).sum +
    issuance.arbitratorRevenue

structure Payment.Fair (p : Payment) : Prop where
  donations_nonneg : ∀ d ∈ p.donations, 0 ≤ d.2
  received_nonneg : 0 ≤ p.received
  received_le : p.received ≤ ISSUANCE_RATE / NUMBER_OF_COMPUTORS
  donated_le : donated p.donations ≤ p.revenue

lemma pay_foldl (epoch : Nat) (emissionDist : Nat → RevenueDonationEntry) {revenue : Nat → Int}
    (hrevenue : ∀ i, 0 ≤ revenue i ∧ revenue i ≤ REVENUE_IPC) {n : Nat}
    (hn : n ≤ NUMBER_OF_COMPUTORS) :
    let issuance := (List.range n).foldl (pay epoch emissionDist revenue) ⟨[], ISSUANCE_RATE⟩
    issuance.total = ISSUANCE_RATE ∧ (∀ p ∈ issuance.computors, p.Fair) ∧
      issuance.computors.length = n ∧
      ISSUANCE_RATE - n * REVENUE_IPC ≤ issuance.arbitratorRevenue ∧
      issuance.arbitratorRevenue ≤ ISSUANCE_RATE := by
  have hipc : (REVENUE_IPC : Int) = 1479289940 := by decide
  have hshare : ISSUANCE_RATE / NUMBER_OF_COMPUTORS = (REVENUE_IPC : Int) := by decide
  have hrate : ISSUANCE_RATE = 1000000000000 := rfl
  have hcount : NUMBER_OF_COMPUTORS = 676 := rfl
  refine Library.Cells.foldl_range (P := fun k (issuance : Issuance) =>
    issuance.total = ISSUANCE_RATE ∧ (∀ p ∈ issuance.computors, p.Fair) ∧
      issuance.computors.length = k ∧
      ISSUANCE_RATE - k * REVENUE_IPC ≤ issuance.arbitratorRevenue ∧
      issuance.arbitratorRevenue ≤ ISSUANCE_RATE) ?_ ?_
  · simp [Issuance.total]
  · rintro k hk issuance ⟨htotal, hfair, hlength, hlow, hhigh⟩
    obtain ⟨hr, hr'⟩ := hrevenue k
    obtain ⟨hnonneg, hreceived, hsum⟩ :=
      donate_spec epoch ((List.range donationCapacity).map emissionDist) hr hr'
    have harb : sint64 (issuance.arbitratorRevenue - revenue k) =
        issuance.arbitratorRevenue - revenue k := by
      refine sint64_eq ?_ ?_ <;> rw [hipc, hrate] at * <;> omega
    simp only [pay, harb]
    have hdonated : 0 ≤ donated (donate epoch
        ((List.range donationCapacity).map emissionDist) (revenue k)).1 :=
      sum_nonneg fun x hx => by
        obtain ⟨d, hd, rfl⟩ := mem_map.mp hx
        exact hnonneg d hd
    refine ⟨?_, fun p hp => ?_, by simp [hlength], ?_, by omega⟩
    · simp only [Issuance.total, map_append, sum_append, map_cons, map_nil,
        sum_cons, sum_nil] at htotal ⊢
      omega
    · obtain hp | hp := mem_append.mp hp
      · exact hfair p hp
      · obtain rfl := mem_singleton.mp hp
        refine ⟨hnonneg, hreceived, ?_, ?_⟩
        · dsimp only
          omega
        · dsimp only
          omega
    · rw [hipc] at *
      omega

/-- Every issuance credits exactly `ISSUANCE_RATE`. No amount is negative, no computor receives
more than its share, and its donations do not exceed its revenue. -/
theorem issue_exact {b : Build} {totalAmount : Int} {data : EpochRevenueData}
    {m : MultiDimRevenue} {epoch : Nat} {emissionDist : Nat → RevenueDonationEntry}
    {issuance : Issuance} (h : issue b totalAmount data m epoch emissionDist = some issuance) :
    issuance.total = ISSUANCE_RATE ∧ issuance.computors.length = NUMBER_OF_COMPUTORS ∧
      (∀ p ∈ issuance.computors, p.Fair) ∧ 0 ≤ issuance.arbitratorRevenue := by
  unfold issue at h
  split_ifs at h
  obtain rfl := Option.some.inj h
  obtain ⟨htotal, hfair, hlength, hlow, -⟩ :=
    pay_foldl epoch emissionDist (computorRevenue_share b data m) le_rfl
  refine ⟨htotal, hlength, hfair, le_trans ?_ hlow⟩
  decide

/-- One entry of the donation table is active, another one belongs to a later epoch. -/
def sampleTable : RevenueDonationEntry :=
  if i = 0 then ⟨⟨7⟩, 120000, 3⟩ else if i = 1 then ⟨⟨8⟩, 500000, 9⟩ else ⟨0, 0, 0⟩

def sampleData : EpochRevenueData := ⟨100, 0, fun i => i, fun _ => 0, fun _ => 0⟩

/-- All scores are equal, so that only the oracle scores lower a revenue. -/
def sampleScores : MultiDimRevenue := { beginEpoch 100 with txScore := fun _ => 1 }

theorem issue_exact_sample :
    ∃ issuance, issue ⟨true, true, 2, fun n => n⟩ 0 sampleData sampleScores 5 sampleTable =
      some issuance ∧ issuance.total = ISSUANCE_RATE :=
  have h : issue ⟨true, true, 2, fun n => n⟩ 0 sampleData sampleScores 5 sampleTable =
      some _ := if_pos (by decide)
  ⟨_, h, (issue_exact h).1⟩

end QubicCore.Revenue
