import QubicCore.Proposals.Basic

/-!
# The result of a scalar vote

The mean of the votes is computed in one of two ways. Where the sum of the votes could overflow,
quotients and remainders are summed apart. This mean is off by one if the votes and their remainders
have sums of opposite signs and the mean is not a whole number. Divisions truncate toward zero.
-/

namespace QubicCore.Proposals

/-- A proposal of type `VariableScalarMean` with the votes cast for it. -/
structure ScalarVotes where
  maxVotes : Nat
  (minValue maxValue : Int)
  getVoteValue : Nat → Int
  minValue_gt : NO_VOTE_VALUE < minValue
  maxValue_lt : maxValue < 2 ^ 63
  valid : ∀ i < maxVotes, getVoteValue i = NO_VOTE_VALUE ∨
    minValue ≤ getVoteValue i ∧ getVoteValue i ≤ maxValue

open List

namespace ScalarVotes

/-- The loop `accumulation += f(value)` over `sint64` numbers. -/
def accumulate (f : Int → Int) (values : List Int) : Int :=
  values.foldl (fun accumulation value => sint64 (accumulation + f value)) 0

variable (p : ScalarVotes)

/-- The votes that the loops do not skip. -/
def casted : List Int := ((range p.maxVotes).map p.getVoteValue).filter (· ≠ NO_VOTE_VALUE)

def totalVotesCasted : Int := p.casted.length

def avoidsOverflow : Bool :=
  p.maxValue > Int.tdiv (2 ^ 63 - 1) p.maxVotes ∨ p.minValue < Int.tdiv (-(2 ^ 63 - 1)) p.maxVotes

/-- The result of `__getVotingSummaryScalarVotes`. -/
def scalarVotingResult : Int :=
  if p.avoidsOverflow then
    if p.totalVotesCasted ≠ 0 then
      let accumulation := accumulate (Int.tdiv · p.totalVotesCasted) p.casted
      let acc2 := accumulate (Int.tmod · p.totalVotesCasted) p.casted
      sint64 (accumulation + acc2.tdiv p.totalVotesCasted)
    else 0
  else
    let accumulation := accumulate id p.casted
    if p.totalVotesCasted ≠ 0 then accumulation.tdiv p.totalVotesCasted else accumulation

/-- No value of the accumulator overflows. -/
def Fits (f : Int → Int) (values : List Int) : Prop :=
  ∀ k, -2 ^ 63 ≤ ((values.take k).map f).sum ∧ ((values.take k).map f).sum < 2 ^ 63

def remainders : Int := (p.casted.map (Int.tmod · p.totalVotesCasted)).sum

/-- The mean of the quotients and remainders, without overflow. -/
def mean : Int :=
  (p.casted.map (Int.tdiv · p.totalVotesCasted)).sum + p.remainders.tdiv p.totalVotesCasted

def rest : Int := p.remainders.tmod p.totalVotesCasted

/-- No `sint64` number that is computed overflows. -/
def NoOverflow : Prop :=
  if p.avoidsOverflow then
    Fits (Int.tdiv · p.totalVotesCasted) p.casted ∧ Fits (Int.tmod · p.totalVotesCasted) p.casted ∧
      -2 ^ 63 ≤ p.mean ∧ p.mean < 2 ^ 63
  else Fits id p.casted

/-- The sum of the votes, which their number does not divide, and the sum of their remainders have
opposite signs. -/
def OppositeSigns : Prop := ¬p.totalVotesCasted ∣ p.casted.sum ∧
  (0 < p.casted.sum ∧ p.remainders < 0 ∨ p.casted.sum < 0 ∧ 0 < p.remainders)

/-! ## Sums that fit -/

variable {p} {f : Int → Int} {values : List Int} {a b n : Int}

lemma Fits.accumulate_eq (h : Fits f values) : accumulate f values = (values.map f).sum := by
  induction values using reverseRecOn with
  | nil => rfl
  | append_singleton values v ih =>
    have hlast := h (values.length + 1)
    have hrest : Fits f values := fun k => by
      have := h (min k values.length)
      rwa [take_append_of_le_length (min_le_right ..), ← take_eq_take_min] at this
    rw [take_of_length_le (by simp)] at hlast
    simp only [map_append, sum_append, map_cons, map_nil, sum_cons, sum_nil, add_zero] at hlast ⊢
    rw [← ih hrest] at hlast ⊢
    simp only [accumulate, foldl_append, foldl_cons, foldl_nil]
    exact sint64_eq hlast.1 hlast.2

lemma fits_of_abs_le (hb : 0 ≤ b) (h : ∀ v ∈ values, |f v| ≤ b)
    (hlt : values.length * b < 2 ^ 63) : Fits f values := by
  intro k
  have hle : ((values.take k).length : Int) * b ≤ values.length * b := by
    gcongr
    simp
  have hmem {v} (hv : v ∈ (values.take k).map f) : |v| ≤ b := by
    obtain ⟨u, hu, rfl⟩ := mem_map.mp hv
    exact h u (mem_of_mem_take hu)
  have hl := card_nsmul_le_sum _ (-b) fun v hv => neg_le_of_abs_le (hmem hv)
  have hu := sum_le_card_nsmul _ b fun v hv => le_of_abs_le (hmem hv)
  simp only [length_map, nsmul_eq_mul, mul_neg] at hl hu
  omega

/-! ## Division -/

lemma abs_tmod_lt (hn : 0 < n) : |a.tmod n| < n := by
  have := Nat.mod_lt a.natAbs (Int.natAbs_pos.mpr hn.ne')
  rw [Int.abs_eq_natAbs, Int.natAbs_tmod]
  omega

lemma ediv_eq_iff (hn : 0 < n) (ha : 0 ≤ a) (hl : -n < a - n * b) (hu : a - n * b < n) :
    a / n = b ↔ ¬(0 < b ∧ a - n * b < 0) := by
  have hb : 0 ≤ b := by nlinarith
  rw [Int.ediv_eq_iff_of_pos hn]
  constructor
  · rintro ⟨hle, -⟩ ⟨-, hneg⟩
    linarith
  · intro h
    have hle : n * b ≤ a := by
      obtain rfl | hpos := hb.eq_or_lt
      · simpa using ha
      · by_contra hlt
        exact h ⟨hpos, by linarith⟩
    constructor <;> linarith

/-- A quotient that misses less than one is the truncated one, unless it is rounded away from
zero. -/
lemma tdiv_eq_iff (hn : 0 < n) (h : |a - n * b| < n) :
    a.tdiv n = b ↔ ¬(0 < b ∧ a - n * b < 0 ∨ b < 0 ∧ 0 < a - n * b) := by
  rw [abs_lt] at h
  obtain ha | ha := le_total 0 a
  · have hb : 0 ≤ b := by nlinarith
    rw [Int.tdiv_eq_ediv_of_nonneg ha, ediv_eq_iff hn ha h.1 h.2]
    simp [hb.not_gt]
  · have hb : b ≤ 0 := by nlinarith
    have hneg := ediv_eq_iff (a := -a) (b := -b) hn (by omega) (by linarith) (by linarith)
    rw [← Int.tdiv_eq_ediv_of_nonneg (by omega), Int.neg_tdiv, neg_inj] at hneg
    rw [hneg]
    simp [hb.not_gt]

lemma sum_tdiv_add_sum_tmod :
    n * (values.map (Int.tdiv · n)).sum + (values.map (Int.tmod · n)).sum = values.sum := by
  induction values with
  | nil => simp
  | cons v values ih =>
    simp only [map_cons, sum_cons]
    linarith [Int.mul_tdiv_add_tmod v n]

/-! ## The mean -/

lemma sum_sub_mean : p.casted.sum - p.totalVotesCasted * p.mean = p.rest := by
  have hsum := @sum_tdiv_add_sum_tmod p.casted p.totalVotesCasted
  have hdiv := Int.mul_tdiv_add_tmod p.remainders p.totalVotesCasted
  unfold mean rest
  unfold remainders at *
  linarith

lemma totalVotesCasted_pos (h : p.casted ≠ []) : 0 < p.totalVotesCasted := by
  simpa [totalVotesCasted] using length_pos_iff.mpr h

lemma abs_sum_sub_mean_lt (h : p.casted ≠ []) :
    |p.casted.sum - p.totalVotesCasted * p.mean| < p.totalVotesCasted := by
  rw [sum_sub_mean]
  exact abs_tmod_lt (totalVotesCasted_pos h)

lemma dvd_sum_iff : p.totalVotesCasted ∣ p.casted.sum ↔ p.rest = 0 := by
  rw [rest, ← Int.dvd_iff_tmod_eq_zero, ← @sum_tdiv_add_sum_tmod p.casted p.totalVotesCasted]
  exact Int.dvd_add_right (Int.dvd_mul_right ..)

lemma oppositeSigns_iff (h : p.casted ≠ []) :
    p.OppositeSigns ↔ 0 < p.mean ∧ p.rest < 0 ∨ p.mean < 0 ∧ 0 < p.rest := by
  have hn := totalVotesCasted_pos h
  have hsum := @sum_sub_mean p
  have hrest := abs_lt.mp (hsum ▸ abs_sum_sub_mean_lt h)
  -- the rest has the sign of the sum of the remainders
  have hnonneg : 0 ≤ p.remainders → 0 ≤ p.rest := fun hle => Int.tmod_nonneg _ hle
  have hnonpos : p.remainders ≤ 0 → p.rest ≤ 0 := fun hle => by
    have := Int.tmod_nonneg p.totalVotesCasted (neg_nonneg.mpr hle)
    rw [Int.neg_tmod] at this
    exact neg_nonneg.mp this
  rw [OppositeSigns, dvd_sum_iff]
  constructor
  · rintro ⟨hne, ⟨hS, hR⟩ | ⟨hS, hR⟩⟩
    · exact .inl ⟨by nlinarith [hnonpos hR.le], lt_of_le_of_ne (hnonpos hR.le) hne⟩
    · exact .inr ⟨by nlinarith [hnonneg hR.le], lt_of_le_of_ne (hnonneg hR.le) (Ne.symm hne)⟩
  · rintro (⟨hmean, hneg⟩ | ⟨hmean, hpos⟩)
    · exact ⟨hneg.ne, .inl ⟨by nlinarith, by by_contra hle; omega⟩⟩
    · exact ⟨hpos.ne', .inr ⟨by nlinarith, by by_contra hle; omega⟩⟩

/-- A mean that misses less than one lies between the least and the greatest vote. -/
lemma between (hmean : |p.casted.sum - p.totalVotesCasted * b| < p.totalVotesCasted)
    {least greatest : Int} (h : ∀ v ∈ p.casted, least ≤ v ∧ v ≤ greatest) :
    least ≤ b ∧ b ≤ greatest := by
  have hl := card_nsmul_le_sum p.casted least fun v hv => (h v hv).1
  have hu := sum_le_card_nsmul p.casted greatest fun v hv => (h v hv).2
  simp only [nsmul_eq_mul] at hl hu
  simp only [abs_lt, totalVotesCasted] at hmean
  constructor <;> by_contra hlt <;> nlinarith

lemma mem_casted {v : Int} (h : v ∈ p.casted) : p.minValue ≤ v ∧ v ≤ p.maxValue := by
  simp only [casted, mem_filter, mem_map, mem_range, decide_eq_true_eq] at h
  obtain ⟨⟨i, hi, rfl⟩, hne⟩ := h
  exact (p.valid i hi).resolve_left hne

lemma fits_of_le_div {m : Nat} (hle : p.casted.length ≤ m)
    (h : ∀ v ∈ p.casted, |f v| ≤ ((2 ^ 63 - 1) / m : Nat)) : Fits f p.casted := by
  refine fits_of_abs_le (by positivity) h ?_
  have := Nat.mul_div_le (2 ^ 63 - 1) m
  have := Nat.mul_le_mul_right ((2 ^ 63 - 1) / m) hle
  exact_mod_cast (by omega : p.casted.length * ((2 ^ 63 - 1) / m) < 2 ^ 63)

lemma noOverflow_of_le (hmany : p.maxVotes ≤ 3037000500) : p.NoOverflow := by
  have hmin := p.minValue_gt
  have hmax := p.maxValue_lt
  have hlen : p.casted.length ≤ p.maxVotes := (length_filter_le ..).trans (by simp)
  unfold NoOverflow
  unfold NO_VOTE_VALUE at hmin
  split
  · obtain hnil | hne := eq_or_ne p.casted []
    · simp [Fits, mean, remainders, hnil]
    have hpos := totalVotesCasted_pos hne
    refine ⟨fits_of_le_div le_rfl fun v hv => ?_, ?_, ?_⟩
    · have := mem_casted hv
      rw [Int.abs_eq_natAbs, Int.natAbs_tdiv, totalVotesCasted, Int.natAbs_natCast]
      exact_mod_cast Nat.div_le_div_right (by omega)
    · refine fits_of_abs_le (by omega)
        (fun v hv => Int.le_sub_one_of_lt (abs_tmod_lt hpos)) ?_
      unfold totalVotesCasted at *
      nlinarith
    · have := between (abs_sum_sub_mean_lt hne) fun v hv => mem_casted hv
      omega
  · rename_i hsmall
    refine fits_of_le_div hlen fun v hv => ?_
    have := mem_casted hv
    simp only [avoidsOverflow, Int.neg_tdiv, decide_eq_true_eq, not_or, not_lt] at hsmall
    have hdiv : Int.tdiv (2 ^ 63 - 1) p.maxVotes = ((2 ^ 63 - 1) / p.maxVotes : Nat) := rfl
    rw [id, abs_le]
    omega

lemma scalarVotingResult_eq (h : p.NoOverflow) : p.scalarVotingResult =
    if p.avoidsOverflow then p.mean else p.casted.sum.tdiv p.totalVotesCasted := by
  unfold scalarVotingResult
  unfold NoOverflow at h
  obtain hnil | hne := eq_or_ne p.casted []
  · simp [totalVotesCasted, mean, remainders, accumulate, hnil]
  rw [if_pos (totalVotesCasted_pos hne).ne']
  split
  · rename_i havoid
    rw [if_pos havoid] at h
    obtain ⟨hquot, hrem, hl, hu⟩ := h
    rw [hquot.accumulate_eq, hrem.accumulate_eq]
    exact sint64_eq hl hu
  · rename_i hsmall
    rw [if_neg hsmall] at h
    rw [h.accumulate_eq, map_id, if_pos (totalVotesCasted_pos hne).ne']

/-- With at most 3037000500 votes nothing overflows, and the result lies between the least and the
greatest vote. It is the exact mean, truncated toward zero, unless quotients and remainders are
summed apart and the sums have opposite signs. -/
theorem scalarVotingResult_exact_iff (p : ScalarVotes) (hmany : p.maxVotes ≤ 3037000500) :
    p.NoOverflow ∧
    (p.casted ≠ [] → ∀ least greatest, (∀ v ∈ p.casted, least ≤ v ∧ v ≤ greatest) →
      least ≤ p.scalarVotingResult ∧ p.scalarVotingResult ≤ greatest) ∧
    (p.scalarVotingResult = p.casted.sum.tdiv p.totalVotesCasted ↔
      ¬(p.avoidsOverflow ∧ p.OppositeSigns)) := by
  have h := noOverflow_of_le hmany
  refine ⟨h, fun hne least greatest hmem => ?_, ?_⟩
  · rw [scalarVotingResult_eq h]
    split
    · exact between (abs_sum_sub_mean_lt hne) hmem
    · refine between ?_ hmem
      rw [← Int.tmod_def]
      exact abs_tmod_lt (totalVotesCasted_pos hne)
  · rw [scalarVotingResult_eq h]
    split
    · rename_i havoid
      obtain hnil | hne := eq_or_ne p.casted []
      · simp [OppositeSigns, mean, remainders, totalVotesCasted, hnil]
      · rw [eq_comm, tdiv_eq_iff (totalVotesCasted_pos hne) (abs_sum_sub_mean_lt hne), sum_sub_mean,
          oppositeSigns_iff hne]
        simp [havoid]
    · rename_i hsmall
      simp [hsmall]

/-- Three votes of 3, -1 and 0 have the mean 2/3, which is cut off to 0. -/
def oddVotes : ScalarVotes where
  maxVotes := NUMBER_OF_COMPUTORS
  minValue := -1
  maxValue := 2 ^ 63 - 1
  getVoteValue i := [3, -1, 0].getD i NO_VOTE_VALUE
  minValue_gt := by decide
  maxValue_lt := by decide
  valid i _ := by
    match i with
    | 0 | 1 | 2 => decide
    | i + 3 => exact Or.inl rfl

theorem scalarVotingResult_exact_iff_oddVotes : oddVotes.NoOverflow ∧
    oddVotes.scalarVotingResult ≤ 3 ∧ oddVotes.avoidsOverflow ∧ oddVotes.OppositeSigns := by
  obtain ⟨hfits, hbetween, hexact⟩ := scalarVotingResult_exact_iff oddVotes (by decide)
  refine ⟨hfits, (hbetween (by decide +kernel) (-1) 3 (by decide +kernel)).2, ?_⟩
  by_contra hsigns
  exact absurd (hexact.mpr hsigns) (by decide +kernel)

theorem oddVotes_result : oddVotes.casted = [3, -1, 0] ∧ oddVotes.scalarVotingResult = 1 ∧
    oddVotes.casted.sum.tdiv oddVotes.totalVotesCasted = 0 := by
  decide +kernel

end ScalarVotes

end QubicCore.Proposals
