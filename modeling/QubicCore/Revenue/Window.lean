import QubicCore.Library.CircularWindow
import QubicCore.Revenue.Basic

/-!
# Every tick is scored once, from the window around it

The specification looks at the whole epoch at once: a tick is scored from the circular window
centred on it. Feeding the ticks one by one scores the inner ticks with a delay, and
`scoreEpochEdgeTicks` the others from the ring buffer and the head of the epoch.
-/

namespace QubicCore.Revenue

open Library.Cells Library.CircularWindow Finset Function Nat

variable {n : Nat} {s : Nat}

def row (obs : Nat → Nat → Nat) (t d : Nat) : Nat := obs t d % 2 ^ 16

/-- The score of a tick from the circular window of an epoch of `n` ticks. -/
def directScore (contractCount n : Nat) (obs : Nat → Nat → Nat) (c : Nat) : Nat :=
  tickScore contractCount (row obs c) fun d => window n REVENUE_HALF_WINDOW (row obs · d) c

def feed (contractCount initialTick : Nat) (obs : Nat → Nat → Nat) (n : Nat) : MultiDimRevenue :=
  (List.range n).foldl (fun m t => revenueOnTick contractCount m t (obs t)) (beginEpoch initialTick)

lemma row_le (obs : Nat → Nat → Nat) (t d : Nat) : row obs t d ≤ 2 ^ 16 - 1 :=
  le_sub_one_of_lt (mod_lt _ (by norm_num))

lemma window_row_lt (n : Nat) (obs : Nat → Nat → Nat) (d c : Nat) :
    window n REVENUE_HALF_WINDOW (row obs · d) c < 2 ^ 64 :=
  (window_le _ (row_le obs · d)).trans_lt (by decide)

/-! ## The buffers -/

/-- What the buffers hold after the first `t` ticks. -/
structure Fed (obs : Nat → Nat → Nat) (t : Nat) (m : MultiDimRevenue) : Prop where
  ring : ∀ x < t, t ≤ x + REVENUE_WINDOW_SIZE → m.ringRow x = row obs x
  head : ∀ x < t, x < 2 * REVENUE_HALF_WINDOW → m.revenueHead x = row obs x
  sums : ∀ d, m.windowSum d = ∑ x ∈ Ico (t - REVENUE_WINDOW_SIZE) t, row obs x d

variable {contractCount initialTick : Nat} {obs : Nat → Nat → Nat} {m : MultiDimRevenue}

lemma fed_beginEpoch (initialTick : Nat) (obs : Nat → Nat → Nat) :
    Fed obs 0 (beginEpoch initialTick) :=
  ⟨fun x hx => absurd hx (not_lt_zero x), fun x hx => absurd hx (not_lt_zero x),
    fun d => by simp [beginEpoch]⟩

lemma Fed.finalizeTickScore {t : Nat} (h : Fed obs t m) (c : Nat) (observed windowSum : Nat → Nat) :
    Fed obs t (finalizeTickScore contractCount m c observed windowSum) :=
  ⟨h.ring, h.head, h.sums⟩

lemma windowSize_eq : REVENUE_WINDOW_SIZE = 1351 := rfl

lemma halfWindow_eq : REVENUE_HALF_WINDOW = 675 := rfl

-- the windows are far too long to be unfolded
attribute [local irreducible] REVENUE_HALF_WINDOW REVENUE_WINDOW_SIZE

lemma sum_rows_lt (obs : Nat → Nat → Nat) (t d : Nat) :
    ∑ x ∈ Ico (t - REVENUE_WINDOW_SIZE) t, row obs x d < 2 ^ 64 := by
  have hle := sum_le_card_nsmul (Ico (t - REVENUE_WINDOW_SIZE) t) (row obs · d) (2 ^ 16 - 1)
    fun x _ => row_le obs x d
  rw [card_Ico, smul_eq_mul] at hle
  refine hle.trans_lt (lt_of_le_of_lt (mul_le_mul_right _ ?_)
    (by rw [windowSize_eq]; norm_num : REVENUE_WINDOW_SIZE * (2 ^ 16 - 1) < 2 ^ 64))
  omega

/-- The sums of the next window: the tick that falls out, if any, is exchanged for the new one. -/
lemma sum_rows_succ (obs : Nat → Nat → Nat) (t d : Nat) :
    ∑ x ∈ Ico (t + 1 - REVENUE_WINDOW_SIZE) (t + 1), row obs x d +
        (if REVENUE_WINDOW_SIZE ≤ t then row obs (t - REVENUE_WINDOW_SIZE) d else 0) =
      ∑ x ∈ Ico (t - REVENUE_WINDOW_SIZE) t, row obs x d + row obs t d := by
  rw [sum_Ico_succ_top (by rw [windowSize_eq]; omega)]
  split_ifs with hfull
  · rw [sum_eq_sum_Ico_succ_bot (a := t - REVENUE_WINDOW_SIZE)
      (by rw [windowSize_eq] at *; omega),
      show t - REVENUE_WINDOW_SIZE + 1 = t + 1 - REVENUE_WINDOW_SIZE by omega]
    ring
  · rw [show t + 1 - REVENUE_WINDOW_SIZE = t - REVENUE_WINDOW_SIZE by omega, add_zero]

lemma Fed.recordTick {t : Nat} (h : Fed obs t m) : Fed obs (t + 1) (recordTick m t (obs t)) := by
  refine ⟨fun x hx hlast => ?_, fun x hx hhead => ?_, fun d => ?_⟩
  · by_cases hxt : x = t
    · rw [hxt]
      exact update_self ..
    · have hslot : x % REVENUE_WINDOW_SIZE ≠ t % REVENUE_WINDOW_SIZE := by
        rw [windowSize_eq] at hlast ⊢
        omega
      rw [← h.ring x (by omega) (by omega)]
      exact update_of_ne hslot ..
  · simp only [Revenue.recordTick]
    by_cases hxt : x = t
    · rw [hxt, if_pos (hxt ▸ hhead), update_self]
      rfl
    · rw [← h.head x (by omega) hhead]
      split_ifs
      · exact update_of_ne hxt ..
      · rfl
  · have hsucc := sum_rows_succ obs t d
    have hlt := sum_rows_lt obs (t + 1) d
    have hrow := row_le obs t d
    simp only [Revenue.recordTick]
    split_ifs with hfull
    · have hslot : m.ringRow t = row obs (t - REVENUE_WINDOW_SIZE) := by
        rw [← h.ring (t - REVENUE_WINDOW_SIZE) (by rw [windowSize_eq] at *; omega) (by omega)]
        unfold MultiDimRevenue.ringRow
        rw [← mod_eq_sub_mod hfull]
      rw [if_pos hfull] at hsucc
      simp only [hslot, h.sums, ← row.eq_def obs t d]
      omega
    · rw [if_neg hfull] at hsucc
      rw [h.sums, ← row.eq_def obs t d]
      omega

/-! ## The scores -/

structure Scored (initialTick : Nat) (score : Nat → Nat) (ticks : List Nat)
    (m : MultiDimRevenue) : Prop where
  start : m.initialTick = initialTick
  finalized : m.finalized = ticks.map fun c => (c, score c)
  txScore : ∀ j, m.txScore j =
    ((ticks.filter fun c => leader initialTick c = j).map score).sum % 2 ^ 64

lemma Scored.finalizeTickScore {score : Nat → Nat} {ticks : List Nat}
    (h : Scored initialTick score ticks m) {c : Nat} {observed windowSum : Nat → Nat}
    (hscore : tickScore contractCount observed windowSum = score c) :
    Scored initialTick score (ticks ++ [c])
      (finalizeTickScore contractCount m c observed windowSum) := by
  refine ⟨h.start, ?_, fun j => ?_⟩
  · simp [Revenue.finalizeTickScore, h.finalized, hscore]
  · simp only [Revenue.finalizeTickScore, h.start, hscore, List.filter_append,
      List.map_append, List.sum_append]
    by_cases hj : leader initialTick c = j
    · subst hj
      rw [update_self, h.txScore]
      simp
    · rw [update_of_ne (Ne.symm hj), h.txScore]
      simp [hj]

/-- The buffers and scores after the first `t` of `n` ticks. -/
lemma feed_spec (contractCount initialTick : Nat) (obs : Nat → Nat → Nat) (n : Nat) :
    Fed obs n (feed contractCount initialTick obs n) ∧
    Scored initialTick (directScore contractCount n obs)
      ((List.range (n - 2 * REVENUE_HALF_WINDOW)).map (· + REVENUE_HALF_WINDOW))
      (feed contractCount initialTick obs n) := by
  refine foldl_range (P := fun t m => Fed obs t m ∧
    Scored initialTick (directScore contractCount n obs)
      ((List.range (t - 2 * REVENUE_HALF_WINDOW)).map (· + REVENUE_HALF_WINDOW)) m)
    ⟨fed_beginEpoch initialTick obs, rfl, by simp [beginEpoch], by simp [beginEpoch]⟩ ?_
  rintro t ht m ⟨hfed, hscored⟩
  have hrecord := hfed.recordTick
  have hscored' : Scored initialTick (directScore contractCount n obs) _
    (recordTick m t (obs t)) := ⟨hscored.start, hscored.finalized, hscored.txScore⟩
  unfold revenueOnTick
  split_ifs with hfull
  · refine ⟨hrecord.finalizeTickScore _ _ _, ?_⟩
    -- the window of the centred tick is complete and does not wrap
    have hc : t - REVENUE_HALF_WINDOW = t - 2 * REVENUE_HALF_WINDOW + REVENUE_HALF_WINDOW := by
      omega
    have hticks : (List.range (t + 1 - 2 * REVENUE_HALF_WINDOW)).map (· + REVENUE_HALF_WINDOW) =
        (List.range (t - 2 * REVENUE_HALF_WINDOW)).map (· + REVENUE_HALF_WINDOW) ++
          [t - REVENUE_HALF_WINDOW] := by
      rw [succ_sub hfull, List.range_succ, List.map_append, hc]
      rfl
    rw [hticks]
    refine hscored'.finalizeTickScore ?_
    rw [directScore, hrecord.ring _ (by omega) (by rw [windowSize_eq, halfWindow_eq] at *; omega)]
    refine congrArg (tickScore contractCount _) (funext fun d => ?_)
    have hlow : t + 1 - REVENUE_WINDOW_SIZE = t - REVENUE_HALF_WINDOW - REVENUE_HALF_WINDOW := by
      rw [windowSize_eq, halfWindow_eq]
      omega
    have hhigh : t - REVENUE_HALF_WINDOW + REVENUE_HALF_WINDOW + 1 = t + 1 := by omega
    rw [hrecord.sums, window_interior _ (by omega) (by omega), hlow, hhigh]
  · have hnone : t + 1 - 2 * REVENUE_HALF_WINDOW = t - 2 * REVENUE_HALF_WINDOW := by omega
    rw [hnone]
    exact ⟨hrecord, hscored'⟩

/-! ## The edges of the epoch -/

/-- The tick that step `s` of the loop over the edge ticks scores. -/
def edgeTick (n s : Nat) : Nat :=
  if s < REVENUE_HALF_WINDOW then n - REVENUE_HALF_WINDOW + s else s - REVENUE_HALF_WINDOW

lemma Fed.obsAt {x : Nat} (h : Fed obs n m) (hx : x < n)
    (hlast : x < 2 * REVENUE_HALF_WINDOW ∨ n ≤ x + REVENUE_WINDOW_SIZE) :
    m.obsAt x = row obs x := by
  unfold MultiDimRevenue.obsAt
  split_ifs with hhead
  · exact h.head x hx hhead
  · exact h.ring x hx (hlast.resolve_left hhead)

lemma firstEdgeWindow_eq (h : Fed obs n m) (hn : REVENUE_WINDOW_SIZE ≤ n) (d : Nat) :
    firstEdgeWindow m n d =
      window n REVENUE_HALF_WINDOW (row obs · d) (n - REVENUE_HALF_WINDOW) := by
  have hsum : (List.range (2 * REVENUE_HALF_WINDOW)).foldl (fun sum k =>
      (sum + m.ringRow (n - 2 * REVENUE_HALF_WINDOW + k) d) % 2 ^ 64) 0 =
        (∑ k ∈ range (2 * REVENUE_HALF_WINDOW),
          row obs (n - 2 * REVENUE_HALF_WINDOW + k) d) % 2 ^ 64 := by
    refine foldl_range (P := fun i sum => sum =
      (∑ k ∈ range i, row obs (n - 2 * REVENUE_HALF_WINDOW + k) d) % 2 ^ 64) rfl ?_
    rintro k hk _ rfl
    rw [windowSize_eq] at hn
    rw [halfWindow_eq] at hk ⊢
    rw [sum_range_succ, h.ring _ (by omega) (by rw [windowSize_eq]; omega), mod_add_mod]
  have hwindow : window n REVENUE_HALF_WINDOW (row obs · d) (n - REVENUE_HALF_WINDOW) =
      ∑ k ∈ range (2 * REVENUE_HALF_WINDOW), row obs (n - 2 * REVENUE_HALF_WINDOW + k) d +
        row obs 0 d := by
    rw [windowSize_eq] at hn
    rw [window, sum_range_succ, halfWindow_eq]
    refine congrArg₂ (· + ·) ?_ ?_
    · refine sum_congr rfl fun k hk => ?_
      have hk := mem_range.mp hk
      rw [show n - 675 + n - 675 + k = n - 2 * 675 + k + n by omega, add_mod_right,
        mod_eq_of_lt (by omega)]
    · rw [show n - 675 + n - 675 + 2 * 675 = n + n by omega, add_mod_right, mod_self]
  have hhead : m.revenueHead 0 = row obs 0 :=
    h.head 0 (by rw [windowSize_eq] at hn; omega) (by rw [halfWindow_eq]; norm_num)
  rw [firstEdgeWindow, hsum, hhead, mod_add_mod, ← hwindow,
    mod_eq_of_lt (window_row_lt n obs d _)]

lemma window_edgeTick_succ (hn : REVENUE_WINDOW_SIZE ≤ n) (hs : s + 1 < 2 * REVENUE_HALF_WINDOW)
    (f : Nat → Nat) :
    window n REVENUE_HALF_WINDOW f (edgeTick n (s + 1)) +
        f (n - 2 * REVENUE_HALF_WINDOW + s) =
      window n REVENUE_HALF_WINDOW f (edgeTick n s) + f (s + 1) := by
  rw [windowSize_eq] at hn
  have hslide := window_slide (n := n) (h := REVENUE_HALF_WINDOW) (c := edgeTick n s) f
    (by rw [halfWindow_eq]; omega)
  have hcentre : window n REVENUE_HALF_WINDOW f (edgeTick n s + 1) =
      window n REVENUE_HALF_WINDOW f (edgeTick n (s + 1)) := by
    rw [← window_mod f (by rw [halfWindow_eq]; omega)]
    refine congrArg (window n REVENUE_HALF_WINDOW f) ?_
    unfold edgeTick
    rw [halfWindow_eq] at *
    split_ifs
    · rw [mod_eq_of_lt (by omega)]
      omega
    · rw [show n - 675 + s + 1 = n by omega, mod_self]
      omega
    · omega
    · rw [mod_eq_of_lt (by omega)]
      omega
  have hleaving : (edgeTick n s + n - REVENUE_HALF_WINDOW) % n =
      n - 2 * REVENUE_HALF_WINDOW + s := by
    unfold edgeTick
    rw [halfWindow_eq] at *
    split_ifs
    · rw [show n - 675 + s + n - 675 = n - 2 * 675 + s + n by omega, add_mod_right,
        mod_eq_of_lt (by omega)]
    · rw [mod_eq_of_lt (by omega)]
      omega
  have hentering : (edgeTick n s + REVENUE_HALF_WINDOW + 1) % n = s + 1 := by
    unfold edgeTick
    rw [halfWindow_eq] at *
    split_ifs
    · rw [show n - 675 + s + 675 + 1 = s + 1 + n by omega, add_mod_right, mod_eq_of_lt (by omega)]
    · rw [mod_eq_of_lt (by omega)]
      omega
  rwa [hcentre, hleaving, hentering] at hslide

lemma edgeTick_indices (hn : REVENUE_WINDOW_SIZE ≤ n) (hs : s + 1 < 2 * REVENUE_HALF_WINDOW) :
    (if edgeTick n s ≥ REVENUE_HALF_WINDOW then edgeTick n s - REVENUE_HALF_WINDOW
      else edgeTick n s + n - REVENUE_HALF_WINDOW) = n - 2 * REVENUE_HALF_WINDOW + s ∧
    (if edgeTick n s + REVENUE_HALF_WINDOW + 1 < n then edgeTick n s + REVENUE_HALF_WINDOW + 1
      else edgeTick n s + REVENUE_HALF_WINDOW + 1 - n) = s + 1 ∧
    (if edgeTick n s + 1 < n then edgeTick n s + 1 else 0) = edgeTick n (s + 1) := by
  unfold edgeTick
  rw [windowSize_eq] at hn
  rw [halfWindow_eq] at *
  refine ⟨?_, ?_, ?_⟩ <;> split_ifs <;> omega

lemma edgeTick_lt (hn : REVENUE_WINDOW_SIZE ≤ n) (hs : s < 2 * REVENUE_HALF_WINDOW) :
    edgeTick n s < n ∧
      (edgeTick n s < 2 * REVENUE_HALF_WINDOW ∨ n ≤ edgeTick n s + REVENUE_WINDOW_SIZE) := by
  unfold edgeTick
  rw [windowSize_eq] at *
  rw [halfWindow_eq] at *
  split_ifs <;> omega

/-- What holds before step `s` of the loop over the edge ticks. -/
structure EdgeInv (contractCount initialTick : Nat) (obs : Nat → Nat → Nat) (n : Nat)
    (inner : List Nat) (s : Nat) (e : EdgeLoop) : Prop where
  fed : Fed obs n e.state
  scored : Scored initialTick (directScore contractCount n obs)
    (inner ++ (List.range s).map (edgeTick n)) e.state
  centre : s < 2 * REVENUE_HALF_WINDOW → e.c = edgeTick n s
  sums : s < 2 * REVENUE_HALF_WINDOW → ∀ d, e.edgeWindowSum d =
    window n REVENUE_HALF_WINDOW (row obs · d) (edgeTick n s)

lemma EdgeInv.edgeStep {inner : List Nat} {e : EdgeLoop}
    (h : EdgeInv contractCount initialTick obs n inner s e) (hn : REVENUE_WINDOW_SIZE ≤ n)
    (hs : s < 2 * REVENUE_HALF_WINDOW) :
    EdgeInv contractCount initialTick obs n inner (s + 1) (edgeStep contractCount n e s) := by
  have hc := h.centre hs
  have hsums := h.sums hs
  have hobs : e.state.obsAt (edgeTick n s) = row obs (edgeTick n s) :=
    h.fed.obsAt (edgeTick_lt hn hs).1 (edgeTick_lt hn hs).2
  have hscored : Scored initialTick (directScore contractCount n obs)
      (inner ++ (List.range (s + 1)).map (edgeTick n))
      (Revenue.finalizeTickScore contractCount e.state (edgeTick n s)
        (e.state.obsAt (edgeTick n s)) e.edgeWindowSum) := by
    rw [List.range_succ, List.map_append, ← List.append_assoc]
    refine h.scored.finalizeTickScore ?_
    rw [hobs, directScore]
    exact congrArg (tickScore contractCount _) (funext hsums)
  have hfed : Fed obs n (Revenue.finalizeTickScore contractCount e.state (edgeTick n s)
      (e.state.obsAt (edgeTick n s)) e.edgeWindowSum) := h.fed.finalizeTickScore _ _ _
  simp only [Revenue.edgeStep, hc]
  generalize Revenue.finalizeTickScore contractCount e.state (edgeTick n s)
    (e.state.obsAt (edgeTick n s)) e.edgeWindowSum = m at hscored hfed ⊢
  by_cases hlast : s + 1 = 2 * REVENUE_HALF_WINDOW
  · rw [if_pos hlast]
    exact ⟨hfed, hscored, fun hlt => absurd hlt (by omega), fun hlt => absurd hlt (by omega)⟩
  · obtain ⟨hleaving, hentering, hnext⟩ := edgeTick_indices hn (s := s) (by omega)
    rw [if_neg hlast, hleaving, hentering, hnext]
    refine ⟨hfed, hscored, fun _ => rfl, fun hs' d => ?_⟩
    have hslide := window_edgeTick_succ hn hs' (row obs · d)
    have hlt := window_row_lt n obs d (edgeTick n (s + 1))
    have hrow := row_le obs (n - 2 * REVENUE_HALF_WINDOW + s) d
    have hleft : m.obsAt (n - 2 * REVENUE_HALF_WINDOW + s) =
        row obs (n - 2 * REVENUE_HALF_WINDOW + s) := by
      rw [windowSize_eq] at hn
      rw [halfWindow_eq] at hs'
      refine hfed.obsAt ?_ (.inr ?_) <;> rw [halfWindow_eq]
      · omega
      · rw [windowSize_eq]
        omega
    have hright : m.obsAt (s + 1) = row obs (s + 1) := by
      refine hfed.obsAt ?_ (.inl hs')
      rw [windowSize_eq] at hn
      rw [halfWindow_eq] at hs'
      omega
    simp only [hleft, hright, hsums d]
    omega

/-! ## Whole epochs -/

lemma ticks_perm (hn : REVENUE_WINDOW_SIZE ≤ n) :
    ((List.range (n - 2 * REVENUE_HALF_WINDOW)).map (· + REVENUE_HALF_WINDOW) ++
      (List.range (2 * REVENUE_HALF_WINDOW)).map (edgeTick n)).Perm (List.range n) := by
  rw [windowSize_eq] at hn
  have hinner : ((List.range (n - 2 * REVENUE_HALF_WINDOW)).map
      (· + REVENUE_HALF_WINDOW)).Nodup :=
    List.nodup_range.map fun a b hab => add_right_cancel hab
  have hedge : ((List.range (2 * REVENUE_HALF_WINDOW)).map (edgeTick n)).Nodup := by
    refine List.nodup_range.map_on fun a ha b hb hab => ?_
    rw [List.mem_range] at ha hb
    unfold edgeTick at hab
    rw [halfWindow_eq] at *
    split_ifs at hab <;> omega
  refine (List.perm_ext_iff_of_nodup (hinner.append hedge fun c hc hc' => ?_)
    List.nodup_range).mpr fun c => ?_
  · obtain ⟨k, hk, rfl⟩ := List.mem_map.mp hc
    obtain ⟨s, hs, hks⟩ := List.mem_map.mp hc'
    rw [List.mem_range] at hk hs
    unfold edgeTick at hks
    split_ifs at hks <;> omega
  · simp only [List.mem_append, List.mem_map, List.mem_range]
    unfold edgeTick
    rw [halfWindow_eq]
    constructor
    · rintro (⟨k, hk, rfl⟩ | ⟨s, hs, rfl⟩)
      · omega
      · split_ifs <;> omega
    · intro hc
      by_cases hlow : c < 675
      · exact .inr ⟨c + 675, by omega, by rw [if_neg (by omega)]; omega⟩
      · by_cases hhigh : n - 675 ≤ c
        · exact .inr ⟨c - (n - 675), by omega, by rw [if_pos (by omega)]; omega⟩
        · exact .inl ⟨c - 675, by omega, by omega⟩

/-- Feeding an epoch of at least one window tick by tick and then scoring its edges: every tick
contributes exactly one score, that of the circular window centred on it, and the leaders' sums
are those of the direct scores. -/
theorem scores_eq_direct (contractCount initialTick : Nat) (obs : Nat → Nat → Nat) {n : Nat}
    (hn : REVENUE_WINDOW_SIZE ≤ n) :
    let m := scoreEpochEdgeTicks contractCount (feed contractCount initialTick obs n) n
    (m.finalized.Perm
      ((List.range n).map fun c => (c, directScore contractCount n obs c))) ∧
    ∀ j, m.txScore j = (∑ c ∈ (range n).filter (fun c => leader initialTick c = j),
        directScore contractCount n obs c) % 2 ^ 64 := by
  obtain ⟨hfed, hscored⟩ := feed_spec contractCount initialTick obs n
  simp only [scoreEpochEdgeTicks, if_neg (not_lt.mpr hn)]
  have hloop := foldl_range
    (P := EdgeInv contractCount initialTick obs n
      ((List.range (n - 2 * REVENUE_HALF_WINDOW)).map (· + REVENUE_HALF_WINDOW)))
    (a := ⟨feed contractCount initialTick obs n, n - REVENUE_HALF_WINDOW,
      firstEdgeWindow (feed contractCount initialTick obs n) n⟩)
    ⟨hfed, by simpa using hscored, fun _ => ?_, fun _ d => ?_⟩
    fun s hs e he => he.edgeStep hn hs
  · have hperm := ticks_perm hn
    refine ⟨?_, fun j => ?_⟩
    · rw [hloop.scored.finalized]
      exact hperm.map _
    · rw [hloop.scored.txScore, ((hperm.filter _).map _).sum_eq]
      rfl
  · simp [edgeTick, halfWindow_eq]
  · exact (firstEdgeWindow_eq hfed hn d).trans (by simp [edgeTick, halfWindow_eq])

def sampleObs (t d : Nat) : Nat := (3 * t + d) % 7

theorem scores_eq_direct_sample :
    REVENUE_WINDOW_SIZE ≤ 1400 ∧
    ∀ j, (scoreEpochEdgeTicks 2 (feed 2 17 sampleObs 1400) 1400).txScore j =
      (∑ c ∈ (range 1400).filter (fun c => leader 17 c = j),
        directScore 2 1400 sampleObs c) % 2 ^ 64 :=
  have hn : REVENUE_WINDOW_SIZE ≤ 1400 := by rw [windowSize_eq]; norm_num
  ⟨hn, (scores_eq_direct 2 17 sampleObs hn).2⟩

end QubicCore.Revenue
