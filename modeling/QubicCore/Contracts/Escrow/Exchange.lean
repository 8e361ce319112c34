import QubicCore.Contracts.Escrow.Deals

/-!
# The exchange of shares

The moves of one `AcceptDeal`. Where every offered amount is positive and there, all offered shares
move and their reservations are taken back. The requested shares move until one move fails, and
take from the acceptor no more than the deal requests.
-/

namespace QubicCore.Contracts.Escrow

open Library MathLib List
open QubicCore.Qpi (Collection Entry)

lemma additionalFee_eq {n : Nat} (h : (n : Int) < MAX_AMOUNT) : additionalFee n = n / 100 := by
  have hn : n < 1000000000000000 := by
    have : (MAX_AMOUNT : Int) = 1000000000000000 := by decide
    omega
  have hmul : smulUnsigned n ESCROW_ADDITIONAL_FEE_PERCENT = n * 100 :=
    if_neg (by unfold UINT64_MAX ESCROW_ADDITIONAL_FEE_PERCENT; omega)
  rw [additionalFee, hmul]
  omega

variable (account : M256i)

def lossOf (xs : List AssetWithAmount) : Asset → M256i → Int :=
  fun a x => if x = account then amountOf xs a else 0

lemma lossOf_nil : lossOf account [] = 0 := by
  funext a x
  simp [lossOf, amountOf, Keyed.total]

lemma lossOf_cons (x : AssetWithAmount) (xs : List AssetWithAmount) :
    lossOf account (x :: xs) = sharesLoss x.asset account x.amount + lossOf account xs := by
  funext a y
  simp only [lossOf, sharesLoss, Pi.add_apply, amountOf_cons]
  by_cases hy : y = account
  · by_cases ha : a = x.asset <;> simp [hy, ha]
  · simp [hy]

section

variable {W : Type} {host : AssetHost W} {balance : W → Int} {x : AssetWithAmount}
  {source destination : M256i} {n : Nat}

lemma amount_lt (h : (n : Int) < MAX_AMOUNT) : (n : Int) < 2 ^ 63 := h.trans (by decide)

lemma sint64_amount (h : (n : Int) < MAX_AMOUNT) : sint64 n = n := by
  have := amount_lt h
  exact sint64_eq (by omega) this

lemma sint64_fee (h : (n : Int) < MAX_AMOUNT) :
    sint64 (n - additionalFee n) = n - additionalFee n ∧
      sint64 (additionalFee n) = additionalFee n ∧ (additionalFee n : Int) ≤ n := by
  have hlt := amount_lt h
  have hfee := additionalFee_eq h
  refine ⟨sint64_eq (by omega) (by omega), sint64_eq (by omega) (by omega), by omega⟩

lemma moveAsset_fall (hexact : host.Exact SELF_INDEX balance)
    (hlt : (x.amount : Int) < MAX_AMOUNT) (source destination : M256i) (w : W) :
    host.SharesFall SELF_INDEX w (moveAsset host x source destination w).2
      (sharesLoss x.asset source x.amount) := by
  obtain ⟨hpaid, hfee, hle⟩ := sint64_fee hlt
  unfold moveAsset
  split_ifs
  · rw [sint64_amount hlt]
    exact hexact.moveShares_fall _ _ _ (Int.natCast_nonneg _) w
  · rw [hpaid, hfee]
    have hfirst := hexact.moveShares_fall x.asset source destination (sub_nonneg.mpr hle) w
    have hsecond := hexact.moveShares_fall x.asset source SELF
      (Int.natCast_nonneg (additionalFee x.amount))
      (host.moveShares x.asset source destination (x.amount - additionalFee x.amount) w).2
    intro a y
    have hboth := (hfirst.trans hsecond) a y
    have hsum : (sharesLoss x.asset source (x.amount - additionalFee x.amount) +
        sharesLoss x.asset source (additionalFee x.amount)) a y =
        sharesLoss x.asset source x.amount a y := by
      simp only [Pi.add_apply, sharesLoss]
      split_ifs <;> omega
    rwa [hsum] at hboth

lemma moveAsset_moved (hexact : host.Exact SELF_INDEX balance)
    (hlt : (x.amount : Int) < MAX_AMOUNT) (hpos : 0 < x.amount) (hzero : destination ≠ NULL_ID)
    {w : W} (hshares : (x.amount : Int) ≤ host.shares SELF_INDEX x.asset source w) :
    0 ≤ (moveAsset host x source destination w).1 := by
  obtain ⟨hpaid, -, -⟩ := sint64_fee hlt
  have hfee := additionalFee_eq hlt
  unfold moveAsset
  split_ifs
  · rw [sint64_amount hlt]
    exact (hexact.moveShares_moved _ _ _ _ w hzero (by omega) hshares).1
  · have hmoved := hexact.moveShares_moved x.asset source destination
      (x.amount - additionalFee x.amount) w hzero (by omega) (by omega)
    simp only [hpaid]
    exact hmoved.1

lemma counted_sum (hlt : (x.amount : Int) < MAX_AMOUNT) :
    (counted x).1 + (counted x).2 = x.amount := by
  obtain ⟨hpaid, hfee, -⟩ := sint64_fee hlt
  unfold counted
  split_ifs
  · simp only [sint64_amount hlt, add_zero]
  · simp only [hpaid, hfee, sub_add_cancel]

end

/-! ## The loops -/

section

variable {W : Type} {host : AssetHost W} {balance : W → Int} {call : Invocation} {owner : M256i}

lemma earnToken_eq (x : AssetWithAmount) (s : State) :
    ∃ tokens, earnToken x s = { s with earnedTokens := tokens } := by
  unfold earnToken
  split_ifs
  · exact ⟨_, rfl⟩
  · exact ⟨s.earnedTokens, rfl⟩

/-- What the loop over the offered assets does when no move fails. -/
structure Offered (host : AssetHost W) (owner : M256i) (xs : List AssetWithAmount)
    (t t' : Exchange W) : Prop where
  result : 0 ≤ t'.transferResult
  state : ∃ tokens c, t'.state = { t.state with earnedTokens := tokens, reservedAssets := c } ∧
    Tidy c ∧ Added owner (amountOf xs) c t.state.reservedAssets
  fall : host.SharesFall SELF_INDEX t.world t'.world (lossOf owner xs)

variable (call) in
lemma offeredLeg_spec (hexact : host.Exact SELF_INDEX balance)
    (hzero : call.invocator ≠ NULL_ID) {x : AssetWithAmount}
    {t : Exchange W} (hresult : 0 ≤ t.transferResult) (hpos : 0 < x.amount)
    (hlt : (x.amount : Int) < MAX_AMOUNT)
    (hshares : (x.amount : Int) ≤ host.shares SELF_INDEX x.asset owner t.world)
    (htidy : Tidy t.state.reservedAssets)
    (hle : x.amount ≤ reserved t.state.reservedAssets owner x.asset)
    (hres : reserved t.state.reservedAssets owner x.asset < 2 ^ 63) :
    Offered host owner [x] t (offeredLeg host call owner t x) := by
  obtain ⟨tokens, htokens⟩ := earnToken_eq x t.state
  obtain ⟨htidy', hadd⟩ := settle_spec htidy hpos hle hres (counted_sum hlt)
  have hleg : offeredLeg host call owner t x =
      { state :=
          { t.state with
            earnedTokens := tokens
            reservedAssets := settle owner x (counted x).1 (counted x).2 t.state.reservedAssets }
        world := (moveAsset host x owner call.invocator t.world).2
        transferResult := (moveAsset host x owner call.invocator t.world).1
        transferredShares := (counted x).1
        transferredFeeShares := (counted x).2 } := by
    rw [offeredLeg, if_pos hresult]
    simp only [htokens]
  rw [hleg]
  refine ⟨moveAsset_moved hexact hlt hpos hzero hshares, ⟨tokens, _, rfl, htidy', hadd⟩, ?_⟩
  rw [lossOf_cons, lossOf_nil, add_zero]
  exact moveAsset_fall hexact hlt owner call.invocator t.world

variable (call) in
lemma offeredLegs_spec (hexact : host.Exact SELF_INDEX balance)
    (hzero : call.invocator ≠ NULL_ID) {xs : List AssetWithAmount}
    {t : Exchange W} (hresult : 0 ≤ t.transferResult)
    (hnodup : (xs.map AssetWithAmount.asset).Nodup) (hpos : ∀ x ∈ xs, 0 < x.amount)
    (hlt : ∀ x ∈ xs, (x.amount : Int) < MAX_AMOUNT)
    (hshares : ∀ x ∈ xs, (x.amount : Int) ≤ host.shares SELF_INDEX x.asset owner t.world)
    (htidy : Tidy t.state.reservedAssets)
    (hle : ∀ a, amountOf xs a ≤ reserved t.state.reservedAssets owner a)
    (hres : ∀ a, reserved t.state.reservedAssets owner a < 2 ^ 63) :
    Offered host owner xs t (xs.foldl (offeredLeg host call owner) t) := by
  induction xs generalizing t with
  | nil =>
    refine ⟨hresult, ⟨_, _, rfl, htidy, .refl _⟩, ?_⟩
    rw [lossOf_nil]
    exact .refl _
  | cons x xs ih =>
    rw [map_cons, nodup_cons] at hnodup
    have hleg := offeredLeg_spec call hexact hzero hresult (hpos x mem_cons_self)
      (hlt x mem_cons_self) (hshares x mem_cons_self) htidy (amountOf_head_le hle)
      (hres x.asset)
    obtain ⟨tokens, c, hstate, hc, hadd⟩ := hleg.state
    have hreserved : (offeredLeg host call owner t x).state.reservedAssets = c := by rw [hstate]
    -- The other offered assets are not touched by this move.
    have hrest := ih hleg.result hnodup.2 (fun y hy => hpos y (mem_cons_of_mem x hy))
      (fun y hy => hlt y (mem_cons_of_mem x hy))
      (fun y hy => by
        have hfall := hleg.fall y.asset owner
        have hne : y.asset ∉ [x].map AssetWithAmount.asset := by
          intro heq
          exact hnodup.1 (mem_singleton.mp heq ▸ mem_map_of_mem hy)
        rw [lossOf, if_pos rfl, amountOf_eq_zero hne] at hfall
        have := hshares y (mem_cons_of_mem x hy)
        omega)
      (hreserved ▸ hc) (fun a => hreserved ▸ hadd.amountOf_le (hle a))
      (fun a => by
        have := hres a
        rw [hadd.self] at this
        rw [hreserved]
        omega)
    obtain ⟨tokens', c', hstate', hc', hadd'⟩ := hrest.state
    refine ⟨hrest.result, ⟨tokens', c', by rw [foldl_cons, hstate', hstate], hc', ?_⟩, ?_⟩
    · rw [amountOf_cons_eq, add_comm]
      exact (hreserved ▸ hadd').trans hadd
    · rw [lossOf_cons]
      have hfall := hleg.fall
      rw [lossOf_cons, lossOf_nil, add_zero] at hfall
      exact hfall.trans hrest.fall

variable (call owner) in
lemma requestedLegs_spec (hexact : host.Exact SELF_INDEX balance) {xs : List AssetWithAmount}
    (hlt : ∀ x ∈ xs, (x.amount : Int) < MAX_AMOUNT) (t : Exchange W) :
    (∃ tokens, (requestedLegs host call owner xs t).state =
      { t.state with earnedTokens := tokens }) ∧
    host.SharesFall SELF_INDEX t.world (requestedLegs host call owner xs t).world
      (lossOf call.invocator xs) := by
  induction xs generalizing t with
  | nil =>
    rw [lossOf_nil]
    exact ⟨⟨_, rfl⟩, .refl _⟩
  | cons x xs ih =>
    have hmove := moveAsset_fall hexact (hlt x mem_cons_self) call.invocator owner t.world
    rw [lossOf_cons, requestedLegs]
    split_ifs with hfail
    · refine ⟨⟨_, rfl⟩, fun a y => ?_⟩
      have := hmove a y
      have hnonneg : 0 ≤ lossOf call.invocator xs a y := by
        unfold lossOf
        split_ifs <;> omega
      simp only [Pi.add_apply]
      omega
    · obtain ⟨⟨tokens, hstate⟩, hfall⟩ := ih (fun y hy => hlt y (mem_cons_of_mem x hy))
        { t with
          transferResult := (moveAsset host x call.invocator owner t.world).1
          world := (moveAsset host x call.invocator owner t.world).2
          state := earnToken x t.state }
      obtain ⟨tokens', htokens⟩ := earnToken_eq x t.state
      refine ⟨⟨tokens, hstate.trans ?_⟩, hmove.trans hfall⟩
      simp only [htokens]

end

end QubicCore.Contracts.Escrow
