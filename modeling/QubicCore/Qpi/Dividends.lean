import QubicCore.Assets.Books
import QubicCore.Qpi.Transfers

/-!
# `qpi.distributeDividends`

A running contract pays the same amount for each of its shares. It debits itself once, for 676
shares, and credits every possession with the amount for the shares in it. The affordability check
and the debit read one product of 64 bits, and each credit reads another one.

Nothing is lost or created as long as the first product does not wrap. If it does, it can pass the
check although the credits are far from adding up to it.
-/

namespace QubicCore

open List

/-- The entries of an index list from `index` on; `none` if there are more than `fuel`. -/
def IndexLists.entries (l : IndexLists) : Nat → Nat → Option (List Nat)
  | 0, index => if index = NO_ASSET_INDEX then some [] else none
  | fuel + 1, index =>
    if index = NO_ASSET_INDEX then some []
    else (l.entries fuel (l.nextIdx index)).map (index :: ·)

/-- The records that an `AssetPossessionIterator` without filters visits: for each ownership of the
issuance, all its possessions. -/
def Universe.possessions (d : Nat) (u : Universe) (issuer : M256i) (assetName : BitVec 56) :
    Option (List Nat) := do
  let issuanceIdx ← u.issuanceIndex d issuer assetName
  if issuanceIdx = NO_ASSET_INDEX then return []
  else
    let ownerships ← u.indexLists.entries (2 ^ d)
      (u.indexLists.ownershipsPossessionsFirstIdx issuanceIdx)
    let possessions ← ownerships.mapM fun ownershipIdx =>
      u.indexLists.entries (2 ^ d) (u.indexLists.ownershipsPossessionsFirstIdx ownershipIdx)
    return possessions.flatten

namespace Qpi.Transfers

open Library Spectrum

def dividends (u : Universe) (amountPerShare : Int) (possessions : List Nat) : List (M256i × Int) :=
  possessions.filterMap fun index =>
    match u.assets index with
    | .possession publicKey _ _ numberOfShares =>
      if numberOfShares ≠ 0 then some (publicKey, sint64 (amountPerShare * numberOfShares))
      else none
    | _ => none

/-- The result of `distributeDividends` and, not part of the source, the amount passed to the
debit and those passed to the credits. -/
structure Distribution where
  success : Bool
  debited : Int
  credits : List (M256i × Int)
  after : World

section

variable (env : ExecEnv) (ctx : Context)

/-- The credits, one after the other, each followed by the callback of its receiver. -/
def payAll (credits : List (M256i × Int)) (w : World) : Outcome ContractError World :=
  credits.foldlM (fun w credit => deliver env ctx w credit.1 credit.2 .qpiDistributeDividends) w

variable (w : World)

/-- The universe is locked while the dividends are paid, so that no callback changes it. -/
def distributeDividends (amountPerShare : Int) : Outcome ContractError Distribution :=
  if ctx.postIncomingTransferRunning then pure ⟨false, 0, [], w⟩
  else if amountPerShare < 0 ∨ sint64 (amountPerShare * NUMBER_OF_COMPUTORS) > MAX_AMOUNT then
    pure ⟨false, 0, [], w⟩
  else do
    let index ← .ofOption (spectrumIndex env.spectrumDepth w.node.spectrum ctx.currentContractId)
    if index < 0 then pure ⟨false, 0, [], w⟩
    else
      let amount := sint64 (amountPerShare * NUMBER_OF_COMPUTORS)
      let remainingAmount := sint64 (energy w.node.spectrum index.toNat - amount)
      if remainingAmount < 0 then pure ⟨false, 0, [], w⟩
      else
        let (decreased, s) := decreaseEnergy env.tick w.node.spectrum index.toNat amount
        if decreased then do
          let possessions ← .ofOption (w.node.assets.possessions env.assetsDepth 0
            (env.contractDescriptions ctx.currentContractIndex).assetName)
          let credits := dividends w.node.assets amountPerShare possessions
          let after ← payAll env ctx credits { w with node.spectrum := s }
          pure ⟨true, amount, credits, after⟩
        else pure ⟨true, 0, [], w⟩

/-- What `increaseEnergy` adds for a credit: nothing for the zero id or a negative amount. -/
def added (credit : M256i × Int) : Int := if credit.1 ≠ 0 ∧ 0 ≤ credit.2 then credit.2 else 0

def credited (credits : List (M256i × Int)) : Int := (credits.map added).sum

def supply : Int := ∑ i ∈ Finset.range (2 ^ env.spectrumDepth), (w.node.spectrum.spectrum i).balance

/-- The callbacks of contracts do nothing, and the spectrum has room for that many new entities
without burning dust. -/
def Undisturbed (receivers : Nat) : Prop :=
  (∀ i procedure, env.postIncomingTransfer i = some procedure →
    ∀ input w', procedure input w' = .returned w') ∧
  w.node.spectrum.numberOfEntities + receivers <
    2 ^ env.spectrumDepth / 2 + 2 ^ env.spectrumDepth / 4

/-- What is debited is credited, and a call that fails changes nothing. -/
def Distribution.Conserves (out : Distribution) : Prop :=
  if out.success then
    out.debited = credited out.credits ∧
      (Undisturbed env w out.credits.length → supply env out.after = supply env w)
  else out.after = w

end

/-! ## The credits -/

section

variable {env : ExecEnv} {ctx : Context} {c : Int} {s s' : Spectrum} {w w' : World}

/-- A credit adds its amount to the supply and needs at most one more slot. -/
lemma increaseEnergy_added {d tick : Nat} {k12 : KangarooTwelve} (h : Inv d c s)
    (hcrowd : isCrowded d s = false) (credit : M256i × Int) (hc : c + added credit < 2 ^ 63)
    (hs : increaseEnergy d k12 tick s credit.1 credit.2 = some s') :
    Inv d (c + added credit) s' ∧ s'.totalAmount = s.totalAmount + added credit ∧
      s'.numberOfEntities ≤ s.numberOfEntities + 1 := by
  unfold added at hc ⊢
  split_ifs at hc ⊢ with hok
  · have hroom : makeRoom d k12 s = some s := by simp [makeRoom, hcrowd]
    obtain ⟨s₁, r, hs₁, hinv, hdep⟩ :=
      h.deposit tick hroom (by simpa [isCrowded] using hcrowd) hok.1 hok.2 hc
    obtain rfl := Option.some.inj (hs₁.symm.trans hs)
    refine ⟨hinv, hdep.totalAmount, ?_⟩
    rw [hinv.numberOfEntities, h.numberOfEntities]
    exact Cells.count_le_succ r fun i _ hir hi => by rwa [Occupied, hdep.other i hir] at hi
  · have hsame : increaseEnergy d k12 tick s credit.1 credit.2 = some s := by
      have hnot : ¬(!isZero credit.1 ∧ credit.2 ≥ 0) := by simpa using hok
      rw [increaseEnergy, if_neg hnot]
    obtain rfl := Option.some.inj (hsame.symm.trans hs)
    rw [add_zero, add_zero]
    exact ⟨h, rfl, Nat.le_succ _⟩

lemma deliver_returned {destination : M256i} {amount : Int} {type : TransferType}
    (hidle : ∀ i procedure, env.postIncomingTransfer i = some procedure →
      ∀ input w', procedure input w' = .returned w')
    (h : deliver env ctx w destination amount type = .returned w') :
    increaseEnergy env.spectrumDepth env.k12 env.tick w.node.spectrum destination amount =
      some w'.node.spectrum := by
  unfold deliver at h
  cases hs : increaseEnergy env.spectrumDepth env.k12 env.tick w.node.spectrum destination
    amount with
  | none =>
    rw [hs] at h
    cases h
  | some s =>
    simp only [hs, Outcome.ofOption_some, Outcome.returned_bind] at h
    split_ifs at h
    unfold qpiNotifyPostIncomingTransfer at h
    split at h
    · rw [← Outcome.returned.inj h]
    · cases hp : env.postIncomingTransfer (contractIndexOf destination) with
      | none =>
        rw [hp] at h
        rw [← Outcome.returned.inj h]
      | some procedure =>
        simp only [hp, hidle _ procedure hp, Outcome.pure_eq, ite_self] at h
        rw [← Outcome.returned.inj h]

lemma credited_cons (credit : M256i × Int) (credits : List (M256i × Int)) :
    credited (credit :: credits) = added credit + credited credits := by
  simp [credited]

lemma added_nonneg (credit : M256i × Int) : 0 ≤ added credit := by
  unfold added
  split_ifs with hok
  · exact hok.2
  · exact le_rfl

lemma credited_nonneg (credits : List (M256i × Int)) : 0 ≤ credited credits :=
  sum_nonneg fun x hx => by
    obtain ⟨credit, -, rfl⟩ := mem_map.mp hx
    exact added_nonneg credit

lemma payAll_totalAmount {credits : List (M256i × Int)}
    (hq : Undisturbed env w credits.length) (h : Inv env.spectrumDepth c w.node.spectrum)
    (hc : c + credited credits < 2 ^ 63) (hw : payAll env ctx credits w = .returned w') :
    Inv env.spectrumDepth (c + credited credits) w'.node.spectrum ∧
      w'.node.spectrum.totalAmount = w.node.spectrum.totalAmount + credited credits := by
  induction credits generalizing w c with
  | nil =>
    obtain rfl := Outcome.returned.inj hw
    simpa [credited] using h
  | cons credit credits ih =>
    rw [payAll, foldlM_cons] at hw
    rw [credited_cons] at hc ⊢
    have hrest := credited_nonneg credits
    obtain ⟨hidle, hroom⟩ := hq
    rw [length_cons] at hroom
    cases hd : deliver env ctx w credit.1 credit.2 .qpiDistributeDividends with
    | returned w₁ =>
      rw [hd, Outcome.returned_bind] at hw
      have hcrowd : isCrowded env.spectrumDepth w.node.spectrum = false := by
        simp only [isCrowded, decide_eq_false_iff_not]
        omega
      obtain ⟨h₁, htotal, hentities⟩ :=
        increaseEnergy_added h hcrowd credit (by omega) (deliver_returned hidle hd)
      obtain ⟨h₂, htotal₂⟩ := ih ⟨hidle, by omega⟩ h₁ (by omega) hw
      rw [add_assoc] at h₂
      exact ⟨h₂, by omega⟩
    | aborted e => rw [hd] at hw; cases hw
    | stuck => rw [hd] at hw; cases hw

end

/-! ## The exits -/

section

variable {env : ExecEnv} {ctx : Context} {c : Int} {w : World} {amountPerShare : Int}
  {out : Distribution}

/-- A call that returns true has passed the check with this amount. -/
structure Distribution.Paid (env : ExecEnv) (ctx : Context) (c : Int) (w : World)
    (amountPerShare : Int) (possessions : List Nat) (out : Distribution) : Prop where
  success : out.success
  share_nonneg : 0 ≤ amountPerShare
  nonneg : 0 ≤ sint64 (amountPerShare * NUMBER_OF_COMPUTORS)
  debited : out.debited = sint64 (amountPerShare * NUMBER_OF_COMPUTORS)
  visited : w.node.assets.possessions env.assetsDepth 0
    (env.contractDescriptions ctx.currentContractIndex).assetName = some possessions
  credits : out.credits = dividends w.node.assets amountPerShare possessions
  paid : ∃ s index, Inv env.spectrumDepth c s ∧
    (w.node.spectrum.spectrum index).publicKey = ctx.currentContractId ∧
    Withdrawal env.spectrumDepth w.node.spectrum s out.debited index ∧
    payAll env ctx out.credits { w with node.spectrum := s } = .returned out.after

lemma distributeDividends_cases (h : Inv env.spectrumDepth c w.node.spectrum) (hc : c < 2 ^ 63)
    (hout : distributeDividends env ctx w amountPerShare = .returned out) :
    out = ⟨false, 0, [], w⟩ ∨
    (out = ⟨true, 0, [], w⟩ ∧ sint64 (amountPerShare * NUMBER_OF_COMPUTORS) < 0) ∨
    ∃ possessions, out.Paid env ctx c w amountPerShare possessions := by
  unfold distributeDividends at hout
  split at hout
  · exact .inl (Outcome.returned.inj hout).symm
  split at hout
  · exact .inl (Outcome.returned.inj hout).symm
  next hrange =>
  push Not at hrange
  obtain ⟨i, hi, hid, -, hindex⟩ | ⟨-, hindex⟩ := h.spectrumIndex_cases ctx.currentContractId
  · simp only [hindex, Outcome.ofOption_some, Outcome.returned_bind, Int.toNat_natCast] at hout
    rw [if_neg (by omega)] at hout
    split at hout
    · exact .inl (Outcome.returned.inj hout).symm
    next hremaining =>
    obtain ⟨hinv, hres⟩ :=
      h.decreaseEnergy env.tick hc hi (sint64 (amountPerShare * NUMBER_OF_COMPUTORS))
    by_cases hneg : sint64 (amountPerShare * NUMBER_OF_COMPUTORS) < 0
    · rw [if_neg fun hok => absurd hok.1 (not_le.mpr hneg)] at hres
      rw [hres] at hout
      exact .inr (.inl ⟨(Outcome.returned.inj hout).symm, hneg⟩)
    · rw [not_lt] at hneg
      rw [sint64_remaining h hc hi hneg hrange.2, energy, not_lt] at hremaining
      rw [if_pos ⟨hneg, by omega⟩] at hres
      obtain ⟨hdecreased, hw⟩ := hres
      rw [if_pos hdecreased] at hout
      cases hp : w.node.assets.possessions env.assetsDepth 0
        (env.contractDescriptions ctx.currentContractIndex).assetName with
      | none =>
        rw [hp] at hout
        cases hout
      | some possessions =>
        simp only [hp, Outcome.ofOption_some, Outcome.returned_bind] at hout
        cases hpay : payAll env ctx (dividends w.node.assets amountPerShare possessions)
          { w with node.spectrum := (decreaseEnergy env.tick w.node.spectrum i
            (sint64 (amountPerShare * NUMBER_OF_COMPUTORS))).2 } with
        | returned after =>
          rw [hpay] at hout
          obtain rfl := Outcome.returned.inj hout
          exact .inr (.inr ⟨possessions, rfl, hrange.1, hneg, rfl, hp, rfl, _, i, hinv, hid, hw,
            hpay⟩)
        | aborted e => rw [hpay] at hout; cases hout
        | stuck => rw [hpay] at hout; cases hout
  · rw [hindex] at hout
    exact .inl (Outcome.returned.inj hout).symm

lemma Distribution.Paid.supply_eq {possessions : List Nat}
    (hout : out.Paid env ctx c w amountPerShare possessions)
    (h : Inv env.spectrumDepth c w.node.spectrum) (hc : c < 2 ^ 63)
    (hequal : out.debited = credited out.credits) (hq : Undisturbed env w out.credits.length) :
    supply env out.after = supply env w := by
  obtain ⟨s, i, hinv, -, hw, hpay⟩ := hout.paid
  have hentities : s.numberOfEntities = w.node.spectrum.numberOfEntities := by
    rw [hinv.numberOfEntities, h.numberOfEntities]
    refine Cells.count_congr fun j _ => ?_
    by_cases hj : j = i
    · rw [hj, Occupied, Occupied, hw.publicKey]
    · rw [Occupied, Occupied, hw.other j hj]
  have hsupply := h.supply
  have htotal := hw.totalAmount
  -- the credits return the supply to what it was before the debit
  have hlow := { hinv with supply := le_refl s.totalAmount }
  obtain ⟨hafter, hsum⟩ := payAll_totalAmount
    ⟨hq.1, hentities ▸ hq.2⟩ hlow (by omega) hpay
  have hsum : out.after.node.spectrum.totalAmount = s.totalAmount + credited out.credits := hsum
  rw [supply, supply, ← hafter.totalAmount, ← h.totalAmount, hsum]
  omega

end

/-! ## What the shares add up to -/

section

variable {env : ExecEnv} {ctx : Context} {c : Int} {w : World} {amountPerShare : Int}
  {out : Distribution} {u : Universe} {possessions : List Nat}

/-- The possessions are of non-zero entities, with counts that are not negative. -/
def Held (u : Universe) (possessions : List Nat) : Prop :=
  ∀ p ∈ possessions, ∃ publicKey contract ownership numberOfShares,
    u.assets p = .possession publicKey contract ownership numberOfShares ∧ publicKey ≠ 0 ∧
      0 ≤ numberOfShares

def totalShares (u : Universe) (possessions : List Nat) : Int :=
  (possessions.map fun p => (u.assets p).possessed).sum

lemma credited_dividends_cons {p : Nat} {publicKey : M256i} {contract ownership : Nat}
    {n : Int} (hp : u.assets p = .possession publicKey contract ownership n)
    (hkey : publicKey ≠ 0) (hl : 0 ≤ amountPerShare * n) (hu : amountPerShare * n < 2 ^ 63) :
    credited (dividends u amountPerShare (p :: possessions)) =
      amountPerShare * n + credited (dividends u amountPerShare possessions) := by
  by_cases hn : n = 0
  · simp [dividends, hp, hn]
  · have hwrap : sint64 (amountPerShare * n) = amountPerShare * n := sint64_eq (by omega) hu
    simp [dividends, hp, hn, credited, added, hwrap, hkey, hl]

lemma totalShares_nonneg (hheld : Held u possessions) : 0 ≤ totalShares u possessions :=
  sum_nonneg fun x hx => by
    obtain ⟨q, hq, rfl⟩ := mem_map.mp hx
    obtain ⟨_, _, _, m, hqm, -, hm⟩ := hheld q hq
    rw [hqm]
    exact hm

lemma credited_dividends (hamount : 0 ≤ amountPerShare) (hheld : Held u possessions)
    (hu : amountPerShare * totalShares u possessions < 2 ^ 63) :
    credited (dividends u amountPerShare possessions) =
      amountPerShare * totalShares u possessions := by
  induction possessions with
  | nil => simp [dividends, credited, totalShares]
  | cons p possessions ih =>
    obtain ⟨publicKey, contract, ownership, n, hp, hkey, hn⟩ := hheld p mem_cons_self
    have hrest : Held u possessions := fun q hq => hheld q (mem_cons_of_mem _ hq)
    have hfirst : totalShares u (p :: possessions) = n + totalShares u possessions := by
      rw [totalShares, map_cons, sum_cons, hp]
      rfl
    have hl := mul_nonneg hamount hn
    have hl' := mul_nonneg hamount (totalShares_nonneg hrest)
    rw [hfirst, mul_add] at hu ⊢
    rw [credited_dividends_cons hp hkey hl (by omega), ih hrest (by omega)]

/-- A failed call changes nothing. If the amount for 676 shares has 64 bits, then a distribution
conserves the amount as soon as non-zero entities hold 676 shares. If the amount is positive and the
credits have 64 bits too, they must hold exactly as many. -/
theorem distributeDividends_conserves (h : Inv env.spectrumDepth c w.node.spectrum)
    (hc : c < 2 ^ 63) (hout : distributeDividends env ctx w amountPerShare = .returned out) :
    (out.success = false → out.after = w) ∧
    (amountPerShare * NUMBER_OF_COMPUTORS < 2 ^ 63 →
      ((∀ possessions, w.node.assets.possessions env.assetsDepth 0
          (env.contractDescriptions ctx.currentContractIndex).assetName = some possessions →
        Held w.node.assets possessions ∧
          totalShares w.node.assets possessions = NUMBER_OF_COMPUTORS) → out.Conserves env w) ∧
      ∀ possessions, w.node.assets.possessions env.assetsDepth 0
          (env.contractDescriptions ctx.currentContractIndex).assetName = some possessions →
        Held w.node.assets possessions →
        amountPerShare * totalShares w.node.assets possessions < 2 ^ 63 →
        0 < amountPerShare → out.success → out.Conserves env w →
        totalShares w.node.assets possessions = NUMBER_OF_COMPUTORS) := by
  obtain rfl | ⟨rfl, hneg⟩ | ⟨possessions, hpaid⟩ := distributeDividends_cases h hc hout
  · exact ⟨fun _ => rfl, fun _ => ⟨fun _ => by simp [Distribution.Conserves], by simp⟩⟩
  · refine ⟨by simp, fun hfits => ⟨fun _ => by simp [Distribution.Conserves, credited],
      fun _ _ _ _ hpos => ?_⟩⟩
    have hnonneg : 0 ≤ amountPerShare * NUMBER_OF_COMPUTORS :=
      mul_nonneg hpos.le (Int.natCast_nonneg _)
    rw [sint64_eq (by omega) hfits] at hneg
    omega
  · have hiff : out.Conserves env w ↔ sint64 (amountPerShare * NUMBER_OF_COMPUTORS) =
        credited (dividends w.node.assets amountPerShare possessions) := by
      rw [Distribution.Conserves, if_pos hpaid.success, ← hpaid.debited, ← hpaid.credits]
      exact and_iff_left_of_imp fun hequal => hpaid.supply_eq h hc hequal
    have hamount := hpaid.share_nonneg
    refine ⟨fun hfail => absurd hpaid.success (by simp [hfail]), fun hfits => ?_⟩
    have hdebit : sint64 (amountPerShare * NUMBER_OF_COMPUTORS) =
        amountPerShare * NUMBER_OF_COMPUTORS :=
      sint64_eq (le_trans (by norm_num) (mul_nonneg hamount (Int.natCast_nonneg _))) hfits
    rw [hdebit] at hiff
    refine ⟨fun hall => hiff.mpr ?_, fun possessions' hvisited hheld hu hpos _ hconserves => ?_⟩
    · obtain ⟨hheld, htotal⟩ := hall possessions hpaid.visited
      rw [credited_dividends hamount hheld (htotal ▸ hfits), htotal]
    · obtain rfl := Option.some.inj (hpaid.visited.symm.trans hvisited)
      have hequal := hiff.mp hconserves
      rw [credited_dividends hamount hheld hu] at hequal
      exact (mul_left_cancel₀ hpos.ne' hequal).symm

end

/-! ## A contract with two shareholders -/

/-- One share is held by one entity and 675 by another. -/
def twoHolders : Nat → AssetRecord
  | 0 => .issuance 0 0 0 0
  | 1 => .ownership ⟨9⟩ 1 0 1
  | 2 => .possession ⟨9⟩ 1 1 1
  | 3 => .ownership ⟨11⟩ 1 0 675
  | 4 => .possession ⟨11⟩ 1 3 675
  | _ => .empty

def fundedWorld (assets : Nat → AssetRecord) : World where
  node := { smallWorld.node with
    spectrum := Spectrum.create 0 Spectrum.empty 5 ⟨5⟩ 1000
    assets := ⟨assets, IndexLists.rebuild 3 assets, fun _ => 0⟩ }
  actions := []

/-- One unit for each share. -/
theorem distributeDividends_conserves_twoHolders :
    ∃ out, distributeDividends smallEnv fifthContract (fundedWorld twoHolders) 1 = .returned out ∧
      out.success ∧ out.debited = 676 ∧ out.Conserves smallEnv (fundedWorld twoHolders) := by
  obtain ⟨out, hout, hsuccess, hdebited⟩ : ∃ out, distributeDividends smallEnv fifthContract
      (fundedWorld twoHolders) 1 = .returned out ∧ out.success ∧ out.debited = 676 :=
    ⟨_, rfl, by decide +kernel, by decide +kernel⟩
  have hinv : Inv smallEnv.spectrumDepth 1000 _ := fifthContract_inv (by decide) (by decide)
  refine ⟨out, hout, hsuccess, hdebited, ((distributeDividends_conserves hinv (by decide)
    hout).2 (by decide)).1 fun possessions hp => ?_⟩
  have hvisited : (fundedWorld twoHolders).node.assets.possessions 3 0 0 = some [2, 4] := by
    decide +kernel
  obtain rfl := Option.some.inj (hvisited.symm.trans hp)
  refine ⟨fun p hp => ?_, by decide⟩
  obtain rfl | rfl : p = 2 ∨ p = 4 := by simpa using hp
  · exact ⟨⟨9⟩, 1, 1, 1, rfl, by decide, by decide⟩
  · exact ⟨⟨11⟩, 1, 3, 675, rfl, by decide, by decide⟩

lemma Distribution.not_conserves {env : ExecEnv} {w : World} {out : Distribution}
    (hsuccess : out.success) (hne : out.debited ≠ credited out.credits) :
    ¬out.Conserves env w := by
  rw [Distribution.Conserves, if_pos hsuccess]
  exact fun h => hne h.1

/-- With `2^62` for each share nothing is debited and one entity receives `2^62`. Without shares,
the amount for 676 of them is lost. -/
theorem dividends_created_and_lost :
    (∃ out, distributeDividends smallEnv fifthContract (fundedWorld twoHolders) (2 ^ 62) =
        .returned out ∧ out.success ∧ out.debited = 0 ∧ credited out.credits = 2 ^ 62 ∧
      ¬out.Conserves smallEnv (fundedWorld twoHolders)) ∧
    ∃ out, distributeDividends smallEnv fifthContract (fundedWorld fun _ => .empty) 1 =
        .returned out ∧ out.success ∧ out.debited = 676 ∧ out.credits = [] ∧
      ¬out.Conserves smallEnv (fundedWorld fun _ => .empty) := by
  constructor
  · exact ⟨_, rfl, by decide +kernel, by decide +kernel, by decide +kernel,
      Distribution.not_conserves (by decide +kernel) (by decide +kernel)⟩
  · exact ⟨_, rfl, by decide +kernel, by decide +kernel, by decide +kernel,
      Distribution.not_conserves (by decide +kernel) (by decide +kernel)⟩

end Qpi.Transfers

end QubicCore
