import QubicCore.Contracts.Escrow.Reserved

/-!
# The books of ESCROW

The live deals are those of the map `_deals`, each with the owner that the map of owners gives.
The other containers say again, under other keys, what these two maps say. A deal is opened and
removed in all of them at once.
-/

namespace QubicCore.Contracts.Escrow

open Library List AssetWithAmount
open QubicCore.Qpi (Collection Entry)

def ownerOf (owners : AList fun _ : Int => M256i) (index : Int) : M256i :=
  (owners.lookup index).getD NULL_ID

def dealsOf (deals : AList fun _ : Int => Deal) (owners : AList fun _ : Int => M256i) :
    List (M256i × Deal) :=
  deals.entries.map fun e => (ownerOf owners e.1, e.2)

def State.live (s : State) : List (M256i × Deal) := dealsOf s.deals s.dealIndexOwnerMap

def offeredIn (live : List (M256i × Deal)) (owner : M256i) (a : Asset) : Nat :=
  (live.map fun p => if owner = p.1 then amountOf p.2.offeredAssets a else 0).sum

/-- What the checks of `CreateDeal` ensure of a deal. -/
structure Deal.WellFormed (d : Deal) : Prop where
  offered_length : d.offeredAssets.length ≤ ESCROW_MAX_ASSETS_IN_DEAL
  offered_nodup : (d.offeredAssets.map asset).Nodup
  requested_nodup : (d.requestedAssets.map asset).Nodup
  offered_lt : ∀ x ∈ d.offeredAssets, (x.amount : Int) < MAX_AMOUNT
  requested_lt : ∀ x ∈ d.requestedAssets, (x.amount : Int) < MAX_AMOUNT
  offeredQU_lt : (d.offeredQU : Int) < MAX_AMOUNT
  requestedQU_lt : (d.requestedQU : Int) < MAX_AMOUNT

/-- An account that can call the contract, which is neither the contract itself nor the zero
identity. -/
abbrev Party (account : M256i) : Prop := account ≠ SELF ∧ account ≠ NULL_ID

structure Agreed (owner : M256i) (d : Deal) : Prop extends d.WellFormed where
  owner_ne : owner ≠ SELF
  acceptor_ne : d.acceptorId ≠ owner
  offered_pos : ∀ x ∈ d.offeredAssets, 0 < x.amount

structure Listed (s : State) : Prop where
  ownerMap : ∀ k, k ∈ s.dealIndexOwnerMap ↔ k ∈ s.deals
  ownerIndex : (s.ownerDealIndexes.map indexKey).Perm (s.live.map fun p => (p.1, p.2.index))
  acceptorIndex :
    (s.acceptorDealIndexes.map indexKey).Perm (s.live.map fun p => (p.2.acceptorId, p.2.index))
  owners_nodup : s.ownersSet.Nodup
  mem_owners : ∀ x, x ∈ s.ownersSet ↔ x ∈ s.live.map Prod.fst

structure Inv (s : State) : Prop extends Listed s where
  index : ∀ e ∈ s.deals.entries, e.2.index = e.1 ∧ e.1 < s.currentDealIndex
  bounded : s.live.length ≤ ESCROW_MAX_DEALS
  agreed : ∀ p ∈ s.live, Agreed p.1 p.2
  tidy : Tidy s.reservedAssets
  reserved_eq : ∀ owner a, reserved s.reservedAssets owner a = offeredIn s.live owner a

/-! ## The maps -/

section

variable {deals : AList fun _ : Int => Deal} {owners : AList fun _ : Int => M256i} {k : Int}
  {d : Deal}

lemma dealsOf_congr {owners' : AList fun _ : Int => M256i}
    (h : ∀ e ∈ deals.entries, owners'.lookup e.1 = owners.lookup e.1) :
    dealsOf deals owners' = dealsOf deals owners :=
  map_congr_left fun e he => by rw [ownerOf, h e he, ownerOf]

lemma key_ne_of_mem {m : AList fun _ : Int => Deal} (hk : k ∉ m) {e : Sigma fun _ : Int => Deal}
    (he : e ∈ m.entries) : e.1 ≠ k := by
  rintro rfl
  exact hk (AList.mem_keys.mpr (mem_map_of_mem he))

lemma entries_perm (h : deals.lookup k = some d) :
    deals.entries.Perm (⟨k, d⟩ :: (deals.erase k).entries) := by
  have hmem : (⟨k, d⟩ : Sigma fun _ : Int => Deal) ∈ deals.entries := AList.mem_lookup_iff.mp h
  obtain ⟨d', l₁, l₂, -, hsplit, hrest⟩ :=
    exists_of_kerase (AList.mem_keys.mpr (mem_map_of_mem hmem))
  have herase : (deals.erase k).entries = l₁ ++ l₂ := hrest
  have hd' : (⟨k, d'⟩ : Sigma fun _ : Int => Deal) ∈ deals.entries := by simp [hsplit]
  obtain rfl : d' = d := by
    have h' : deals.lookup k = some d' := AList.mem_lookup_iff.mpr hd'
    exact Option.some.inj (h'.symm.trans h)
  rw [herase, hsplit]
  exact perm_middle

lemma dealsOf_erase_owner (deals : AList fun _ : Int => Deal)
    (owners : AList fun _ : Int => M256i) (k : Int) :
    dealsOf (deals.erase k) (owners.erase k) = dealsOf (deals.erase k) owners := by
  refine dealsOf_congr fun e he => AList.lookup_erase_ne (key_ne_of_mem ?_ he)
  rw [AList.mem_erase]
  exact fun hk => hk.1 rfl

lemma dealsOf_erase (h : deals.lookup k = some d) :
    (dealsOf deals owners).Perm
      ((ownerOf owners k, d) :: dealsOf (deals.erase k) (owners.erase k)) := by
  have hperm := (entries_perm h).map fun e => (ownerOf owners e.1, e.2)
  rw [dealsOf_erase_owner]
  exact hperm

lemma dealsOf_insert (hk : k ∉ deals) (owner : M256i) :
    dealsOf (deals.insert k d) (owners.insert k owner) = (owner, d) :: dealsOf deals owners := by
  rw [dealsOf, AList.entries_insert_of_notMem hk, map_cons]
  congr 1
  · rw [ownerOf, AList.lookup_insert]
    rfl
  · exact dealsOf_congr fun e he => AList.lookup_insert_ne (key_ne_of_mem hk he)

lemma dealsOf_replace (owners : AList fun _ : Int => M256i) (k : Int) (d : Deal) :
    dealsOf (deals.insert k d) owners =
      (ownerOf owners k, d) :: dealsOf (deals.erase k) (owners.erase k) := by
  rw [dealsOf, AList.entries_insert, map_cons, dealsOf_erase_owner]
  rfl

end

/-! ## Sums and counts -/

section

variable {live : List (M256i × Deal)} {owner : M256i}

lemma offeredIn_cons (p : M256i × Deal) (live : List (M256i × Deal)) (owner : M256i) (a : Asset) :
    offeredIn (p :: live) owner a =
      (if owner = p.1 then amountOf p.2.offeredAssets a else 0) + offeredIn live owner a := by
  rfl

lemma offeredIn_perm {live' : List (M256i × Deal)} (h : live.Perm live') (owner : M256i)
    (a : Asset) : offeredIn live owner a = offeredIn live' owner a :=
  (h.map _).sum_eq

lemma exists_of_offeredIn_pos {a : Asset} (h : 0 < offeredIn live owner a) :
    ∃ p ∈ live, p.1 = owner ∧ a ∈ p.2.offeredAssets.map asset := by
  induction live with
  | nil => simp [offeredIn] at h
  | cons p rest ih =>
    rw [offeredIn_cons] at h
    by_cases hp : owner = p.1 ∧ a ∈ p.2.offeredAssets.map asset
    · exact ⟨p, mem_cons_self, hp.1.symm, hp.2⟩
    · have hzero : (if owner = p.1 then amountOf p.2.offeredAssets a else 0) = 0 := by
        split_ifs with howner
        · exact amountOf_eq_zero fun ha => hp ⟨howner, ha⟩
        · rfl
      rw [hzero, zero_add] at h
      obtain ⟨q, hq, hq'⟩ := ih h
      exact ⟨q, mem_cons_of_mem p hq, hq'⟩

lemma population_eq {c : Collection Int} (h : (c.map indexKey).Perm (live.map fun p =>
    (p.1, p.2.index))) (owner : M256i) :
    c.population owner = live.countP fun p => p.1 = owner := by
  have hc : c.population owner = (c.map indexKey).countP fun p => p.1 = owner := by
    rw [Collection.population, Collection.queue, ← countP_eq_length_filter, countP_map]
    rfl
  rw [hc, h.countP_eq, countP_map]
  rfl

lemma countP_owner_eq_zero : (live.countP fun p => p.1 = owner) = 0 ↔
    owner ∉ live.map Prod.fst := by
  rw [countP_eq_zero]
  simp only [decide_eq_true_eq, mem_map, not_exists, not_and]

end

/-! ## Opening and removing a deal -/

section

variable {s : State} {k : Int} {d : Deal} {owner : M256i} {live : List (M256i × Deal)}

lemma Inv.deals_length (h : Inv s) : s.deals.entries.length = s.ownerDealIndexes.length := by
  have hlength := h.ownerIndex.length_eq
  simpa [State.live, dealsOf] using hlength.symm

lemma Inv.acceptors_length (h : Inv s) :
    s.acceptorDealIndexes.length = s.ownerDealIndexes.length := by
  have hacceptor := h.acceptorIndex.length_eq
  have howner := h.ownerIndex.length_eq
  simp only [length_map] at hacceptor howner
  omega

lemma Inv.fresh (h : Inv s) : s.currentDealIndex ∉ s.deals := by
  intro hmem
  obtain ⟨e, he, hkey⟩ := mem_map.mp (AList.mem_keys.mp hmem)
  have := (h.index e he).2
  omega

lemma Inv.index_eq (h : Inv s) (hd : s.deals.lookup k = some d) : d.index = k :=
  (h.index ⟨k, d⟩ (AList.mem_lookup_iff.mp hd)).1

lemma live_perm (hd : s.deals.lookup k = some d) (ho : s.dealIndexOwnerMap.lookup k = some owner) :
    s.live.Perm
      ((owner, d) :: dealsOf (s.deals.erase k) (s.dealIndexOwnerMap.erase k)) := by
  have hperm : s.live.Perm ((ownerOf s.dealIndexOwnerMap k, d) ::
      dealsOf (s.deals.erase k) (s.dealIndexOwnerMap.erase k)) := dealsOf_erase hd
  rwa [ownerOf, ho] at hperm

lemma Inv.agreed_lookup (h : Inv s) (hd : s.deals.lookup k = some d)
    (ho : s.dealIndexOwnerMap.lookup k = some owner) : Agreed owner d :=
  h.agreed (owner, d) ((live_perm hd ho).mem_iff.mpr mem_cons_self)

lemma Inv.lookup (h : Inv s) (hp : (owner, d) ∈ s.live) :
    s.deals.lookup d.index = some d ∧ s.dealIndexOwnerMap.lookup d.index = some owner := by
  obtain ⟨e, he, heq⟩ := mem_map.mp hp
  obtain ⟨howner, rfl⟩ := Prod.mk.inj heq
  have hindex := (h.index e he).1
  have hlookup : s.deals.lookup e.1 = some e.2 := AList.mem_lookup_iff.mpr he
  have hmem : e.1 ∈ s.dealIndexOwnerMap := by
    rw [h.ownerMap]
    exact AList.lookup_isSome.mp (hlookup ▸ rfl)
  obtain ⟨o, ho⟩ := Option.isSome_iff_exists.mp (AList.lookup_isSome.mpr hmem)
  rw [ownerOf, ho] at howner
  change o = owner at howner
  rw [hindex, hlookup, ho, howner]
  exact ⟨rfl, rfl⟩

lemma Inv.indices_nodup (h : Inv s) : (s.live.map fun p => p.2.index).Nodup := by
  have hkeys : (s.live.map fun p => p.2.index) = s.deals.keys := by
    rw [State.live, dealsOf, map_map]
    exact map_congr_left fun e he => (h.index e he).1
  rw [hkeys]
  exact s.deals.keys_nodup

lemma unlist_perm {c : Collection Int} {rest : List (M256i × Deal)} {p : M256i × Deal}
    {key : M256i × Deal → M256i × Int} (hc : (c.map indexKey).Perm (live.map key))
    (hlive : live.Perm (p :: rest)) :
    ((unlist c (key p).1 (key p).2).map indexKey).Perm (rest.map key) :=
  Keyed.map_key_remove_perm (hc.trans (hlive.map key))

lemma leaveOwners_spec {rest : List (M256i × Deal)} (h : Listed s)
    (hlive : s.live.Perm ((owner, d) :: rest)) :
    (leaveOwners owner s).Nodup ∧ ∀ x, x ∈ leaveOwners owner s ↔ x ∈ rest.map Prod.fst := by
  have hmem : ∀ x, x ∈ s.ownersSet ↔ x = owner ∨ x ∈ rest.map Prod.fst := fun x => by
    rw [h.mem_owners, (hlive.map Prod.fst).mem_iff, map_cons, mem_cons]
  have hcount : s.ownerDealIndexes.population owner = (rest.countP fun p => p.1 = owner) + 1 := by
    rw [population_eq h.ownerIndex, hlive.countP_eq, countP_cons_of_pos (by simp)]
  unfold leaveOwners
  split_ifs with hlast
  · have hleft : owner ∉ rest.map Prod.fst := countP_owner_eq_zero.mp (by omega)
    refine ⟨h.owners_nodup.erase owner, fun x => ?_⟩
    rw [h.owners_nodup.mem_erase_iff, hmem]
    constructor
    · rintro ⟨hne, hx⟩
      exact hx.resolve_left hne
    · intro hx
      exact ⟨fun heq => hleft (heq ▸ hx), .inr hx⟩
  · have hleft : owner ∈ rest.map Prod.fst := by
      by_contra hnot
      have := countP_owner_eq_zero.mpr hnot
      omega
    refine ⟨h.owners_nodup, fun x => ?_⟩
    rw [hmem]
    constructor
    · rintro (rfl | hx)
      · exact hleft
      · exact hx
    · exact .inr

/-- A deal leaves the books together with its reservations. -/
lemma Inv.remove (h : Inv s) (hd : s.deals.lookup k = some d)
    (ho : s.dealIndexOwnerMap.lookup k = some owner) {c : Collection AssetWithAmount}
    (htidy : Tidy c) (hadd : Added owner (amountOf d.offeredAssets) c s.reservedAssets)
    (tokens : List Asset) :
    Inv (removeDeal k owner d.acceptorId
      { s with earnedTokens := tokens, reservedAssets := c }) := by
  have hlive := live_perm hd ho
  have hindex := h.index_eq hd
  obtain ⟨hnodup, hmem⟩ := leaveOwners_spec h.toListed hlive
  refine ⟨⟨fun j => ?_, ?_, ?_, hnodup, hmem⟩, fun e he => ?_, ?_, fun p hp => ?_, htidy,
    fun o a => ?_⟩
  · change j ∈ s.dealIndexOwnerMap.erase k ↔ j ∈ s.deals.erase k
    rw [AList.mem_erase, AList.mem_erase, h.ownerMap]
  · have := unlist_perm h.ownerIndex hlive
    rwa [hindex] at this
  · have := unlist_perm h.acceptorIndex hlive
    rwa [hindex] at this
  · exact h.index e ((entries_perm hd).mem_iff.mpr (mem_cons_of_mem _ he))
  · have hlength := hlive.length_eq
    exact (Nat.le_of_lt (Nat.lt_of_succ_le hlength.ge)).trans h.bounded
  · exact h.agreed p (hlive.mem_iff.mpr (mem_cons_of_mem _ hp))
  · have hbefore := h.reserved_eq o a
    rw [hadd o a, offeredIn_perm hlive, offeredIn_cons] at hbefore
    change reserved c o a = offeredIn (dealsOf (s.deals.erase k) (s.dealIndexOwnerMap.erase k)) o a
    simp only at hbefore
    omega

def offeredPairs (live : List (M256i × Deal)) : List (M256i × Asset) :=
  live.flatMap fun p => p.2.offeredAssets.map fun x => (p.1, x.asset)

lemma mem_offeredPairs {a : Asset} (h : 0 < offeredIn live owner a) :
    (owner, a) ∈ offeredPairs live := by
  obtain ⟨p, hp, rfl, ha⟩ := exists_of_offeredIn_pos h
  obtain ⟨x, hx, rfl⟩ := mem_map.mp ha
  exact mem_flatMap.mpr ⟨p, hp, mem_map_of_mem hx⟩

lemma offeredPairs_length (h : ∀ p ∈ live, p.2.offeredAssets.length ≤ ESCROW_MAX_ASSETS_IN_DEAL) :
    (offeredPairs live).length ≤ live.length * ESCROW_MAX_ASSETS_IN_DEAL := by
  induction live with
  | nil => simp [offeredPairs]
  | cons p rest ih =>
    have hp := h p mem_cons_self
    have hrest := ih fun q hq => h q (mem_cons_of_mem p hq)
    simp only [offeredPairs, flatMap_cons, length_append, length_map, length_cons] at *
    linarith

lemma setMap_insert {V : Type} {L : Nat} {m : AList fun _ : Int => V} (h : m.entries.length < L)
    (key : Int) (value : V) : setMap L m key value = m.insert key value := if_pos (.inr h)

lemma Inv.owners_length (h : Inv s) :
    s.dealIndexOwnerMap.entries.length = s.ownerDealIndexes.length := by
  rw [← h.deals_length]
  have hkeys : s.dealIndexOwnerMap.keys.Perm s.deals.keys := by
    rw [perm_ext_iff_of_nodup s.dealIndexOwnerMap.keys_nodup s.deals.keys_nodup]
    intro k
    exact h.ownerMap k
  simpa [AList.keys, List.keys] using hkeys.length_eq

lemma joinOwners_spec (h : Inv s) (hroom : s.ownerDealIndexes.length < ESCROW_MAX_DEALS)
    (owner : M256i) {owners : List M256i}
    (howners : owners = if s.ownerDealIndexes.population owner = 0 then
      addSet ESCROW_MAX_DEALS s.ownersSet owner else s.ownersSet) :
    owners.Nodup ∧ ∀ x, x ∈ owners ↔ x = owner ∨ x ∈ s.live.map Prod.fst := by
  have hcount := population_eq h.ownerIndex owner
  have hlive : s.live.length = s.ownerDealIndexes.length := by
    simpa using h.ownerIndex.length_eq.symm
  split_ifs at howners with hnone
  · have hnot : owner ∉ s.ownersSet := by
      rw [h.mem_owners]
      exact countP_owner_eq_zero.mp (hcount.symm.trans hnone)
    have hlength : s.ownersSet.length < ESCROW_MAX_DEALS := by
      have hsub : s.ownersSet ⊆ s.live.map Prod.fst := fun x hx => (h.mem_owners x).mp hx
      have := (subperm_of_subset h.owners_nodup hsub).length_le
      rw [length_map] at this
      omega
    rw [addSet, if_neg (by simp [hnot, hlength])] at howners
    subst howners
    refine ⟨?_, fun x => ?_⟩
    · rw [nodup_append]
      refine ⟨h.owners_nodup, nodup_singleton owner, ?_⟩
      rintro x hx y hy rfl
      exact hnot (mem_singleton.mp hy ▸ hx)
    · rw [mem_append, mem_singleton, h.mem_owners, or_comm]
  · subst howners
    refine ⟨h.owners_nodup, fun x => ?_⟩
    rw [h.mem_owners]
    constructor
    · exact .inr
    · rintro (rfl | hx)
      · by_contra hnot
        exact hnone (hcount.trans (countP_owner_eq_zero.mpr hnot))
      · exact hx

/-- A new deal enters the books together with its reservations. -/
lemma Inv.openDeal (h : Inv s) (call : Invocation) (hagreed : Agreed call.invocator d)
    (hindex : d.index = s.currentDealIndex)
    (hroom : s.ownerDealIndexes.length < ESCROW_MAX_DEALS)
    (hlt : ∀ a, offeredIn s.live call.invocator a + amountOf d.offeredAssets a < 2 ^ 63) :
    Inv (Escrow.openDeal call d s) ∧
      (Escrow.openDeal call d s).live = (call.invocator, d) :: s.live := by
  have hdeals : (Escrow.openDeal call d s).deals = s.deals.insert s.currentDealIndex d :=
    setMap_insert (h.deals_length.trans_lt hroom) _ _
  have howners : (Escrow.openDeal call d s).dealIndexOwnerMap =
      s.dealIndexOwnerMap.insert s.currentDealIndex call.invocator := by
    refine (setMap_insert (h.owners_length.trans_lt hroom) _ _).trans ?_
    rw [hindex]
  have hlive : (Escrow.openDeal call d s).live = (call.invocator, d) :: s.live := by
    rw [State.live, hdeals, howners, dealsOf_insert h.fresh]
    rfl
  have hlength : ((call.invocator, d) :: s.live).length ≤ ESCROW_MAX_DEALS := by
    have := h.ownerIndex.length_eq
    simp only [length_map, length_cons] at this ⊢
    omega
  have hpairs : (offeredPairs ((call.invocator, d) :: s.live)).length ≤
      ESCROW_MAX_RESERVED_ASSETS := by
    refine (offeredPairs_length fun p hp => ?_).trans (Nat.mul_le_mul_right _ hlength)
    obtain rfl | hp := mem_cons.mp hp
    · exact hagreed.offered_length
    · exact (h.agreed p hp).offered_length
  obtain ⟨htidy, hadd⟩ := reserveAll_spec call.invocator hpairs h.tidy
    hagreed.offered_pos (fun a => by rw [h.reserved_eq]; exact hlt a)
    (fun o a hpos => by
      rw [h.reserved_eq] at hpos
      refine mem_offeredPairs (hpos.trans_le ?_)
      exact Nat.le_add_left _ _)
    (fun x hx => mem_flatMap.mpr ⟨_, mem_cons_self, mem_map_of_mem hx⟩)
  obtain ⟨hnodup, hmem⟩ := joinOwners_spec h hroom call.invocator rfl
  refine ⟨⟨⟨fun j => ?_, ?_, ?_, hnodup, fun x => ?_⟩, fun e he => ?_, hlive ▸ hlength,
    fun p hp => ?_, htidy, fun o a => ?_⟩, hlive⟩
  · rw [hdeals, howners, AList.mem_insert, AList.mem_insert, h.ownerMap]
  · rw [hlive, map_cons, hindex]
    exact ((Collection.add_perm hroom _ _ _).map indexKey).trans (h.ownerIndex.cons _)
  · rw [hlive, map_cons, hindex]
    exact ((Collection.add_perm (h.acceptors_length.trans_lt hroom) _ _ _).map indexKey).trans
      (h.acceptorIndex.cons _)
  · rw [hlive, map_cons, mem_cons]
    exact hmem x
  · rw [hdeals, AList.entries_insert_of_notMem h.fresh] at he
    change e.2.index = e.1 ∧ e.1 < s.currentDealIndex + 1
    obtain rfl | he := mem_cons.mp he
    · exact ⟨hindex, by simp⟩
    · have := h.index e he
      exact ⟨this.1, by omega⟩
  · rw [hlive] at hp
    obtain rfl | hp := mem_cons.mp hp
    · exact hagreed
    · exact h.agreed p hp
  · rw [hlive, offeredIn_cons, add_comm, ← h.reserved_eq]
    exact hadd o a

end

end QubicCore.Contracts.Escrow
