import QubicCore.Mining.AntColony.Tree

/-!
# The records form a forest

A commit either stores a record that is admissible after the records before it, or leaves the
records and what is derived from them alone.
-/

namespace QubicCore.Mining.AntColony

open List

variable {Ann PackedAnn : Type} {scorer : Scorer Ann PackedAnn} {s : Solution Ann}
  {parentRec : Option AntSolutionRecord} {c c' : Colony PackedAnn}

/-! ## One commit -/

structure Passed (s : Solution Ann) (parentRec : Option AntSolutionRecord) (c : Colony PackedAnn) :
    Prop where
  anchor_le : s.input.anchorTick ≤ s.input.publishTick
  anchor_window : s.input.publishTick - s.input.anchorTick ≤ ANT_PUBLISH_WINDOW_TICKS
  same_tree : ∀ rec, parentRec = some rec → rec.pubkey = s.input.pubkey
  beats : s.trustedScore = false →
    s.rating.isBetterThan ((parentRec.map AntSolutionRecord.rating).getD .worst)
  fresh : s.input.dedupKey ∉ c.dedup
  room : c.solutionCount < ANT_MAX_NODES_PER_EPOCH
  slot : slotOf c.initialTick s.input.selfRef.tick = some (s.input.selfRef.tick - c.initialTick)
  miner_room : s.input.parentRef.isRoot → ¬(s.input.pubkey ∉ c.childHeadByMiner ∧
    c.childHeadByMiner.keys.card = ANT_CHILD_HEAD_BY_MINER_SIZE)

def prevHead (s : Solution Ann) (c : Colony PackedAnn) : Nat :=
  (chainHead c.toDerived s.input.parentRef s.input.pubkey).getD NO_SIBLING

structure Stored (scorer : Scorer Ann PackedAnn) (s : Solution Ann)
    (parentRec : Option AntSolutionRecord) (c c' : Colony PackedAnn) : Prop where
  passed : Passed s parentRec c
  derived : c'.toDerived = c.toDerived.add c.initialTick c.solutionCount
    ⟨s.input.dedupKey, s.input.selfRef⟩
  records : c'.records = c.records ++ [newRecord s parentRec c.solutionCount (prevHead s c)]
  annPool : ∀ idx, c'.annPool idx =
    if idx = c.solutionCount then (s.childAnn.map scorer.store).getD (c.annPool idx)
    else c.annPool idx
  exportSet : c'.exportSet = exported scorer s parentRec c.exportSet
  initialTick : c'.initialTick = c.initialTick
  rootSeed : c'.rootSeed = c.rootSeed

lemma validateChild_eq_valid {child : ChildCandidate} {childCount threshold : Nat}
    {trustedScore : Bool}
    (h : validateChild child parentRec childCount threshold trustedScore = .valid) :
    child.anchorTick ≤ child.publishTick ∧
      child.publishTick - child.anchorTick ≤ ANT_PUBLISH_WINDOW_TICKS ∧
      (∀ rec, parentRec = some rec → rec.pubkey = child.pubkey) ∧
      (trustedScore = false → child.rating.isBetterThan
        ((parentRec.map AntSolutionRecord.rating).getD .worst)) := by
  unfold validateChild at h
  split_ifs at h with hstale htree hfloor hparent hmany
  · refine ⟨by omega, by omega, ?_, ?_⟩
    · rintro rec rfl
      simpa using htree
    · intro htrusted
      simpa [htrusted] using hparent

lemma claimHead_eq_some {parentRef : SolutionRef} {pubkey : M256i} {idx head : Nat}
    {d heads : Derived} (hroom : d.childHeadByParent.keys.card < ANT_CHILD_HEAD_BY_PARENT_SIZE)
    (h : claimHead parentRef pubkey idx d = some (head, heads)) :
    head = (chainHead d parentRef pubkey).getD NO_SIBLING ∧
      heads.childHeadByParent = (if parentRef.isRoot then d.childHeadByParent
        else d.childHeadByParent.insert parentRef idx) ∧
      heads.childHeadByMiner = (if parentRef.isRoot then d.childHeadByMiner.insert pubkey idx
        else d.childHeadByMiner) ∧
      (parentRef.isRoot → ¬(pubkey ∉ d.childHeadByMiner ∧
        d.childHeadByMiner.keys.card = ANT_CHILD_HEAD_BY_MINER_SIZE)) := by
  unfold claimHead at h
  split_ifs at h with hroot hfull hfull
  · cases h
    simp [hroot, hfull]
  · exact absurd hfull.2 hroom.ne
  · cases h
    simp [hroot]

/-- A commit stores the record, or changes at most the export set. -/
lemma commit_cases (scorer : Scorer Ann PackedAnn) (s : Solution Ann)
    (parentRec : Option AntSolutionRecord) (c : Colony PackedAnn) :
    (commit scorer s parentRec c).1 = .valid ∧
      (c.childHeadByParent.keys.card < ANT_CHILD_HEAD_BY_PARENT_SIZE →
        Stored scorer s parentRec c (commit scorer s parentRec c).2) ∨
    (commit scorer s parentRec c).1 ≠ .valid ∧ ((commit scorer s parentRec c).2 = c ∨
      (commit scorer s parentRec c).2 =
        { c with exportSet := exported scorer s parentRec c.exportSet }) := by
  unfold commit
  dsimp only
  split
  · rename_i hvalid
    by_cases hdedup : s.input.dedupKey ∈ c.dedup
    · rw [if_pos hdedup]
      exact .inr ⟨nofun, .inl rfl⟩
    rw [if_neg hdedup]
    by_cases hcount : ANT_MAX_NODES_PER_EPOCH ≤ c.solutionCount
    · rw [if_pos hcount]
      exact .inr ⟨nofun, .inr rfl⟩
    rw [if_neg hcount]
    split
    · exact .inr ⟨nofun, .inl rfl⟩
    rename_i slot hslot
    by_cases hfull : c.dedup.card = ANT_DEDUP_SIZE
    · rw [if_pos hfull]
      exact .inr ⟨nofun, .inl rfl⟩
    rw [if_neg hfull]
    split
    · -- The key that was just added is removed again.
      rw [Finset.erase_insert hdedup]
      exact .inr ⟨nofun, .inl rfl⟩
    rename_i head heads hclaim
    refine .inl ⟨rfl, fun hroom => ?_⟩
    obtain ⟨hhead, hparents, hminers, hminer⟩ := claimHead_eq_some hroom hclaim
    obtain ⟨hanchor, hwindow, htree, hbeats⟩ := validateChild_eq_valid hvalid
    obtain ⟨hle, rfl, _⟩ := slotOf_eq_some.mp hslot
    refine ⟨⟨hanchor, hwindow, htree, hbeats, hdedup, not_le.mp hcount, hslot, hminer⟩, ?_,
      by rw [hhead, prevHead], ?_, rfl, rfl, rfl⟩
    · rw [hparents, hminers]
      rfl
    · cases s.childAnn with
      | none => simp
      | some ann => simp [Function.update_apply]
  · rename_i hne
    exact .inr ⟨hne, .inl rfl⟩

/-! ## Admissible records -/

structure Admissible (initialTick : Nat) (earlier : List AntSolutionRecord)
    (rec : AntSolutionRecord) : Prop where
  room : earlier.length < ANT_MAX_NODES_PER_EPOCH
  slot : slotOf initialTick rec.selfRef.tick = some (rec.selfRef.tick - initialTick)
  not_root : rec.selfRef.isRoot = false
  after : ∀ other ∈ earlier, other.selfRef.tick ≤ rec.selfRef.tick ∧ other.selfRef ≠ rec.selfRef
  fresh : ∀ other ∈ earlier, other.dedupKey ≠ rec.dedupKey
  anchor_le : rec.anchorTick ≤ rec.selfRef.tick
  anchor_window : rec.selfRef.tick - rec.anchorTick ≤ ANT_PUBLISH_WINDOW_TICKS
  depth_root : rec.parentRef.isRoot → rec.depth = 1
  parent : rec.parentRef.isRoot = false → ∃ p ∈ earlier, p.selfRef = rec.parentRef ∧
    p.pubkey = rec.pubkey ∧ rec.depth = p.depth + 1
  miner_room : rec.parentRef.isRoot →
    ¬(rec.pubkey ∉ (derived initialTick earlier).childHeadByMiner ∧
      (derived initialTick earlier).childHeadByMiner.keys.card = ANT_CHILD_HEAD_BY_MINER_SIZE)
  sibling : rec.nextSiblingIdx =
    (chainHead (derived initialTick earlier) rec.parentRef rec.pubkey).getD NO_SIBLING

def Admitted (initialTick : Nat) (records : List AntSolutionRecord) : Prop :=
  ∀ i rec, records[i]? = some rec → Admissible initialTick (records.take i) rec

section

variable {initialTick : Nat} {records : List AntSolutionRecord} {rec : AntSolutionRecord}

section

variable (h : Admitted initialTick records)
include h

lemma Admitted.append (hrec : Admissible initialTick records rec) :
    Admitted initialTick (records ++ [rec]) := by
  intro i r hi
  rw [List.getElem?_append] at hi
  split_ifs at hi with hlt
  · rw [take_append_of_le_length hlt.le]
    exact h i r hi
  · rw [List.getElem?_singleton] at hi
    split_ifs at hi with hzero
    cases hi
    have hlen : i = records.length := by omega
    rw [hlen, take_left]
    exact hrec

lemma Admitted.ordered : Ordered initialTick (records.map AntSolutionRecord.selfRef) where
  sorted := by
    rw [pairwise_map, pairwise_iff_getElem]
    intro i j hi hj hij
    exact (h j _ (List.getElem?_eq_getElem hj)).after _
      (mem_take_iff_getElem.mpr ⟨i, by omega, rfl⟩)
  slot := by
    intro ref href
    obtain ⟨rec, hrec, rfl⟩ := mem_map.mp href
    obtain ⟨i, hi⟩ := mem_iff_getElem?.mp hrec
    exact (h i rec hi).slot
  not_root := by
    intro ref href
    obtain ⟨rec, hrec, rfl⟩ := mem_map.mp href
    obtain ⟨i, hi⟩ := mem_iff_getElem?.mp hrec
    exact (h i rec hi).not_root

lemma Admitted.linked : Linked initialTick records := fun i rec hi => (h i rec hi).sibling

lemma Admitted.keys_nodup : (records.map AntSolutionRecord.dedupKey).Nodup := by
  rw [List.Nodup, pairwise_map, pairwise_iff_getElem]
  intro i j hi hj hij
  exact (h j _ (List.getElem?_eq_getElem hj)).fresh _
    (mem_take_iff_getElem.mpr ⟨i, by omega, rfl⟩)

lemma Admitted.length_le : records.length ≤ ANT_MAX_NODES_PER_EPOCH := by
  cases hlen : records.length with
  | zero => exact Nat.zero_le _
  | succ n =>
    have hlt : n < records.length := by omega
    have hroom := (h n _ (List.getElem?_eq_getElem hlt)).room
    rw [length_take] at hroom
    omega

/-- The record that a parent reference names comes before the child. -/
lemma Admitted.parent_lt {i j : Nat}
    {p : AntSolutionRecord} (hi : records[i]? = some rec) (hj : records[j]? = some p)
    (href : p.selfRef = rec.parentRef) : j < i := by
  have hno := (h j p hj).not_root
  rw [href] at hno
  obtain ⟨q, hq, hqref, _⟩ := (h i rec hi).parent hno
  obtain ⟨k, hk⟩ := mem_iff_getElem?.mp hq
  rw [List.getElem?_take] at hk
  split_ifs at hk with hlt
  rw [h.ordered.index_unique hj hk (href.trans hqref.symm)]
  exact hlt

end

end

structure Inv (c : Colony PackedAnn) : Prop where
  admitted : Admitted c.initialTick c.records
  derived : c.toDerived = derived c.initialTick c.records

lemma Inv.parents_room (h : Inv c) :
    c.childHeadByParent.keys.card < ANT_CHILD_HEAD_BY_PARENT_SIZE := by
  have hcard := parents_card_le c.initialTick c.records
  rw [← h.derived] at hcard
  have hlen := h.admitted.length_le
  norm_num [ANT_CHILD_HEAD_BY_PARENT_SIZE, ANT_MAX_NODES_PER_EPOCH] at hlen ⊢
  omega

/-- The search of the colony finds every record by its reference, and nothing else. -/
lemma Inv.find_eq_some (h : Inv c) {ref : SolutionRef} {i : Nat} :
    findIndexBySolutionRef c.initialTick c.tickIndex c.records ref = some i ↔
      ∃ rec, c.records[i]? = some rec ∧ rec.selfRef = ref := by
  rw [h.derived]
  exact findIndexBySolutionRef_eq_some h.admitted.ordered

/-- A resolved parent is missing for the root, and otherwise the record with the reference. -/
lemma Inv.tryGetParent_eq (h : Inv c) {parentRef : SolutionRef}
    (hp : tryGetParent c parentRef = (.valid, parentRec)) :
    parentRef.isRoot ∧ parentRec = none ∨ parentRef.isRoot = false ∧
      ∃ (j : Nat) (rec : AntSolutionRecord),
        c.records[j]? = some rec ∧ rec.selfRef = parentRef ∧ parentRec = some rec := by
  unfold tryGetParent at hp
  split_ifs at hp with hroot
  · cases hp
    exact .inl ⟨hroot, rfl⟩
  · refine .inr ⟨by simpa using hroot, ?_⟩
    split at hp
    · cases hp
    rename_i j hfind
    obtain ⟨rec, hj, href⟩ := h.find_eq_some.mp hfind
    rw [hj] at hp
    cases hp
    exact ⟨j, rec, hj, href, rfl⟩

/-- What the callers guarantee of a solution: it is published in its own tick, and its reference is
new and not of an earlier tick than the records. -/
structure Next (s : Solution Ann) (c : Colony PackedAnn) : Prop where
  publish : s.input.publishTick = s.input.selfRef.tick
  not_root : s.input.selfRef.isRoot = false
  after : ∀ rec ∈ c.records, rec.selfRef.tick ≤ s.input.selfRef.tick ∧ rec.selfRef ≠ s.input.selfRef

lemma Inv.stored (h : Inv c) (hnext : Next s c)
    (hp : tryGetParent c s.input.parentRef = (.valid, parentRec))
    (hs : Stored scorer s parentRec c c') : Inv c' := by
  have hpassed := hs.passed
  have hrec : Admissible c.initialTick c.records
      (newRecord s parentRec c.solutionCount (prevHead s c)) := by
    refine ⟨hpassed.room, hpassed.slot, hnext.not_root, hnext.after, ?_,
      hpassed.anchor_le.trans hnext.publish.le, ?_, ?_, ?_, ?_, ?_⟩
    · intro other hother heq
      refine hpassed.fresh ?_
      rw [h.derived]
      exact mem_dedup.mpr ⟨other, hother, heq⟩
    · have hwindow := hpassed.anchor_window
      rw [hnext.publish] at hwindow
      exact hwindow
    · intro hroot
      rcases h.tryGetParent_eq hp with ⟨_, rfl⟩ | ⟨hno, _⟩
      · rfl
      · exact absurd hroot (by simpa [newRecord] using hno)
    · intro hno
      rcases h.tryGetParent_eq hp with ⟨hroot, _⟩ | ⟨_, j, p, hj, href, rfl⟩
      · exact absurd hno (by simpa [newRecord] using hroot)
      · exact ⟨p, mem_of_getElem? hj, href, hpassed.same_tree p rfl, rfl⟩
    · intro hroot
      have hroom := hpassed.miner_room hroot
      rw [h.derived] at hroom
      exact hroom
    · rw [← h.derived]
      rfl
  refine ⟨?_, ?_⟩
  · rw [hs.records, hs.initialTick]
    exact h.admitted.append hrec
  · rw [hs.derived, hs.records, hs.initialTick, derived_append, h.derived]
    rfl

/-- A commit stores the record or keeps everything but the export set. -/
lemma Inv.commitChild_cases (h : Inv c) (scorer : Scorer Ann PackedAnn) (s : Solution Ann) :
    (∃ parentRec, tryGetParent c s.input.parentRef = (.valid, parentRec) ∧
      (commitChild scorer s c).1 = .valid ∧
      Stored scorer s parentRec c (commitChild scorer s c).2) ∨
    (commitChild scorer s c).1 ≠ .valid ∧ ((commitChild scorer s c).2 = c ∨
      ∃ parentRec, (commitChild scorer s c).2 =
        { c with exportSet := exported scorer s parentRec c.exportSet }) := by
  unfold commitChild
  split
  · rename_i parentRec hp
    rcases commit_cases scorer s parentRec c with ⟨hvalid, hstored⟩ | ⟨hvalid, hkept⟩
    · exact .inl ⟨parentRec, hp, hvalid, hstored h.parents_room⟩
    · exact .inr ⟨hvalid, hkept.imp_right fun heq => ⟨parentRec, heq⟩⟩
  · rename_i hne _
    exact .inr ⟨hne, .inl rfl⟩

/-! ## Sequences of commits -/

/-- The colony with the kinds of the scores of its records. -/
structure Config (PackedAnn : Type) where
  colony : Colony PackedAnn
  trusted : List Bool

def commitNext (scorer : Scorer Ann PackedAnn) (p : Config PackedAnn) (s : Solution Ann) :
    Config PackedAnn where
  colony := (commitChild scorer s p.colony).2
  trusted :=
    if (commitChild scorer s p.colony).1 = .valid then p.trusted ++ [s.trustedScore] else p.trusted

structure Beats (records : List AntSolutionRecord) (rec : AntSolutionRecord) : Prop where
  root : rec.parentRef.isRoot → rec.rating.isBetterThan .worst
  parent : ∀ p ∈ records, p.selfRef = rec.parentRef → rec.rating.isBetterThan p.rating

structure Grown (p : Config PackedAnn) : Prop where
  inv : Inv p.colony
  length : p.trusted.length = p.colony.records.length
  beats : ∀ (i : Nat) (rec : AntSolutionRecord), p.colony.records[i]? = some rec →
    p.trusted[i]? = some false → Beats p.colony.records rec

lemma Inv.exportSet (h : Inv c) (set : ExportSet PackedAnn) : Inv { c with exportSet := set } :=
  ⟨h.admitted, h.derived⟩

/-- A record that is appended does not become the parent of an earlier one. -/
lemma Beats.append {records : List AntSolutionRecord} {rec new : AntSolutionRecord}
    (h : Beats records rec) {initialTick i : Nat}
    (hall : Admitted initialTick (records ++ [new])) (hi : records[i]? = some rec) :
    Beats (records ++ [new]) rec := by
  refine ⟨h.root, fun p hp href => ?_⟩
  rcases mem_append.mp hp with hold | hnew
  · exact h.parent p hold href
  cases mem_singleton.mp hnew
  have hlt := (List.getElem?_eq_some_iff.mp hi).1
  have hlast : (records ++ [new])[records.length]? = some new := by simp
  have hbefore := hall.parent_lt ((List.getElem?_append_left hlt).trans hi) hlast href
  omega

lemma Stored.beats (h : Inv c) (hnext : Next s c)
    (hp : tryGetParent c s.input.parentRef = (.valid, parentRec))
    (hs : Stored scorer s parentRec c c') (hscored : s.trustedScore = false) :
    Beats c'.records (newRecord s parentRec c.solutionCount (prevHead s c)) := by
  have hbeats := hs.passed.beats hscored
  have hord := (h.stored hnext hp hs).admitted.ordered
  rw [hs.records] at hord ⊢
  rcases h.tryGetParent_eq hp with ⟨hroot, rfl⟩ | ⟨hno, j, p, hj, href, rfl⟩
  · refine ⟨fun _ => hbeats, fun p hp href => ?_⟩
    have hnot := hord.not_root _ (mem_map_of_mem hp)
    rw [href] at hnot
    exact absurd hroot (by simpa [newRecord] using hnot)
  · refine ⟨fun hroot => absurd hno (by simpa [newRecord] using hroot), fun q hq hqref => ?_⟩
    cases hord.eq_of_selfRef hq (mem_append_left _ (mem_of_getElem? hj)) (hqref.trans href.symm)
    exact hbeats

variable {p : Config PackedAnn}

lemma Grown.commitNext (h : Grown p) (hnext : Next s p.colony) : Grown (commitNext scorer p s) := by
  unfold AntColony.commitNext
  rcases h.inv.commitChild_cases scorer s with
    ⟨parentRec, hp, hvalid, hs⟩ | ⟨hvalid, hkept⟩
  · have hinv := h.inv.stored hnext hp hs
    rw [if_pos hvalid]
    refine ⟨hinv, ?_, ?_⟩
    · dsimp only
      rw [hs.records, length_append, length_append, h.length]
      rfl
    · intro i rec hi hscored
      dsimp only at hi hscored ⊢
      rw [hs.records, List.getElem?_append] at hi
      rw [List.getElem?_append, h.length] at hscored
      split_ifs at hi hscored with hlt
      · have hall := hinv.admitted
        rw [hs.records] at hall ⊢
        exact (h.beats i rec hi hscored).append hall hi
      · rw [List.getElem?_singleton] at hi hscored
        split_ifs at hi hscored
        cases hi
        exact hs.beats h.inv hnext hp (Option.some_inj.mp hscored)
  · rw [if_neg hvalid]
    rcases hkept with heq | ⟨parentRec, heq⟩
    · rw [heq]
      exact h
    · rw [heq]
      exact ⟨h.inv.exportSet _, h.length, h.beats⟩

lemma commitNext_selfRef (h : Inv p.colony) {rec : AntSolutionRecord}
    (hrec : rec ∈ (commitNext scorer p s).colony.records) :
    rec ∈ p.colony.records ∨ rec.selfRef = s.input.selfRef := by
  unfold commitNext at hrec
  rcases h.commitChild_cases scorer s with ⟨parentRec, _, _, hs⟩ | ⟨_, hkept⟩
  · rw [hs.records, mem_append, mem_singleton] at hrec
    rcases hrec with hold | rfl
    · exact .inl hold
    · exact .inr rfl
  · rcases hkept with heq | ⟨parentRec, heq⟩
    · rw [heq] at hrec
      exact .inl hrec
    · rw [heq] at hrec
      exact .inl hrec

/-- The order of the references of a sequence. -/
def Follows (a b : Solution Ann) : Prop :=
  a.input.selfRef.tick ≤ b.input.selfRef.tick ∧ a.input.selfRef ≠ b.input.selfRef

lemma Grown.commits (h : Grown p) {solutions : List (Solution Ann)}
    (hfollows : solutions.Pairwise Follows) (hnext : ∀ s ∈ solutions, Next s p.colony) :
    Grown (solutions.foldl (AntColony.commitNext scorer) p) := by
  induction solutions generalizing p with
  | nil => exact h
  | cons s solutions ih =>
    obtain ⟨hhead, htail⟩ := pairwise_cons.mp hfollows
    refine ih (h.commitNext (hnext s mem_cons_self)) htail fun t ht => ?_
    have hold := hnext t (mem_cons_of_mem s ht)
    refine ⟨hold.publish, hold.not_root, fun rec hrec => ?_⟩
    rcases commitNext_selfRef h.inv hrec with hrec | href
    · exact hold.after rec hrec
    · rw [href]
      exact hhead t ht

/-- The stored records are a forest, and the colony finds its way in it. -/
structure Forest (p : Config PackedAnn) : Prop where
  /-- A parent that is not the root is one earlier record of the same identity. -/
  parent : ∀ (i : Nat) (rec : AntSolutionRecord), p.colony.records[i]? = some rec →
    rec.parentRef.isRoot = false → ∃ (j : Nat) (parent : AntSolutionRecord), j < i ∧
      p.colony.records[j]? = some parent ∧ parent.selfRef = rec.parentRef ∧
      parent.pubkey = rec.pubkey ∧ rec.depth = parent.depth + 1 ∧
      ∀ other ∈ p.colony.records, other.selfRef = rec.parentRef → other = parent
  depth_root : ∀ rec ∈ p.colony.records, rec.parentRef.isRoot → rec.depth = 1
  distinct : (p.colony.records.map AntSolutionRecord.dedupKey).Nodup
  beats : ∀ (i : Nat) (rec : AntSolutionRecord), p.colony.records[i]? = some rec →
    p.trusted[i]? = some false → Beats p.colony.records rec
  anchor : ∀ rec ∈ p.colony.records, rec.anchorTick ≤ rec.selfRef.tick ∧
    rec.selfRef.tick - rec.anchorTick ≤ ANT_PUBLISH_WINDOW_TICKS
  find : ∀ ref i, findIndexBySolutionRef p.colony.initialTick p.colony.tickIndex
    p.colony.records ref = some i ↔ ∃ rec, p.colony.records[i]? = some rec ∧ rec.selfRef = ref
  refs_nodup : (p.colony.records.map AntSolutionRecord.selfRef).Nodup
  chain : ∀ parentRef pubkey, Chain p.colony.records
    ((chainHead p.colony.toDerived parentRef pubkey).getD NO_SIBLING)
    (childrenOf p.colony.records parentRef pubkey).reverse

lemma Grown.forest (h : Grown p) : Forest p where
  parent := by
    intro i rec hi hno
    obtain ⟨parent, hparent, href, hpubkey, hdepth⟩ := (h.inv.admitted i rec hi).parent hno
    obtain ⟨j, hj⟩ := mem_iff_getElem?.mp hparent
    rw [List.getElem?_take] at hj
    split_ifs at hj with hlt
    refine ⟨j, parent, hlt, hj, href, hpubkey, hdepth, fun other hother horef => ?_⟩
    exact h.inv.admitted.ordered.eq_of_selfRef hother (mem_of_getElem? hj) (horef.trans href.symm)
  depth_root := by
    intro rec hrec hroot
    obtain ⟨i, hi⟩ := mem_iff_getElem?.mp hrec
    exact (h.inv.admitted i rec hi).depth_root hroot
  distinct := h.inv.admitted.keys_nodup
  beats := h.beats
  anchor := by
    intro rec hrec
    obtain ⟨i, hi⟩ := mem_iff_getElem?.mp hrec
    exact ⟨(h.inv.admitted i rec hi).anchor_le, (h.inv.admitted i rec hi).anchor_window⟩
  find _ _ := h.inv.find_eq_some
  refs_nodup := h.inv.admitted.ordered.nodup
  chain parentRef pubkey := by
    rw [h.inv.derived]
    exact h.inv.admitted.linked.chain parentRef pubkey

/-- The commits of an epoch build a forest, and a commit that is not valid leaves it alone. -/
theorem forest_of_commits (scorer : Scorer Ann PackedAnn) {c : Colony PackedAnn}
    (hrecords : c.records = []) (hderived : c.toDerived = .empty) {solutions : List (Solution Ann)}
    (hfollows : solutions.Pairwise Follows)
    (hpublish : ∀ s ∈ solutions, s.input.publishTick = s.input.selfRef.tick)
    (hself : ∀ s ∈ solutions, s.input.selfRef.isRoot = false) :
    Forest (solutions.foldl (commitNext scorer) ⟨c, []⟩) ∧
      ∀ (s : Solution Ann) (parentRec : Option AntSolutionRecord) (c' : Colony PackedAnn),
        (commit scorer s parentRec c').1 ≠ .valid →
          (commit scorer s parentRec c').2.records = c'.records ∧
          (commit scorer s parentRec c').2.toDerived = c'.toDerived := by
  constructor
  · have hgrown : Grown (⟨c, []⟩ : Config PackedAnn) := by
      refine ⟨⟨?_, ?_⟩, ?_, ?_⟩
      · rw [hrecords]
        exact nofun
      · rw [hderived, hrecords]
        rfl
      · rw [hrecords]
        rfl
      · exact nofun
    refine (hgrown.commits hfollows fun s hs => ⟨hpublish s hs, hself s hs, ?_⟩).forest
    rw [hrecords]
    exact nofun
  · intro s parentRec c' hne
    rcases commit_cases scorer s parentRec c' with ⟨hvalid, _⟩ | ⟨_, heq | heq⟩
    · exact absurd hvalid hne
    · rw [heq]
      exact ⟨rfl, rfl⟩
    · rw [heq]
      exact ⟨rfl, rfl⟩

def smallScorer : Scorer Unit Unit := ⟨id⟩

def smallColony : Colony Unit where
  toDerived := .empty
  records := []
  annPool _ := ()
  exportSet := ⟨fun _ => ⟨0, 0, 0, 0, ()⟩, []⟩
  errorThreshold := 60
  initialTick := 10
  rootSeed := 0

def parentAndChild : List (Solution Unit) :=
  [⟨⟨⟨1⟩, ⟨7⟩, ROOT_REF, ⟨12, 0⟩, 11, 12⟩, ⟨50, 0⟩, some (), 0, false⟩,
    ⟨⟨⟨1⟩, ⟨8⟩, ⟨12, 0⟩, ⟨13, 2⟩, 12, 13⟩, ⟨40, 0⟩, some (), 0, false⟩]

theorem forest_of_commits_parentAndChild :
    (parentAndChild.foldl (commitNext smallScorer) ⟨smallColony, []⟩).colony.records.map
      AntSolutionRecord.depth = [1, 2] ∧
    Forest (parentAndChild.foldl (commitNext smallScorer) ⟨smallColony, []⟩) :=
  ⟨by decide +kernel, (forest_of_commits smallScorer rfl rfl (by simp [parentAndChild, Follows])
    (by simp [parentAndChild]) (by simp [parentAndChild, SolutionRef.isRoot])).1⟩

end QubicCore.Mining.AntColony
