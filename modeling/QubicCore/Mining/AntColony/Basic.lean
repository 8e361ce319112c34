import QubicCore.Mining.Ranking

/-!
# The ant colony

Solutions of an epoch form trees, one for each identity. A solution names its parent by the tick and
the index of the parent's transaction, is scored against it, and becomes a record. The records are
append-only. A tick index, a set of the solutions seen and two maps to the newest child of a parent
are kept next to them.

The network of a solution and its packed form are parameters, and so are the scorer's conversions
between them. The hash containers are the finite maps and sets of their capacity. Diagnostics and
the cache of scores are left out.
-/

namespace QubicCore.Mining.AntColony

open Function

def ANT_MAX_NODES_PER_EPOCH : Nat := 2 ^ 23
def ANT_DEDUP_SIZE : Nat := 2 * ANT_MAX_NODES_PER_EPOCH
def ANT_CHILD_HEAD_BY_PARENT_SIZE : Nat := 2 * ANT_MAX_NODES_PER_EPOCH
def ANT_CHILD_HEAD_BY_MINER_SIZE : Nat := 2 * MAX_NUMBER_OF_MINERS
def ANT_EXPORT_MAX_SOLUTIONS : Nat := NUMBER_OF_COMPUTORS
def ANT_PUBLISH_WINDOW_TICKS : Nat := 15000
def ANT_MAX_CHILDREN_PER_PARENT : Nat := 0
def MAX_NUMBER_OF_TICKS_PER_EPOCH : Nat := 2688452
def NO_SIBLING : Nat := 0xFFFFFFFF
def ANT_ANN_UNMATERIALISED : Nat := 0xFFFFFFFF

/-! ## Ratings -/

def INVALID_ERROR : Nat := 0xFFFFFFFF

structure Rating where
  (error shift : Nat)
deriving DecidableEq

namespace Rating

def isBetterThan (r other : Rating) : Bool :=
  if r.shift ≠ other.shift then other.shift < r.shift else r.error < other.error

def clearsFloor (r : Rating) (threshold : Nat) : Bool := 0 < r.shift ∨ r.error ≤ threshold

def worst : Rating := ⟨INVALID_ERROR, 0⟩

end Rating

/-! ## Records -/

structure SolutionRef where
  (tick solutionIndexInTick : Nat)
deriving DecidableEq

def SolutionRef.isRoot (ref : SolutionRef) : Bool :=
  ref.tick = 0 ∧ ref.solutionIndexInTick = 0xFFFFFFFF

def ROOT_REF : SolutionRef := ⟨0, 0xFFFFFFFF⟩

structure AntDedupKey where
  (pubkey nonce : M256i)
  parentRef : SolutionRef
deriving DecidableEq

structure AntSolutionRecord where
  (pubkey nonce : M256i)
  (parentRef selfRef : SolutionRef)
  (score shift anchorTick depth childAnnHash annStateSlot nextSiblingIdx : Nat)
deriving DecidableEq

namespace AntSolutionRecord

def rating (rec : AntSolutionRecord) : Rating := ⟨rec.score, rec.shift⟩

def dedupKey (rec : AntSolutionRecord) : AntDedupKey := ⟨rec.pubkey, rec.nonce, rec.parentRef⟩

end AntSolutionRecord

structure AntTickSlot where
  (startIdx count : Nat)
deriving DecidableEq

structure AntExportSlot (PackedAnn : Type) where
  pubkey : M256i
  (score shift depth : Nat)
  ann : PackedAnn

def AntExportSlot.rating {PackedAnn : Type} (slot : AntExportSlot PackedAnn) : Rating :=
  ⟨slot.score, slot.shift⟩

/-- The best networks, with their indices ordered by rating. -/
structure ExportSet (PackedAnn : Type) where
  slots : Nat → AntExportSlot PackedAnn
  order : List Nat

inductive ValidityResult where
  | valid
  | validNotStored
  | rejectParentNotRegistered
  | rejectStale
  | rejectWrongTree
  | rejectBelowThreshold
  | rejectLeParent
  | rejectMaxChildrenPerParent
  | rejectTickOutOfRange
  | rejectReplay
  | rejectDedupFull
  | rejectMinerIndexFull
  | rejectNonCanonicalNonce
deriving DecidableEq

structure ChildCandidate where
  pubkey : M256i
  rating : Rating
  (anchorTick publishTick : Nat)

structure AntCommitInput where
  (pubkey nonce : M256i)
  (parentRef selfRef : SolutionRef)
  (anchorTick publishTick : Nat)

def AntCommitInput.dedupKey (input : AntCommitInput) : AntDedupKey :=
  ⟨input.pubkey, input.nonce, input.parentRef⟩

/-! ## The colony -/

structure Derived where
  tickIndex : Nat → AntTickSlot
  dedup : Finset AntDedupKey
  childHeadByParent : Finmap fun _ : SolutionRef => Nat
  childHeadByMiner : Finmap fun _ : M256i => Nat

def Derived.empty : Derived := ⟨fun _ => ⟨0, 0⟩, ∅, ∅, ∅⟩

structure Colony (PackedAnn : Type) extends Derived where
  records : List AntSolutionRecord
  annPool : Nat → PackedAnn
  exportSet : ExportSet PackedAnn
  (errorThreshold initialTick : Nat)
  rootSeed : M256i

def Colony.solutionCount {PackedAnn : Type} (c : Colony PackedAnn) : Nat := c.records.length

/-- The scorer's part: the packing of networks. -/
structure Scorer (Ann PackedAnn : Type) where
  store : Ann → PackedAnn

def slotOf (initialTick tick : Nat) : Option Nat :=
  if tick < initialTick then none
  else if tick - initialTick < MAX_NUMBER_OF_TICKS_PER_EPOCH then some (tick - initialTick)
  else none

def findInRun (records : List AntSolutionRecord) (ref : SolutionRef) :
    (rounds idx : Nat) → Option Nat
  | 0, _ => none
  | rounds + 1, idx =>
    match records[idx]? with
    | none => none
    | some rec => if rec.selfRef = ref then some idx else findInRun records ref rounds (idx + 1)

/-- There is no result for the invalid index. -/
def findIndexBySolutionRef (initialTick : Nat) (tickIndex : Nat → AntTickSlot)
    (records : List AntSolutionRecord) (ref : SolutionRef) : Option Nat :=
  if ref.isRoot then none
  else
    match slotOf initialTick ref.tick with
    | none => none
    | some slot => findInRun records ref (tickIndex slot).count (tickIndex slot).startIdx

def chainHead (d : Derived) (parentRef : SolutionRef) (childPubkey : M256i) : Option Nat :=
  if parentRef.isRoot then d.childHeadByMiner.lookup childPubkey
  else d.childHeadByParent.lookup parentRef

def childCountFromHead (records : List AntSolutionRecord) : (rounds idx : Nat) → Nat
  | 0, _ => 0
  | rounds + 1, idx =>
    if idx = NO_SIBLING then 0
    else
      match records[idx]? with
      | none => 0
      | some rec => childCountFromHead records rounds rec.nextSiblingIdx + 1

section

variable {Ann PackedAnn : Type} (scorer : Scorer Ann PackedAnn)

def countChildren (c : Colony PackedAnn) (parentRef : SolutionRef) (childPubkey : M256i) : Nat :=
  match chainHead c.toDerived parentRef childPubkey with
  | none => 0
  | some head => childCountFromHead c.records ANT_MAX_CHILDREN_PER_PARENT head

def tryGetParent (c : Colony PackedAnn) (parentRef : SolutionRef) :
    ValidityResult × Option AntSolutionRecord :=
  if parentRef.isRoot then (.valid, none)
  else
    match findIndexBySolutionRef c.initialTick c.tickIndex c.records parentRef with
    | none => (.rejectParentNotRegistered, none)
    | some parentIdx =>
      match c.records[parentIdx]? with
      | none => (.rejectParentNotRegistered, none)
      | some rec => (.valid, some rec)

def validateChild (child : ChildCandidate) (parentRecord : Option AntSolutionRecord)
    (childCount threshold : Nat) (trustedScore : Bool) : ValidityResult :=
  if child.publishTick < child.anchorTick ∨
      ANT_PUBLISH_WINDOW_TICKS < child.publishTick - child.anchorTick then .rejectStale
  else if parentRecord.any fun rec => rec.pubkey ≠ child.pubkey then .rejectWrongTree
  else if ¬trustedScore ∧ ¬child.rating.clearsFloor threshold then .rejectBelowThreshold
  else if ¬trustedScore ∧
      ¬child.rating.isBetterThan ((parentRecord.map AntSolutionRecord.rating).getD .worst) then
    .rejectLeParent
  else if ANT_MAX_CHILDREN_PER_PARENT ≠ 0 ∧ ANT_MAX_CHILDREN_PER_PARENT ≤ childCount then
    .rejectMaxChildrenPerParent
  else .valid

/-- Write an entry and move its index to its place in the order, from the end. -/
def insertSlot (slot : Nat) (entry : AntExportSlot PackedAnn) (order : List Nat)
    (set : ExportSet PackedAnn) : ExportSet PackedAnn :=
  let slots := update set.slots slot entry
  let worse := fun other => entry.rating.isBetterThan (slots other).rating
  ⟨slots, order.rdropWhile worse ++ slot :: order.rtakeWhile worse⟩

def noteExportCandidate (pubkey : M256i) (rating : Rating) (depth : Nat) (ann : Ann)
    (set : ExportSet PackedAnn) : ExportSet PackedAnn :=
  let entry := ⟨pubkey, rating.error, rating.shift, depth, scorer.store ann⟩
  let last := set.order.getLastD 0
  if set.order.length < ANT_EXPORT_MAX_SOLUTIONS then
    insertSlot set.order.length entry set.order set
  else if ¬rating.isBetterThan (set.slots last).rating then set
  else insertSlot last entry set.order.dropLast set

def claimHead (parentRef : SolutionRef) (pubkey : M256i) (newIdx : Nat) (d : Derived) :
    Option (Nat × Derived) :=
  let prevHead := (chainHead d parentRef pubkey).getD NO_SIBLING
  if parentRef.isRoot then
    if pubkey ∉ d.childHeadByMiner ∧
        d.childHeadByMiner.keys.card = ANT_CHILD_HEAD_BY_MINER_SIZE then none
    else some (prevHead, { d with childHeadByMiner := d.childHeadByMiner.insert pubkey newIdx })
  else if parentRef ∉ d.childHeadByParent ∧
      d.childHeadByParent.keys.card = ANT_CHILD_HEAD_BY_PARENT_SIZE then some (prevHead, d)
  else some (prevHead, { d with childHeadByParent := d.childHeadByParent.insert parentRef newIdx })

def AntTickSlot.add (slot : AntTickSlot) (idx : Nat) : AntTickSlot :=
  ⟨if slot.count = 0 then idx else slot.startIdx, slot.count + 1⟩

def childDepth (parentRec : Option AntSolutionRecord) : Nat :=
  match parentRec with
  | some rec => rec.depth + 1
  | none => 1

structure Solution (Ann : Type) where
  input : AntCommitInput
  rating : Rating
  /-- A score that is accepted without a walk has no network. -/
  childAnn : Option Ann
  childAnnHash : Nat
  trustedScore : Bool

variable (s : Solution Ann) (parentRec : Option AntSolutionRecord)

def newRecord (newIdx prevHead : Nat) : AntSolutionRecord where
  pubkey := s.input.pubkey
  nonce := s.input.nonce
  parentRef := s.input.parentRef
  selfRef := s.input.selfRef
  score := s.rating.error
  shift := s.rating.shift
  anchorTick := s.input.anchorTick
  depth := childDepth parentRec
  childAnnHash := s.childAnnHash
  annStateSlot := if s.childAnn.isSome then newIdx else ANT_ANN_UNMATERIALISED
  nextSiblingIdx := prevHead

def exported (set : ExportSet PackedAnn) : ExportSet PackedAnn :=
  match s.childAnn with
  | some ann => noteExportCandidate scorer s.input.pubkey s.rating (childDepth parentRec) ann set
  | none => set

def commit (c : Colony PackedAnn) : ValidityResult × Colony PackedAnn :=
  let childCount := countChildren c s.input.parentRef s.input.pubkey
  let child := ⟨s.input.pubkey, s.rating, s.input.anchorTick, s.input.publishTick⟩
  match validateChild child parentRec childCount c.errorThreshold s.trustedScore with
  | .valid =>
    if s.input.dedupKey ∈ c.dedup then (.rejectReplay, c)
    else if ANT_MAX_NODES_PER_EPOCH ≤ c.solutionCount then
      (.validNotStored, { c with exportSet := exported scorer s parentRec c.exportSet })
    else
      match slotOf c.initialTick s.input.selfRef.tick with
      | none => (.rejectTickOutOfRange, c)
      | some selfSlot =>
        if c.dedup.card = ANT_DEDUP_SIZE then (.rejectDedupFull, c)
        else
          let dedup := insert s.input.dedupKey c.dedup
          let newIdx := c.solutionCount
          match claimHead s.input.parentRef s.input.pubkey newIdx c.toDerived with
          | none => (.rejectMinerIndexFull, { c with dedup := dedup.erase s.input.dedupKey })
          | some (prevHead, heads) =>
            (.valid,
              { c with
                tickIndex := update c.tickIndex selfSlot
                  ((c.tickIndex selfSlot).add newIdx)
                dedup := dedup
                childHeadByParent := heads.childHeadByParent
                childHeadByMiner := heads.childHeadByMiner
                records := c.records ++ [newRecord s parentRec newIdx prevHead]
                annPool :=
                  match s.childAnn with
                  | some ann => update c.annPool newIdx (scorer.store ann)
                  | none => c.annPool
                exportSet := exported scorer s parentRec c.exportSet })
  | result => (result, c)

def commitChild (c : Colony PackedAnn) : ValidityResult × Colony PackedAnn :=
  match tryGetParent c s.input.parentRef with
  | (.valid, parentRec) => commit scorer s parentRec c
  | (result, _) => (result, c)

end

end QubicCore.Mining.AntColony
