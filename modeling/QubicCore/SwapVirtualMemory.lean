import QubicCore.Platform

/-!
# Paged memory on disk

A large array is kept in pages on disk, of which a few are in a cache. An element is reached through
the cache: a page that is not there is loaded into the slot of another page, which is written back
first. Pages that were never written are zero.

Which slot is given up depends on the times of access; here it is any function of the memory. Locks,
pins and repeated attempts of disk operations are left out.
-/

namespace QubicCore.SwapVirtualMemory

open Function SwapVirtualMemory List

/-- A slot of the cache; the page id `none` is `INVALID_PAGE_ID`. -/
structure Slot (T : Type) where
  cachePageId : Option Nat
  page : Nat → T
  dirty : Bool

structure Memory (T : Type) where
  cache : Nat → Slot T
  disk : Nat → Nat → T
  isPageWrittenToDisk : Nat → Bool
  currentPageId : Nat

/-- The template parameters, and the slot that is given up. With `dirtyTrack`, pages that were not
changed are not written back. -/
structure Setup (T : Type) where
  (pageCapacity numCachePage : Nat)
  dirtyTrack : Bool
  victim : Memory T → Nat
  victim_le : ∀ m, victim m ≤ numCachePage

section

variable {T : Type} [Zero T] (c : Setup T) {pageId slot : Nat} (m : Memory T)

def findCachePage (pageId : Nat) : Option Nat :=
  (range (c.numCachePage + 1)).find? fun i => (m.cache i).cachePageId = some pageId

/-- What `loadPageBytesIntoSlot` finds: the page on disk, or zeros. -/
def loadPageBytes (pageId : Nat) : Nat → T :=
  if m.isPageWrittenToDisk pageId then m.disk pageId else fun _ => 0

def writePageToDisk (pageId slot : Nat) : Memory T :=
  { m with
    disk := update m.disk pageId (m.cache slot).page
    isPageWrittenToDisk := update m.isPageWrittenToDisk pageId true }

def writeBack (slot : Nat) : Memory T :=
  match (m.cache slot).cachePageId with
  | none => m
  | some oldPage =>
    if !c.dirtyTrack || (m.cache slot).dirty then writePageToDisk m oldPage slot else m

def evictAndLoad (pageId : Nat) : Nat × Memory T :=
  let slot := c.victim m
  let m := writeBack c m slot
  (slot, { m with
    cache := update m.cache slot ⟨some pageId, loadPageBytes m pageId, false⟩ })

def getPtr (index : Nat) : Nat × Memory T :=
  let pageId := index / c.pageCapacity
  match findCachePage c m pageId with
  | some slot => (slot, m)
  | none => evictAndLoad c { m with currentPageId := max pageId m.currentPageId } pageId

/-- Read the element `k` places after the one at an index, in the same page. -/
def read (index k : Nat) : T × Memory T :=
  let (slot, m) := getPtr c m index
  ((m.cache slot).page (index % c.pageCapacity + k), m)

def write (index k : Nat) (value : T) : Memory T :=
  let (slot, m) := getPtr c m index
  let page := update (m.cache slot).page (index % c.pageCapacity + k) value
  { m with cache := update m.cache slot { m.cache slot with page := page, dirty := true } }

def reset : Memory T :=
  { m with
    cache := fun i => ⟨if i = 0 then some 0 else none, fun _ => 0, false⟩
    isPageWrittenToDisk := fun _ => false
    currentPageId := 0 }

/-! ## The array -/

/-- A page as it is seen: in the cache, or else on disk. -/
def pageContents (pageId : Nat) : Nat → T :=
  match findCachePage c m pageId with
  | some slot => (m.cache slot).page
  | none => loadPageBytes m pageId

structure Consistent (m : Memory T) : Prop where
  slot_unique : ∀ i ≤ c.numCachePage, ∀ j ≤ c.numCachePage, ∀ pageId,
    (m.cache i).cachePageId = some pageId → (m.cache j).cachePageId = some pageId → i = j
  clean : c.dirtyTrack → ∀ i ≤ c.numCachePage, ∀ pageId,
    (m.cache i).cachePageId = some pageId → (m.cache i).dirty = false →
      (m.cache i).page = loadPageBytes m pageId

variable {c} {m : Memory T}

omit [Zero T] in
lemma findCachePage_some (h : findCachePage c m pageId = some slot) :
    slot ≤ c.numCachePage ∧ (m.cache slot).cachePageId = some pageId := by
  have hmem := mem_range.1 (mem_of_find?_eq_some h)
  have hpage := find?_some h
  exact ⟨by omega, of_decide_eq_true hpage⟩

omit [Zero T] in
lemma findCachePage_none (h : findCachePage c m pageId = none) {i : Nat}
    (hi : i ≤ c.numCachePage) : (m.cache i).cachePageId ≠ some pageId := by
  have := find?_eq_none.1 h i (mem_range.2 (by omega))
  simpa using this

lemma pageContents_of_absent (h : ∀ i ≤ c.numCachePage, (m.cache i).cachePageId ≠ some pageId) :
    pageContents c m pageId = loadPageBytes m pageId := by
  unfold pageContents
  split
  next slot hfind =>
    obtain ⟨hslot, hpage⟩ := findCachePage_some hfind
    exact absurd hpage (h slot hslot)
  next => rfl

lemma Consistent.pageContents_of_cached (h : Consistent c m) {i : Nat} (hi : i ≤ c.numCachePage)
    (hpage : (m.cache i).cachePageId = some pageId) :
    pageContents c m pageId = (m.cache i).page := by
  unfold pageContents
  split
  next slot hfind =>
    obtain ⟨hslot, hpage'⟩ := findCachePage_some hfind
    rw [h.slot_unique slot hslot i hi pageId hpage' hpage]
  next hfind => exact absurd hpage (findCachePage_none hfind hi)

/-! ## Loading a page -/

omit [Zero T] in
lemma writeBack_cache (m : Memory T) (slot : Nat) : (writeBack c m slot).cache = m.cache := by
  unfold writeBack
  split
  · rfl
  · split <;> rfl

lemma Consistent.loadPageBytes_writeBack (h : Consistent c m) (hslot : slot ≤ c.numCachePage)
    (pageId : Nat) :
    loadPageBytes (writeBack c m slot) pageId =
      if (m.cache slot).cachePageId = some pageId then (m.cache slot).page
      else loadPageBytes m pageId := by
  unfold writeBack
  split
  next hinvalid => rw [if_neg (by simp [hinvalid])]
  next oldPage hold =>
    split
    next hdirty =>
      by_cases heq : oldPage = pageId
      · subst heq
        simp [loadPageBytes, writePageToDisk, hold]
      · have hne : (m.cache slot).cachePageId ≠ some pageId := by simpa [hold] using heq
        simp [loadPageBytes, writePageToDisk, hne, update_of_ne (Ne.symm heq)]
    next hclean =>
      simp only [Bool.or_eq_true, Bool.not_eq_true', not_or, Bool.not_eq_false,
        Bool.not_eq_true] at hclean
      split
      next hpage => exact (h.clean hclean.1 slot hslot pageId hpage hclean.2).symm
      next => rfl

lemma Consistent.evictAndLoad (h : Consistent c m)
    (habsent : ∀ i ≤ c.numCachePage, (m.cache i).cachePageId ≠ some pageId) :
    Consistent c (evictAndLoad c m pageId).2 ∧
      pageContents c (SwapVirtualMemory.evictAndLoad c m pageId).2 = pageContents c m := by
  have hslot := c.victim_le m
  have hdisk := h.loadPageBytes_writeBack hslot
  have hload : ∀ p, loadPageBytes (SwapVirtualMemory.evictAndLoad c m pageId).2 p =
      loadPageBytes (writeBack c m (c.victim m)) p := fun p => rfl
  have hcache : (SwapVirtualMemory.evictAndLoad c m pageId).2.cache = update m.cache
      (c.victim m) ⟨some pageId, loadPageBytes m pageId, false⟩ := by
    simp only [SwapVirtualMemory.evictAndLoad, writeBack_cache]
    rw [hdisk, if_neg (habsent _ hslot)]
  generalize (SwapVirtualMemory.evictAndLoad c m pageId).2 = m' at *
  generalize c.victim m = slot at *
  have hself : m'.cache slot = ⟨some pageId, loadPageBytes m pageId, false⟩ := by
    rw [hcache, update_self]
  have hother : ∀ i ≠ slot, m'.cache i = m.cache i := fun i hi => by rw [hcache, update_of_ne hi]
  have hconsistent : Consistent c m' := by
    refine ⟨fun i hi j hj p hpi hpj => ?_, fun htrack i hi p hp hclean => ?_⟩
    · have := h.slot_unique i hi j hj p
      by_cases his : i = slot <;> by_cases hjs : j = slot <;> grind
    · by_cases his : i = slot
      · subst his
        rw [hself] at hp ⊢
        cases hp
        rw [hload, hdisk, if_neg (habsent i hi)]
      · rw [hother i his] at hp hclean ⊢
        have hne : (m.cache slot).cachePageId ≠ some p := fun hps =>
          his (h.slot_unique i hi slot hslot p hp hps)
        rw [hload, hdisk, if_neg hne, h.clean htrack i hi p hp hclean]
  refine ⟨hconsistent, funext fun p => ?_⟩
  by_cases hp : p = pageId
  · subst hp
    rw [hconsistent.pageContents_of_cached hslot (by rw [hself]), hself,
      pageContents_of_absent habsent]
  by_cases hcached : ∃ i ≤ c.numCachePage, (m.cache i).cachePageId = some p
  · obtain ⟨i, hi, hpage⟩ := hcached
    rw [h.pageContents_of_cached hi hpage]
    by_cases his : i = slot
    · -- the page was in the slot that is given up
      subst his
      rw [pageContents_of_absent, hload, hdisk, if_pos hpage]
      intro j hj hpj
      have := h.slot_unique i hi j hj p hpage
      by_cases hji : j = i <;> grind
    · rw [hconsistent.pageContents_of_cached hi (by rw [hother i his]; exact hpage), hother i his]
  · have hnone : ∀ i ≤ c.numCachePage, (m.cache i).cachePageId ≠ some p :=
      fun i hi hpage => hcached ⟨i, hi, hpage⟩
    rw [pageContents_of_absent hnone, pageContents_of_absent, hload, hdisk,
      if_neg (hnone slot hslot)]
    intro j hj hpj
    by_cases hjs : j = slot
    · grind
    · exact hnone j hj (by rw [← hother j hjs]; exact hpj)

/-- Access to an index loads its page and leaves the array. -/
lemma Consistent.getPtr (h : Consistent c m) (index : Nat) :
    Consistent c (getPtr c m index).2 ∧
      pageContents c (SwapVirtualMemory.getPtr c m index).2 = pageContents c m ∧
      (SwapVirtualMemory.getPtr c m index).1 ≤ c.numCachePage ∧
      ((SwapVirtualMemory.getPtr c m index).2.cache
        (SwapVirtualMemory.getPtr c m index).1).cachePageId = some (index / c.pageCapacity) := by
  unfold SwapVirtualMemory.getPtr
  dsimp only
  split
  next slot hfind =>
    obtain ⟨hslot, hpage⟩ := findCachePage_some hfind
    exact ⟨h, rfl, hslot, hpage⟩
  next hfind =>
    have hsame : Consistent c { m with
        currentPageId := max (index / c.pageCapacity) m.currentPageId } :=
      ⟨h.slot_unique, h.clean⟩
    obtain ⟨hconsistent, hcontents⟩ := hsame.evictAndLoad fun i hi =>
      findCachePage_none hfind hi
    refine ⟨hconsistent, hcontents, c.victim_le _, ?_⟩
    simp [SwapVirtualMemory.evictAndLoad]

lemma Consistent.read (h : Consistent c m) (index k : Nat) :
    (read c m index k).1 = pageContents c m (index / c.pageCapacity) (index % c.pageCapacity + k) ∧
      Consistent c (read c m index k).2 ∧
      pageContents c (read c m index k).2 = pageContents c m := by
  obtain ⟨hconsistent, hcontents, hslot, hpage⟩ := h.getPtr index
  refine ⟨?_, hconsistent, hcontents⟩
  rw [← hcontents, hconsistent.pageContents_of_cached hslot hpage]
  rfl

lemma read_of_cached {index : Nat} (h : findCachePage c m (index / c.pageCapacity) = some slot)
    (k : Nat) :
    (read c m index k).1 = (m.cache slot).page (index % c.pageCapacity + k) := by
  simp [read, getPtr, h]

lemma reset_consistent (m : Memory T) : Consistent c (reset m) := by
  refine ⟨fun i _ j _ p hpi hpj => ?_, fun _ i _ p _ _ => rfl⟩
  simp only [reset] at hpi hpj
  grind

lemma pageContents_reset (m : Memory T) (pageId : Nat) :
    pageContents c (reset m) pageId = fun _ => 0 := by
  unfold pageContents
  cases findCachePage c (reset m) pageId with
  | none => rfl
  | some slot => rfl

lemma read_reset (m : Memory T) (index k : Nat) : (read c (reset m) index k).1 = 0 := by
  rw [((reset_consistent m).read index k).1, pageContents_reset]

/-! ## Runs of reads and writes -/

def element (c : Setup T) (m : Memory T) (index : Nat) : T :=
  pageContents c m (index / c.pageCapacity) (index % c.pageCapacity)

lemma Consistent.write (h : Consistent c m) (index : Nat) (value : T) :
    Consistent c (write c m index 0 value) ∧
      element c (write c m index 0 value) = update (element c m) index value := by
  obtain ⟨hget, hcontents, hslot, hpage⟩ := h.getPtr index
  unfold SwapVirtualMemory.write element
  rw [← hcontents]
  generalize SwapVirtualMemory.getPtr c m index = r at *
  obtain ⟨slot, m₁⟩ := r
  dsimp only at *
  generalize hm : ({ m₁ with cache := _ } : Memory T) = m₂
  have hload : loadPageBytes m₂ = loadPageBytes m₁ := by rw [← hm]; rfl
  have hcache : ∀ i, m₂.cache i = if i = slot then ⟨(m₁.cache slot).cachePageId,
      update (m₁.cache slot).page (index % c.pageCapacity) value, true⟩ else m₁.cache i :=
    fun i => by rw [← hm]; exact update_apply ..
  have hid : ∀ i, (m₂.cache i).cachePageId = (m₁.cache i).cachePageId := by grind
  have hconsistent : Consistent c m₂ := by
    refine ⟨fun i hi j hj p => ?_, fun htrack i hi p hp hclean => ?_⟩
    · rw [hid, hid]
      exact hget.slot_unique i hi j hj p
    · have hne : i ≠ slot := by grind
      rw [hcache, if_neg hne] at hp hclean ⊢
      exact hload ▸ hget.clean htrack i hi p hp hclean
  refine ⟨hconsistent, funext fun i => ?_⟩
  by_cases hcached : ∃ j ≤ c.numCachePage, (m₁.cache j).cachePageId = some (i / c.pageCapacity)
  · obtain ⟨j, hj, hp⟩ := hcached
    rw [hconsistent.pageContents_of_cached hj ((hid j).trans hp), hcache, update_apply,
      hget.pageContents_of_cached hj hp]
    by_cases hslot' : j = slot
    · -- An index is determined by its page and its place there.
      subst hslot'
      rw [if_pos rfl]
      refine (update_apply ..).trans (if_congr ⟨fun hplace => ?_, fun hi => hi ▸ rfl⟩ rfl rfl)
      rw [← Nat.div_add_mod i, hplace, Option.some.inj (hp.symm.trans hpage), Nat.div_add_mod]
    · rw [if_neg hslot', if_neg]
      exact fun hi => hslot' (hget.slot_unique j hj slot hslot _ hp (hi ▸ hpage))
  · push Not at hcached
    have hne : i ≠ index := fun hi => hcached slot hslot (hi ▸ hpage)
    rw [update_of_ne hne, pageContents_of_absent hcached,
      pageContents_of_absent fun j hj => hid j ▸ hcached j hj, hload]

/-- An access to an element, which gives up `slot` if the page has to be loaded: a write of the
value, or a read if there is none. -/
structure Access (c : Setup T) where
  slot : Fin (c.numCachePage + 1)
  index : Nat
  value : Option T

def Access.setup (a : Access c) : Setup T :=
  { c with victim := fun _ => a.slot, victim_le := fun _ => Nat.le_of_lt_succ a.slot.2 }

def Access.run (m : Memory T) (a : Access c) : Memory T :=
  match a.value with
  | none => (read a.setup m a.index 0).2
  | some value => SwapVirtualMemory.write a.setup m a.index 0 value

/-- An element is what was last written to it, or zero, whatever slots were given up. -/
theorem read_last_written (m : Memory T) (accesses : List (Access c)) (index : Nat) :
    (read c (accesses.foldl Access.run (reset m)) index 0).1 =
      accesses.foldl (fun x a => if a.index = index then a.value.getD x else x) 0 := by
  suffices hrun : Consistent c (accesses.foldl Access.run (reset m)) ∧
      element c (accesses.foldl Access.run (reset m)) index =
        accesses.foldl (fun x a => if a.index = index then a.value.getD x else x) 0 from
    (hrun.1.read index 0).1.trans hrun.2
  induction accesses using reverseRecOn with
  | nil => exact ⟨reset_consistent m, congrFun (pageContents_reset m _) _⟩
  | append_singleton accesses a ih =>
    simp only [foldl_append, foldl_cons, foldl_nil, ← ih.2]
    have h : Consistent a.setup _ := ⟨ih.1.slot_unique, ih.1.clean⟩
    rw [Access.run]
    cases a.value with
    | none =>
      obtain ⟨-, hread, hsame⟩ := h.read a.index 0
      refine ⟨⟨hread.slot_unique, hread.clean⟩, (congrFun₂ hsame ..).trans ?_⟩
      rw [Option.getD_none, ite_self]
      rfl
    | some value =>
      obtain ⟨hwrite, hchanged⟩ := h.write a.index value
      refine ⟨⟨hwrite.slot_unique, hwrite.clean⟩, (congrFun hchanged index).trans ?_⟩
      rw [update_apply]
      exact if_congr eq_comm rfl rfl

end

/-! ## Offset mode -/

/-- Where the bytes of an element are: in a cached page, or in the extra buffer of a page. -/
inductive Location where
  | cached (slot offsetInPage : Nat)
  | extra (pageId : Nat)

/-- Bytes that are reached by their offset. An element that might not fit into the rest of a page is
kept in the extra buffer of the page. -/
structure OffsetMemory where
  pages : Memory UInt8
  pageExtraBytesBuffer : Nat → Nat → UInt8
  pageHasExtraBytes : Nat → Bool
  lastestPageExtraBytesOffsetAccessed : Nat → Nat

section

variable (c : Setup UInt8) (maxBytesPerElement : Nat) (m : OffsetMemory)

def flushExtra (slot pageId offset : Nat) : OffsetMemory :=
  let latest := m.lastestPageExtraBytesOffsetAccessed pageId
  let entry := m.pages.cache slot
  let start := latest % c.pageCapacity
  let page := fun k => if start ≤ k ∧ k < start + (offset - latest)
    then m.pageExtraBytesBuffer pageId (k - start) else entry.page k
  { m with
    pages := { m.pages with
      cache := update m.pages.cache slot { entry with page := page, dirty := true } }
    pageExtraBytesBuffer := update m.pageExtraBytesBuffer pageId fun _ => 0
    lastestPageExtraBytesOffsetAccessed :=
      update m.lastestPageExtraBytesOffsetAccessed pageId offset }

def locate (offset : Nat) : Location × OffsetMemory :=
  let pageId := offset / c.pageCapacity
  let offsetInPage := offset % c.pageCapacity
  let straddles := c.pageCapacity - offsetInPage < maxBytesPerElement
  let pages := if straddles then
    { m.pages with currentPageId := max pageId m.pages.currentPageId } else m.pages
  let (slot, pages) := getPtr c pages offset
  let m := { m with pages := pages }
  if straddles then
    let latest := m.lastestPageExtraBytesOffsetAccessed pageId
    if m.pageHasExtraBytes pageId then
      if offset < latest then (.cached slot offsetInPage, m)
      else if offset = latest then (.extra pageId, m)
      else (.extra pageId, flushExtra c m slot pageId offset)
    else
      (.extra pageId, { m with
        pageHasExtraBytes := update m.pageHasExtraBytes pageId true
        lastestPageExtraBytesOffsetAccessed :=
          update m.lastestPageExtraBytesOffsetAccessed pageId offset })
  else (.cached slot offsetInPage, m)

def OffsetMemory.byteAt : Location → Nat → UInt8
  | .cached slot offsetInPage, k => (m.pages.cache slot).page (offsetInPage + k)
  | .extra pageId, k => m.pageExtraBytesBuffer pageId k

/-- The value `0xff…` of an offset. -/
def noOffset : Nat := 2 ^ 64 - 1

def OffsetMemory.reset (m : OffsetMemory) : OffsetMemory where
  pages := SwapVirtualMemory.reset m.pages
  pageExtraBytesBuffer := fun _ _ => 0
  pageHasExtraBytes := fun _ => false
  lastestPageExtraBytesOffsetAccessed := fun _ => noOffset

end

end QubicCore.SwapVirtualMemory
