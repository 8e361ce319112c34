import Mathlib.Tactic

/-!
# The disk shadow of a fork window

While a window is open, the parent saves its pages in a directory `s` below the page directory, so
that the child finds the files as they were. Two sets keep the pages that were written and removed.

A path is the list of its components. A page directory is one component and a page file ends in
`.pg`, so that no page is in the way of a directory `s`. The sets are lists without repetition, as
the order in which they are visited does not matter. The file system does what it is asked for; only
a rename needs a file to move.
-/

namespace QubicCore

open Function List

abbrev DiskShadow.Disk := List String → Option (List UInt8)

structure DiskShadow.PageKey where
  (realDirPath pageFileName : String)
  isPage : ∃ stem, pageFileName = stem ++ ".pg"
deriving DecidableEq

open DiskShadow in
structure DiskShadow where
  /-- The keys of `shadowDirByRealDirPath`. -/
  registeredDirs : List String
  named : "" ∉ registeredDirs
  (writtenPages removedPages : List PageKey)
  active : Bool

namespace DiskShadow

def realPagePath (page : PageKey) : List String := [page.realDirPath, page.pageFileName]

def shadowPagePath (page : PageKey) : List String := [page.realDirPath, "s", page.pageFileName]

variable (sh : DiskShadow)

/-- The window is open and the directory takes part. The name of a page is never empty. -/
def redirects (page : PageKey) : Bool :=
  sh.active ∧ page.realDirPath ≠ "" ∧ page.realDirPath ∈ sh.registeredDirs

def dirForWrite (page : PageKey) : List String × DiskShadow :=
  if redirects sh page then
    ([page.realDirPath, "s"],
      { sh with
        removedPages := sh.removedPages.erase page
        writtenPages := sh.writtenPages.insert page })
  else ([page.realDirPath], sh)

def dirForRemove (page : PageKey) : List String × DiskShadow :=
  if redirects sh page then
    ([page.realDirPath, "s"],
      { sh with
        writtenPages := sh.writtenPages.erase page
        removedPages := sh.removedPages.insert page })
  else ([page.realDirPath], sh)

variable (disk : Disk)

def dirForRead (page : PageKey) : List String :=
  if redirects sh page then
    if page ∈ sh.removedPages then [page.realDirPath, "s"]
    else if page ∉ sh.writtenPages then [page.realDirPath]
    else if disk (shadowPagePath page) = none then [page.realDirPath]
    else [page.realDirPath, "s"]
  else [page.realDirPath]

/-! ## Files -/

inductive Op where
  | save (page : PageKey) (buffer : List UInt8)
  | load (page : PageKey) (totalSize : Nat)
  | getFileSize (page : PageKey)
  | removeFile (page : PageKey)

def Op.page : Op → PageKey
  | .save page _ | .load page _ | .getFileSize page | .removeFile page => page

inductive Answer where
  | done
  | content (bytes : Option (List UInt8))
  | size (n : Int)
deriving DecidableEq

/-- A file that is too short is not loaded. -/
def loaded (totalSize : Nat) (file : Option (List UInt8)) : Option (List UInt8) :=
  file.bind fun bytes => if totalSize ≤ bytes.length then some (bytes.take totalSize) else none

def fileSize : Option (List UInt8) → Int
  | none => -1
  | some bytes => if bytes.length > 2 ^ 63 - 1 then -1 else bytes.length

def Op.perform : Op → Answer × DiskShadow × Disk
  | .save page buffer =>
    let (writeDirectory, sh) := dirForWrite sh page
    (.done, sh, update disk (writeDirectory ++ [page.pageFileName]) (some buffer))
  | .load page totalSize =>
    (.content (loaded totalSize (disk (dirForRead sh disk page ++ [page.pageFileName]))), sh, disk)
  | .getFileSize page =>
    (.size (fileSize (disk (dirForRead sh disk page ++ [page.pageFileName]))), sh, disk)
  | .removeFile page =>
    let (removeDirectory, sh) := dirForRemove sh page
    (.done, sh, update disk (removeDirectory ++ [page.pageFileName]) none)

def performAll (sh : DiskShadow) (disk : Disk) : List Op → List Answer × DiskShadow × Disk
  | [] => ([], sh, disk)
  | op :: ops =>
    let (answer, sh, disk) := op.perform sh disk
    let (answers, result) := performAll sh disk ops
    (answer :: answers, result)

/-! ## Windows -/

/-- The path leads into the directory `s` of a registered directory. -/
def inShadowDir (dirs : List String) : List String → Bool
  | dir :: "s" :: _ => dir ∈ dirs
  | _ => false

def removeRegisteredShadowDirs : Disk :=
  fun path => if inShadowDir sh.registeredDirs path then none else disk path

def clearWindow : DiskShadow :=
  { sh with active := false, writtenPages := [], removedPages := [] }

def arm : DiskShadow × Disk :=
  ({ clearWindow sh with active := true }, removeRegisteredShadowDirs sh disk)

/-- The process ends if there is nothing to rename. -/
def renameShadowPageToReal (page : PageKey) : Option Disk :=
  (disk (shadowPagePath page)).map fun bytes =>
    update (update disk (realPagePath page) (some bytes)) (shadowPagePath page) none

def removeShadowPage (page : PageKey) : Disk := update disk (shadowPagePath page) none

def removeRealPage (page : PageKey) : Disk := update disk (realPagePath page) none

def commit : Option (DiskShadow × Disk) := do
  let disk ← sh.writtenPages.foldlM renameShadowPageToReal disk
  let disk := sh.removedPages.foldl
    (fun disk page => removeShadowPage (removeRealPage disk page) page) disk
  pure (clearWindow sh, disk)

def discard : DiskShadow × Disk :=
  let disk := sh.writtenPages.foldl removeShadowPage disk
  (clearWindow sh, sh.removedPages.foldl removeShadowPage disk)

def purgeOrphans : DiskShadow × Disk := (clearWindow sh, removeRegisteredShadowDirs sh disk)

/-! ## Paths -/

section

variable {page page' : PageKey} {dirs : List String}

lemma realPagePath_inj : realPagePath page = realPagePath page' ↔ page = page' := by
  cases page
  cases page'
  simp [realPagePath]

lemma shadowPagePath_inj : shadowPagePath page = shadowPagePath page' ↔ page = page' := by
  cases page
  cases page'
  simp [shadowPagePath]

lemma realPagePath_ne_shadowPagePath : realPagePath page ≠ shadowPagePath page' := by
  simp [realPagePath, shadowPagePath]

@[simp] lemma inShadowDir_realPagePath (dirs : List String) (page : PageKey) :
    inShadowDir dirs (realPagePath page) = false := by
  obtain ⟨dir, name, stem, rfl⟩ := page
  have hne : stem ++ ".pg" ≠ "s" := by
    intro h
    have hlength := congrArg String.length h
    rw [String.length_append, show ".pg".length = 3 from rfl,
      show "s".length = 1 from rfl] at hlength
    omega
  simp [realPagePath, inShadowDir, hne]

lemma inShadowDir_shadowPagePath :
    inShadowDir dirs (shadowPagePath page) = decide (page.realDirPath ∈ dirs) := rfl

lemma ne_shadowPagePath {path : List String} (hdir : page.realDirPath ∈ dirs)
    (hpath : inShadowDir dirs path = false) : path ≠ shadowPagePath page := by
  rintro rfl
  simp [inShadowDir_shadowPagePath, hdir] at hpath

end

/-- Two disks agree outside the directories `s`. -/
def SameReal (dirs : List String) (disk disk' : Disk) : Prop :=
  ∀ path, inShadowDir dirs path = false → disk path = disk' path

lemma SameReal.removeShadowPages {dirs : List String} {pages : List PageKey} {disk disk' : Disk}
    (h : SameReal dirs disk disk') (hdirs : ∀ page ∈ pages, page.realDirPath ∈ dirs) :
    SameReal dirs (pages.foldl removeShadowPage disk) disk' := by
  induction pages generalizing disk with
  | nil => exact h
  | cons page pages ih =>
    obtain ⟨hdir, hdirs⟩ := forall_mem_cons.mp hdirs
    refine ih (fun path hpath => ?_) hdirs
    rw [removeShadowPage, update_of_ne (ne_shadowPagePath hdir hpath)]
    exact h path hpath

/-! ## The overlay -/

/-- What the window holds, for the files as they were and as the operations would have left them. -/
structure Overlay (dirs : List String) (real direct : Disk) (sh : DiskShadow) (disk : Disk) :
    Prop where
  active : sh.active
  registered : sh.registeredDirs = dirs
  written_nodup : sh.writtenPages.Nodup
  removed_nodup : sh.removedPages.Nodup
  dir_mem : ∀ page ∈ sh.writtenPages ++ sh.removedPages, page.realDirPath ∈ dirs
  untouched : SameReal dirs disk real
  written : ∀ page ∈ sh.writtenPages,
    disk (shadowPagePath page) ≠ none ∧ disk (shadowPagePath page) = direct (realPagePath page)
  removed : ∀ page ∈ sh.removedPages,
    disk (shadowPagePath page) = none ∧ direct (realPagePath page) = none
  other : ∀ path, inShadowDir dirs path = false →
    (∀ page ∈ sh.writtenPages ++ sh.removedPages, path ≠ realPagePath page) →
    direct path = real path

section

variable {dirs : List String} {real direct disk : Disk} {sh : DiskShadow} {page : PageKey}

lemma overlay_arm (sh : DiskShadow) (disk : Disk) :
    Overlay sh.registeredDirs disk disk (arm sh disk).1 (arm sh disk).2 where
  active := rfl
  registered := rfl
  written_nodup := nodup_nil
  removed_nodup := nodup_nil
  dir_mem := by simp [arm, clearWindow]
  untouched path hpath := by simp [arm, removeRegisteredShadowDirs, hpath]
  written := by simp [arm, clearWindow]
  removed := by simp [arm, clearWindow]
  other _ _ _ := rfl

section

variable (h : Overlay dirs real direct sh disk)
include h

lemma Overlay.redirects (hpage : page.realDirPath ∈ dirs) : sh.redirects page := by
  have hne : page.realDirPath ≠ "" := by
    intro heq
    exact sh.named (h.registered ▸ heq ▸ hpage)
  simp [DiskShadow.redirects, h.active, h.registered, hne, hpage]

/-- A page is read as the operations would have left it. -/
lemma Overlay.read (hpage : page.realDirPath ∈ dirs) :
    disk (sh.dirForRead disk page ++ [page.pageFileName]) = direct (realPagePath page) := by
  rw [dirForRead, if_pos (h.redirects hpage)]
  by_cases hremoved : page ∈ sh.removedPages
  · obtain ⟨hnone, hdirect⟩ := h.removed page hremoved
    rw [if_pos hremoved, hdirect]
    exact hnone
  by_cases hwritten : page ∈ sh.writtenPages
  · obtain ⟨hsome, heq⟩ := h.written page hwritten
    rw [if_neg hremoved, if_neg (not_not.mpr hwritten), if_neg hsome]
    exact heq
  · rw [if_neg hremoved, if_pos hwritten]
    have hother := h.other (realPagePath page) (inShadowDir_realPagePath dirs page) ?_
    · rw [hother]
      exact h.untouched _ (inShadowDir_realPagePath dirs page)
    · intro page' hpage' heq
      rw [realPagePath_inj] at heq
      subst heq
      exact (mem_append.mp hpage').elim hwritten hremoved

/-- One page is saved or removed, in its directory `s` and in the direct files. -/
lemma Overlay.change (hpage : page.realDirPath ∈ dirs)
    {sh' : DiskShadow} {file : Option (List UInt8)} (hactive : sh'.active = sh.active)
    (hregistered : sh'.registeredDirs = sh.registeredDirs) (hwritten_nodup : sh'.writtenPages.Nodup)
    (hremoved_nodup : sh'.removedPages.Nodup)
    (hwritten : ∀ page', page' ∈ sh'.writtenPages ↔
      if page' = page then file ≠ none else page' ∈ sh.writtenPages)
    (hremoved : ∀ page', page' ∈ sh'.removedPages ↔
      if page' = page then file = none else page' ∈ sh.removedPages) :
    Overlay dirs real (update direct (realPagePath page) file) sh'
      (update disk (shadowPagePath page) file) where
  active := hactive.trans h.active
  registered := hregistered.trans h.registered
  written_nodup := hwritten_nodup
  removed_nodup := hremoved_nodup
  dir_mem page' hpage' := by
    have hdir := h.dir_mem page'
    grind
  untouched path hpath := by
    rw [update_of_ne (ne_shadowPagePath hpage hpath)]
    exact h.untouched path hpath
  written page' hpage' := by
    have hold := h.written page'
    simp only [update_apply, shadowPagePath_inj, realPagePath_inj]
    grind
  removed page' hpage' := by
    have hold := h.removed page'
    simp only [update_apply, shadowPagePath_inj, realPagePath_inj]
    grind
  other path hpath hnot := by
    have hne : path ≠ realPagePath page := by
      refine hnot page (mem_append.mpr ?_)
      rw [hwritten, hremoved, if_pos rfl, if_pos rfl]
      exact (em _).symm
    rw [update_of_ne hne]
    refine h.other path hpath fun page' hpage' => ?_
    obtain rfl | hpp := eq_or_ne page' page
    · exact hne
    · refine hnot page' ?_
      rw [mem_append, hwritten, hremoved, if_neg hpp, if_neg hpp]
      exact mem_append.mp hpage'

lemma Overlay.perform {sh₀ : DiskShadow}
    (hsh₀ : sh₀.active = false) {op : Op} (hop : op.page.realDirPath ∈ dirs) :
    (op.perform sh disk).1 = (op.perform sh₀ direct).1 ∧ (op.perform sh₀ direct).2.1 = sh₀ ∧
      Overlay dirs real (op.perform sh₀ direct).2.2 (op.perform sh disk).2.1
        (op.perform sh disk).2.2 := by
  have hoff : ∀ page, sh₀.redirects page = false := fun page => by simp [DiskShadow.redirects, hsh₀]
  have hread : disk (sh.dirForRead disk op.page ++ [op.page.pageFileName]) =
      direct (sh₀.dirForRead direct op.page ++ [op.page.pageFileName]) := by
    rw [h.read hop, dirForRead, hoff]
    rfl
  cases op with
  | save page buffer =>
    have hon : sh.redirects page := h.redirects hop
    simp only [Op.perform, dirForWrite, hon, hoff, if_true, Bool.false_eq_true, if_false]
    refine ⟨trivial, trivial, h.change hop rfl rfl h.written_nodup.insert
      (h.removed_nodup.erase page) (fun page' => ?_) fun page' => ?_⟩
    · by_cases hpp : page' = page <;> simp [hpp, Op.page]
    · by_cases hpp : page' = page <;> simp [hpp, h.removed_nodup.mem_erase_iff, Op.page]
  | load page totalSize | getFileSize page =>
    refine ⟨?_, rfl, h⟩
    rw [Op.page] at hread
    rw [Op.perform, hread]
    rfl
  | removeFile page =>
    have hon : sh.redirects page := h.redirects hop
    simp only [Op.perform, dirForRemove, hon, hoff, if_true, Bool.false_eq_true, if_false]
    refine ⟨trivial, trivial, h.change hop rfl rfl (h.written_nodup.erase page)
      h.removed_nodup.insert (fun page' => ?_) fun page' => ?_⟩
    · by_cases hpp : page' = page <;> simp [hpp, h.written_nodup.mem_erase_iff, Op.page]
    · by_cases hpp : page' = page <;> simp [hpp, Op.page]

lemma Overlay.performAll {sh₀ : DiskShadow}
    (hsh₀ : sh₀.active = false) {ops : List Op} (hops : ∀ op ∈ ops, op.page.realDirPath ∈ dirs) :
    (performAll sh disk ops).1 = (performAll sh₀ direct ops).1 ∧
      Overlay dirs real (performAll sh₀ direct ops).2.2 (performAll sh disk ops).2.1
        (performAll sh disk ops).2.2 := by
  induction ops generalizing sh disk direct with
  | nil => exact ⟨rfl, h⟩
  | cons op ops ih =>
    obtain ⟨hop, hops⟩ := forall_mem_cons.mp hops
    obtain ⟨hanswer, hsame, hnext⟩ := h.perform hsh₀ hop
    obtain ⟨hanswers, hlast⟩ := ih hnext hops
    simp only [DiskShadow.performAll, hsame]
    exact ⟨by rw [hanswer, hanswers], hlast⟩

end

end

/-! ## The end of a window -/

section

variable {dirs : List String} {disk : Disk} {pages : List PageKey}

/-- Every page comes from its directory `s`, and no other real file changes. -/
lemma rename_pages (hnodup : pages.Nodup) (hdirs : ∀ page ∈ pages, page.realDirPath ∈ dirs)
    (hsome : ∀ page ∈ pages, disk (shadowPagePath page) ≠ none) :
    ∃ disk', pages.foldlM renameShadowPageToReal disk = some disk' ∧
      (∀ page ∈ pages, disk' (realPagePath page) = disk (shadowPagePath page)) ∧
      ∀ path, inShadowDir dirs path = false → (∀ page ∈ pages, path ≠ realPagePath page) →
        disk' path = disk path := by
  induction pages generalizing disk with
  | nil => exact ⟨disk, rfl, by simp, fun _ _ _ => rfl⟩
  | cons page pages ih =>
    obtain ⟨hdir, hdirs⟩ := forall_mem_cons.mp hdirs
    obtain ⟨hfirst, hsome⟩ := forall_mem_cons.mp hsome
    obtain ⟨hnot, hnodup⟩ := nodup_cons.mp hnodup
    obtain ⟨bytes, hbytes⟩ := Option.ne_none_iff_exists'.mp hfirst
    have hrest : ∀ page' ∈ pages, update (update disk (realPagePath page) (some bytes))
        (shadowPagePath page) none (shadowPagePath page') = disk (shadowPagePath page') := by
      intro page' hpage'
      have hne : page' ≠ page := fun heq => hnot (heq ▸ hpage')
      rw [update_of_ne (mt shadowPagePath_inj.mp hne),
        update_of_ne realPagePath_ne_shadowPagePath.symm]
    obtain ⟨disk', hfold, hpages, hother⟩ := ih hnodup hdirs fun page' hpage' =>
      (hrest page' hpage').trans_ne (hsome page' hpage')
    refine ⟨disk', by simpa [renameShadowPageToReal, hbytes] using hfold, ?_, ?_⟩
    · refine forall_mem_cons.mpr ⟨?_, fun page' hpage' => ?_⟩
      · rw [hother _ (inShadowDir_realPagePath dirs page), hbytes,
          update_of_ne realPagePath_ne_shadowPagePath, update_self]
        intro page' hpage' heq
        exact hnot (realPagePath_inj.mp heq ▸ hpage')
      · rw [hpages page' hpage', hrest page' hpage']
    · intro path hpath hne
      obtain ⟨hne, hnes⟩ := forall_mem_cons.mp hne
      rw [hother path hpath hnes, update_of_ne (ne_shadowPagePath hdir hpath), update_of_ne hne]

lemma remove_pages (hdirs : ∀ page ∈ pages, page.realDirPath ∈ dirs) {path : List String}
    (hpath : inShadowDir dirs path = false) :
    pages.foldl (fun disk page => removeShadowPage (removeRealPage disk page) page) disk path =
      if ∃ page ∈ pages, path = realPagePath page then none else disk path := by
  induction pages generalizing disk with
  | nil => simp
  | cons page pages ih =>
    obtain ⟨hdir, hdirs⟩ := forall_mem_cons.mp hdirs
    rw [foldl_cons, ih hdirs, removeShadowPage, update_of_ne (ne_shadowPagePath hdir hpath),
      removeRealPage, update_apply]
    split_ifs <;> grind

end

lemma Overlay.commit {dirs : List String} {real direct disk : Disk} {sh : DiskShadow}
    (h : Overlay dirs real direct sh disk) :
    ∃ ended, commit sh disk = some ended ∧ SameReal dirs ended.2 direct := by
  have hdirs := forall_mem_append.mp h.dir_mem
  obtain ⟨disk', hfold, hpages, hother⟩ := rename_pages h.written_nodup hdirs.1
    fun page hpage => (h.written page hpage).1
  refine ⟨_, by simp [DiskShadow.commit, hfold]; rfl, fun path hpath => ?_⟩
  refine (remove_pages hdirs.2 hpath).trans ?_
  split_ifs with hremoved
  · obtain ⟨page, hpage, rfl⟩ := hremoved
    exact (h.removed page hpage).2.symm
  by_cases hwritten : ∃ page ∈ sh.writtenPages, path = realPagePath page
  · obtain ⟨page, hpage, rfl⟩ := hwritten
    rw [hpages page hpage, (h.written page hpage).2]
  · push Not at hremoved hwritten
    rw [hother path hpath hwritten, h.untouched path hpath,
      h.other path hpath (forall_mem_append.mpr ⟨hwritten, hremoved⟩)]

/-- A window answers like the direct operations and changes no real file. A commit leaves the real
files as the direct operations would have, a discard and a purge as they were. -/
theorem window_refines_direct (sh : DiskShadow) (disk : Disk) (ops : List Op)
    (hops : ∀ op ∈ ops, op.page.realDirPath ∈ sh.registeredDirs) :
    let window := performAll (arm sh disk).1 (arm sh disk).2 ops
    let direct := performAll (clearWindow sh) disk ops
    window.1 = direct.1 ∧ SameReal sh.registeredDirs window.2.2 disk ∧
      (∃ ended, commit window.2.1 window.2.2 = some ended ∧
        SameReal sh.registeredDirs ended.2 direct.2.2) ∧
      SameReal sh.registeredDirs (discard window.2.1 window.2.2).2 disk ∧
      SameReal sh.registeredDirs (purgeOrphans window.2.1 window.2.2).2 disk := by
  obtain ⟨hanswers, h⟩ := (overlay_arm sh disk).performAll
    (show (clearWindow sh).active = false from rfl) hops
  have hdirs := forall_mem_append.mp h.dir_mem
  refine ⟨hanswers, h.untouched, h.commit, ?_, fun path hpath => ?_⟩
  · exact (h.untouched.removeShadowPages hdirs.1).removeShadowPages hdirs.2
  · rw [← h.untouched path hpath]
    exact if_neg (by rw [h.registered, hpath]; exact Bool.false_ne_true)

def onePage : PageKey := ⟨"td00data.000", "abcdefgh.pg", "abcdefgh", rfl⟩

def oneDir : DiskShadow := ⟨["td00data.000"], by decide, [], [], false⟩

def rewritten : List Op :=
  [.save onePage [1, 2], .removeFile onePage, .getFileSize onePage, .save onePage [3],
    .load onePage 1]

theorem window_refines_direct_rewritten :
    (∀ op ∈ rewritten, op.page.realDirPath ∈ oneDir.registeredDirs) ∧
      (performAll (oneDir.arm fun _ => none).1 (oneDir.arm fun _ => none).2 rewritten).1 =
        [.done, .done, .size (-1), .done, .content (some [3])] := by
  have hops : ∀ op ∈ rewritten, op.page.realDirPath ∈ oneDir.registeredDirs := by
    simp [rewritten, oneDir, onePage, Op.page]
  refine ⟨hops, (window_refines_direct oneDir _ rewritten hops).1.trans ?_⟩
  rfl

end DiskShadow

end QubicCore
