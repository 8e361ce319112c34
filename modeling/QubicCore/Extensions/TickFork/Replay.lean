import QubicCore.Extensions.TickFork.Basic

/-!
# The checkpoint window and its replay

Ticks on trust run inside a live window, and the child that takes over replays all of them strictly.
-/

namespace QubicCore.TickFork

open Relation Option List

variable {o : Outcomes} {w w' : World} {m : Mode} {p : Config} {t : Nat} {child : Node} {q : Config}
  {a b : Nat}

def World.retired (w : World) : World :=
  { w with parent := { w.parent with gWinState := .idle }, child := none }

lemma retireCheckpoint_eq (h : retireCheckpoint o w = some w') :
    (w.parent.gWinState ≠ .live ∧ w' = w) ∨ (w.parent.gWinState = .live ∧ w' = w.retired) := by
  unfold retireCheckpoint at h
  by_cases hlive : w.parent.gWinState = .live
  · rw [if_neg (not_not_intro hlive)] at h
    split at h
    · exact .inr ⟨hlive, (some.inj h).symm⟩
    · cases h
  · rw [if_pos hlive] at h
    exact .inl ⟨hlive, (some.inj h).symm⟩

/-- What the check before a tick does. -/
inductive Prepared (m : Mode) (o : Outcomes) (w : World) : World → Prop where
  | kept (h : w.parent.gReRunStrict ∨ w.parent.forceVerifySolutions ∨
      (w.parent.gWinState ≠ .live ∧ (m.isMainMode ∨ m.isLastTickInEpoch ∨ ¬m.tickHasSolution ∨
        w.parent.gWinState ≠ .idle))) : Prepared m o w w
  | retired (hlive : w.parent.gWinState = .live)
    (h : m.isMainMode ∨ m.isLastTickInEpoch ∨ ¬m.tickHasSolution) : Prepared m o w w.retired
  | noted (hlive : w.parent.gWinState = .live)
    (h : w.parent.tick - w.parent.gCheckpointTick < w.parent.gForkWindowK) :
    Prepared m o w
      { w with gParentProgressTick := noteParentProgress w.parent.tick w.gParentProgressTick }
  | checkpointed (w₁ : World) (hw : w.parent.gWinState = .idle ∧ w₁ = w ∨ w₁ = w.retired)
    (hstrict : w.parent.gReRunStrict = false) (hforce : w.parent.forceVerifySolutions = false) :
    Prepared m o w (establishCheckpoint o w₁)

lemma maybeForkBeforeTick_prepared (h : maybeForkBeforeTick m o w = some w') :
    Prepared m o w w' := by
  unfold maybeForkBeforeTick at h
  split at h
  next hstrict =>
    cases h
    exact .kept (.inl hstrict)
  next hstrict =>
  split at h
  next hforce =>
    cases h
    exact .kept (.inr (.inl hforce))
  next hforce =>
  split at h
  next hmain =>
    obtain ⟨hlive, rfl⟩ | ⟨hlive, rfl⟩ := retireCheckpoint_eq h
    · exact .kept (.inr (.inr ⟨hlive, .inl hmain⟩))
    · exact .retired hlive (.inl hmain)
  next hmain =>
  split at h
  next hlast =>
    obtain ⟨hlive, rfl⟩ | ⟨hlive, rfl⟩ := retireCheckpoint_eq h
    · exact .kept (.inr (.inr ⟨hlive, .inr (.inl hlast)⟩))
    · exact .retired hlive (.inr (.inl hlast))
  next hlast =>
  split at h
  next hidle =>
    split at h
    next hsolution =>
      cases h
      exact .kept (.inr (.inr ⟨by simp [hidle], .inr (.inr (.inl hsolution))⟩))
    next =>
      cases h
      exact .checkpointed w (.inl ⟨hidle, rfl⟩) (by simpa using hstrict) (by simpa using hforce)
  next hlive =>
    split at h
    next hwindow =>
      cases h
      exact .noted hlive hwindow.1
    next =>
      obtain ⟨w₁, hretire, rfl⟩ := Option.map_eq_some_iff.mp h
      obtain ⟨hnot, -⟩ | ⟨-, rfl⟩ := retireCheckpoint_eq hretire
      · exact absurd hlive hnot
      · split
        next => exact .checkpointed _ (.inr rfl) (by simpa using hstrict) (by simpa using hforce)
        next hsolution => exact .retired hlive (.inr (.inr hsolution))
  all_goals
    next hstate =>
      cases h
      exact .kept (.inr (.inr (by simp [hstate])))

/-- The outcome of a new checkpoint: a live window, or a strict tick. -/
lemma establishCheckpoint_eq (o : Outcomes) (w : World) :
    ∃ K page, (∀ x, page = some x → x = w.parent.tick) ∧ 0 < K ∧ (establishCheckpoint o w =
        { parent := { w.parent with
            gForkWindowK := K
            gReRunStrict := true
            gReRunStrictUntilTick := w.parent.tick
            gWinState := .idle }
          child := w.child
          gParentProgressTick := page } ∨
      establishCheckpoint o w =
        { parent := { w.parent with
            gForkWindowK := K
            gCheckpointTick := w.parent.tick
            gWinState := .live }
          child := some { w.parent with gForkWindowK := K, gWinState := .checkpointing }
          gParentProgressTick := page }) := by
  refine ⟨if o.catchup then gForkWindowKCatchup else gForkWindowKInSync,
    noteParentProgress w.parent.tick (ensureParentProgressPage o w.gParentProgressTick), ?_, ?_, ?_⟩
  · intro x hx
    obtain ⟨-, -, rfl⟩ := Option.map_eq_some_iff.mp hx
    rfl
  · split <;> decide
  · by_cases hfail : ¬o.pipe ∨ ¬o.fork
    · exact .inl (if_pos hfail)
    · exact .inr (if_neg hfail)

/-! ## The window -/

def Config.passed (p : Config) : Nat :=
  match p.phase with
  | .processed => p.world.parent.tick + 1
  | _ => p.world.parent.tick

def Config.Begun (p : Config) (t : Nat) : Prop :=
  (∃ e ∈ p.world.parent.log, e.tick = t) ∨ ∃ m, p.phase = .processing m ∧ t = p.world.parent.tick

structure Window (p : Config) (child : Node) : Prop where
  child_pos : 0 < child.tick
  child_tick : child.tick = p.world.parent.gCheckpointTick
  child_window : child.gForkWindowK = p.world.parent.gForkWindowK
  child_log : ∀ e ∈ child.log, e.tick < child.tick
  strict : p.world.parent.gReRunStrict = false
  force : p.world.parent.forceVerifySolutions = false
  checkpoint_le : p.world.parent.gCheckpointTick ≤ p.world.parent.tick
  inside : ∀ t, p.Begun t → t < p.world.parent.gCheckpointTick + p.world.parent.gForkWindowK
  progress : ∀ x, p.world.gParentProgressTick = some x →
    p.world.parent.gCheckpointTick ≤ x ∧ ∀ t, p.Begun t → t ≤ x

structure Inv (p : Config) : Prop where
  pos : 0 < p.world.parent.tick
  log_lt : ∀ e ∈ p.world.parent.log, e.tick < p.passed
  window : (p.world.parent.gWinState = .idle ∧ p.world.child = none) ∨
    (p.world.parent.gWinState = .live ∧ ∃ child, p.world.child = some child ∧ Window p child)

lemma Inv.begun_le (h : Inv p) (ht : p.Begun t) : t ≤ p.world.parent.tick := by
  obtain ⟨e, he, rfl⟩ | ⟨-, -, rfl⟩ := ht
  · have hlt := h.log_lt e he
    unfold Config.passed at hlt
    split at hlt <;> omega
  · exact le_rfl

lemma Inv.retired (h : Inv ⟨w, .waiting⟩) : Inv ⟨w.retired, .waiting⟩ where
  pos := h.pos
  log_lt := h.log_lt
  window := Or.inl ⟨rfl, rfl⟩

lemma begun_processing (h : Config.Begun ⟨w, .processing m⟩ t) :
    Config.Begun ⟨w, .waiting⟩ t ∨ t = w.parent.tick := by
  obtain hlog | ⟨-, -, ht⟩ := h
  · exact .inl (.inl hlog)
  · exact .inr ht

lemma Window.noted (hinv : Inv ⟨w, .waiting⟩) (h : Window ⟨w, .waiting⟩ child)
    (hwindow : w.parent.tick - w.parent.gCheckpointTick < w.parent.gForkWindowK) :
    Window ⟨{ w with
      gParentProgressTick := noteParentProgress w.parent.tick w.gParentProgressTick },
      .processing m⟩ child where
  __ := h
  inside := by
    intro t ht
    have hle := h.checkpoint_le
    obtain ht | rfl := begun_processing ht
    · exact h.inside t ht
    · dsimp only at hle ⊢
      omega
  progress := by
    intro x hx
    obtain ⟨-, -, rfl⟩ := Option.map_eq_some_iff.mp hx
    refine ⟨h.checkpoint_le, fun t ht => ?_⟩
    obtain ht | rfl := begun_processing ht
    · exact hinv.begun_le ht
    · exact le_rfl

lemma Inv.establishCheckpoint (o : Outcomes) (h : Inv ⟨w, .waiting⟩) (hchild : w.child = none)
    (hstrict : w.parent.gReRunStrict = false) (hforce : w.parent.forceVerifySolutions = false) :
    Inv ⟨TickFork.establishCheckpoint o w, .processing m⟩ := by
  obtain ⟨K, page, hpage, hK, heq | heq⟩ := establishCheckpoint_eq o w
  · rw [heq]
    exact ⟨h.pos, h.log_lt, .inl ⟨rfl, hchild⟩⟩
  · have hle : ∀ t, Config.Begun ⟨TickFork.establishCheckpoint o w, .processing m⟩ t →
        t ≤ w.parent.tick := by
      rw [heq]
      intro t ht
      obtain ht | rfl := begun_processing ht
      · exact h.begun_le ht
      · exact le_rfl
    rw [heq] at hle ⊢
    refine ⟨h.pos, h.log_lt, .inr ⟨rfl, _, rfl, h.pos, rfl, rfl, h.log_lt, hstrict, hforce,
      le_rfl, ?_, ?_⟩⟩
    · intro t ht
      exact lt_of_le_of_lt (hle t ht) (Nat.lt_add_of_pos_right hK)
    · intro x hx
      obtain rfl := hpage x hx
      exact ⟨le_rfl, hle⟩

lemma Inv.fork (h : Inv ⟨w, .waiting⟩) (hprepared : Prepared m o w w') :
    Inv ⟨w', .processing m⟩ := by
  cases hprepared with
  | kept hreason =>
    refine ⟨h.pos, h.log_lt, ?_⟩
    obtain hidle | ⟨hlive, child, -, hwindow⟩ := h.window
    · exact .inl hidle
    · have hstrict := hwindow.strict
      have hforce := hwindow.force
      dsimp only at hlive hstrict hforce
      simp [hlive, hstrict, hforce] at hreason
  | retired => exact ⟨h.pos, h.log_lt, .inl ⟨rfl, rfl⟩⟩
  | noted hlive hlt =>
    refine ⟨h.pos, h.log_lt, .inr ⟨hlive, ?_⟩⟩
    obtain ⟨hidle, -⟩ | ⟨-, child, hchild, hwindow⟩ := h.window
    · simp [hlive] at hidle
    · exact ⟨child, hchild, hwindow.noted h hlt⟩
  | checkpointed w₁ hw hstrict hforce =>
    obtain ⟨hidle, rfl⟩ | rfl := hw
    · obtain ⟨-, hnone⟩ | ⟨hlive, -⟩ := h.window
      · exact h.establishCheckpoint o hnone hstrict hforce
      · simp [hidle] at hlive
    · exact h.retired.establishCheckpoint o rfl hstrict hforce

lemma begun_processed
    (h : Config.Begun ⟨{ w with parent := processTick m w.parent }, .processed⟩ t) :
    Config.Begun ⟨w, .processing m⟩ t := by
  obtain ⟨e, he, rfl⟩ | ⟨_, hphase, -⟩ := h
  · obtain rfl | he := mem_cons.mp he
    · exact .inr ⟨m, rfl, rfl⟩
    · exact .inl ⟨e, he, rfl⟩
  · cases hphase

lemma Inv.process (h : Inv ⟨w, .processing m⟩) :
    Inv ⟨{ w with parent := processTick m w.parent }, .processed⟩ := by
  refine ⟨h.pos, fun e he => ?_, ?_⟩
  · exact Nat.lt_succ_of_le (h.begun_le (begun_processed (.inl ⟨e, he, rfl⟩)))
  · obtain hidle | ⟨hlive, child, hchild, hwindow⟩ := h.window
    · exact .inl hidle
    · refine .inr ⟨hlive, child, hchild,
        { hwindow with strict := ?_, inside := ?_, progress := ?_ }⟩
      · have hstrict := hwindow.strict
        dsimp only at hstrict
        simp [processTick, hstrict]
      · exact fun t ht => hwindow.inside t (begun_processed ht)
      · intro x hx
        obtain ⟨hle, hbegun⟩ := hwindow.progress x hx
        exact ⟨hle, fun t ht => hbegun t (begun_processed ht)⟩

lemma Inv.next (h : Inv ⟨w, .processed⟩) :
    Inv ⟨{ w with parent := { w.parent with tick := w.parent.tick + 1 } }, .waiting⟩ := by
  have hbegun : ∀ t, Config.Begun
      ⟨{ w with parent := { w.parent with tick := w.parent.tick + 1 } }, .waiting⟩ t →
      Config.Begun ⟨w, .processed⟩ t := by
    rintro t (hlog | ⟨_, hphase, -⟩)
    · exact .inl hlog
    · cases hphase
  refine ⟨Nat.succ_pos _, h.log_lt, ?_⟩
  obtain hidle | ⟨hlive, child, hchild, hwindow⟩ := h.window
  · exact .inl hidle
  · refine .inr ⟨hlive, child, hchild, { hwindow with
      checkpoint_le := hwindow.checkpoint_le.trans (Nat.le_succ _), inside := ?_, progress := ?_ }⟩
    · exact fun t ht => hwindow.inside t (hbegun t ht)
    · intro x hx
      obtain ⟨hle, hprogress⟩ := hwindow.progress x hx
      exact ⟨hle, fun t ht => hprogress t (hbegun t ht)⟩

lemma Inv.window_of_child (h : Inv p) (hchild : p.world.child = some child) :
    p.world.parent.gWinState = .live ∧ Window p child := by
  obtain ⟨-, hnone⟩ | ⟨hlive, child', hchild', hwindow⟩ := h.window
  · simp [hnone] at hchild
  · obtain rfl := some.inj (hchild'.symm.trans hchild)
    exact ⟨hlive, hwindow⟩

lemma Inv.step (h : Inv p) (hstep : Step p q) : Inv q := by
  cases hstep with
  | autosave w w' o hretire =>
    obtain ⟨-, rfl⟩ | ⟨-, rfl⟩ := retireCheckpoint_eq hretire
    · exact h
    · exact h.retired
  | fork w w' m o hfork => exact h.fork (maybeForkBeforeTick_prepared hfork)
  | process w m => exact h.process
  | next w => exact h.next
  | promote p command shadowClean child hends hchild =>
    obtain ⟨-, hwindow⟩ := h.window_of_child hchild
    exact ⟨hwindow.child_pos, hwindow.child_log, .inl ⟨rfl, rfl⟩⟩

lemma Starts.inv (h : Starts p) : Inv p where
  pos := lt_of_lt_of_le (by decide) h.tick
  log_lt := by simp [h.log]
  window := Or.inl ⟨h.idle, h.child⟩

lemma Inv.run (h : Inv p) (hrun : ReflTransGen Step p q) : Inv q := by
  induction hrun with
  | refl => exact h
  | tail _ hstep ih => exact ih.step hstep

/-! ## Trust -/

def Config.Trusted (p : Config) (t : Nat) : Prop :=
  (∃ e ∈ p.world.parent.log, e.tick = t ∧ e.trusting) ∨
    ∃ m, p.phase = .processing m ∧ isTrustingClaimedSolutionScore m p.world.parent ∧
      t = p.world.parent.tick

lemma Config.Trusted.begun (h : p.Trusted t) : p.Begun t := by
  obtain ⟨e, he, rfl, -⟩ | ⟨m, hphase, -, ht⟩ := h
  · exact .inl ⟨e, he, rfl⟩
  · exact .inr ⟨m, hphase, ht⟩

/-- A tick with a solution runs on trust only in a live window. -/
def Guarded (p : Config) : Prop :=
  ∀ m, p.phase = .processing m → m.tickHasSolution →
    isTrustingClaimedSolutionScore m p.world.parent → p.world.parent.gWinState = .live

lemma Inv.guarded_fork (h : Inv ⟨w, .waiting⟩) (hprepared : Prepared m o w w') :
    Guarded ⟨w', .processing m⟩ := by
  intro m' hphase hsolution htrust
  cases hphase
  simp only [isTrustingClaimedSolutionScore, Bool.not_eq_true, decide_eq_true_eq] at htrust
  obtain ⟨hmain, hstrict, hforce, hlast⟩ := htrust
  cases hprepared with
  | kept hreason =>
    obtain ⟨hidle, -⟩ | ⟨hlive, -⟩ := h.window
    · dsimp only at hidle hstrict hforce
      simp [hstrict, hforce, hidle, hmain, hlast, hsolution] at hreason
    · exact hlive
  | retired _ hreason => simp [hmain, hlast, hsolution] at hreason
  | noted hlive => exact hlive
  | checkpointed w₁ =>
    obtain ⟨K, page, -, -, heq | heq⟩ := establishCheckpoint_eq o w₁
    · simp [heq] at hstrict
    · simp [heq]

lemma Inv.guarded_step (h : Inv p) (hstep : Step p q) : Guarded q := by
  cases hstep with
  | fork w w' m o hfork => exact h.guarded_fork (maybeForkBeforeTick_prepared hfork)
  | autosave | process | next | promote =>
    intro m hphase
    cases hphase

lemma Inv.le_targetTick (h : Inv p) (hchild : p.world.child = some child) {command : Option Nat}
    (hends : Ends p command) (ht : p.Begun t) : t ≤ targetTick command p.world child := by
  obtain ⟨-, hwindow⟩ := h.window_of_child hchild
  have hcrash :
      t ≤ crashReplayTargetTick p.world.gParentProgressTick child.gForkWindowK child.tick := by
    have hinside := hwindow.inside t ht
    rw [← hwindow.child_tick, ← hwindow.child_window] at hinside
    unfold crashReplayTargetTick
    dsimp only
    split
    next hprogress =>
      cases hpage : p.world.gParentProgressTick with
      | none =>
        -- Without a page the progress reads as zero, which is before every checkpoint.
        have hpos := hwindow.child_pos
        rw [hpage, getD_none] at hprogress
        omega
      | some x => exact (hwindow.progress x hpage).2 t ht
    next => omega
  have hcommand : ∀ sent, command = some sent → t ≤ sent := by
    rintro sent rfl
    cases hends with
    | autosave | retire | verdict => exact h.begun_le ht
  unfold targetTick
  cases command with
  | none => exact hcrash
  | some sent =>
    dsimp only [getD_some]
    split
    · exact hcrash
    · exact hcommand sent rfl

/-! ## The replay -/

/-- The tick was processed, and never on trust. -/
def Strictly (log : List Processed) (t : Nat) : Prop :=
  (∃ e ∈ log, e.tick = t) ∧ ∀ e ∈ log, e.tick = t → e.trusting = false

def Replayed (a b : Nat) (log : List Processed) (top : Nat) : Prop :=
  (∀ e ∈ log, e.tick < top) ∧ ∀ t, a ≤ t → t ≤ b → t < top → Strictly log t

/-- The state of a replay of the ticks from `a` to `b`. A checkpoint is possible again after it. -/
structure Replaying (a b : Nat) (p : Config) : Prop where
  replayed : Replayed a b p.world.parent.log p.passed
  strict : p.passed ≤ b → p.world.parent.gReRunStrict ∧ p.world.parent.gReRunStrictUntilTick = b
  child : ∀ child, p.world.child = some child → b < child.tick ∧ Replayed a b child.log child.tick

lemma Replaying.fork (h : Replaying a b ⟨w, .waiting⟩) (hprepared : Prepared m o w w') :
    Replaying a b ⟨w', .processing m⟩ := by
  cases hprepared with
  | kept | noted => exact ⟨h.replayed, h.strict, h.child⟩
  | retired => exact ⟨h.replayed, h.strict, nofun⟩
  | checkpointed w₁ hw hstrict hforce =>
    -- A strict node establishes no checkpoint, so the replay is over.
    have hover : b < w.parent.tick := by
      by_contra hle
      have htrue := (h.strict (not_lt.mp hle)).1
      simp [hstrict] at htrue
    have hsame : w₁.parent.tick = w.parent.tick ∧ w₁.parent.log = w.parent.log ∧
        ∀ child, w₁.child = some child → w.child = some child := by
      obtain ⟨-, rfl⟩ | rfl := hw
      · exact ⟨rfl, rfl, fun _ hchild => hchild⟩
      · exact ⟨rfl, rfl, nofun⟩
    obtain ⟨htick, hlog, hold⟩ := hsame
    have hreplayed : Replayed a b w₁.parent.log w₁.parent.tick := by
      rw [htick, hlog]
      exact h.replayed
    rw [← htick] at hover
    obtain ⟨K, page, -, -, heq | heq⟩ := establishCheckpoint_eq o w₁
    · rw [heq]
      exact ⟨hreplayed, fun hle => absurd hover (not_lt.mpr hle),
        fun child hchild => h.child child (hold child hchild)⟩
    · rw [heq]
      refine ⟨hreplayed, fun hle => absurd hover (not_lt.mpr hle), ?_⟩
      rintro child hchild
      cases hchild
      exact ⟨hover, hreplayed⟩

lemma Replaying.process (h : Replaying a b ⟨w, .processing m⟩) :
    Replaying a b ⟨{ w with parent := processTick m w.parent }, .processed⟩ := by
  obtain ⟨hlt, hstrictly⟩ := h.replayed
  refine ⟨⟨?_, ?_⟩, ?_, h.child⟩
  · intro e he
    obtain rfl | he := mem_cons.mp he
    · exact Nat.lt_succ_self _
    · exact (hlt e he).trans (Nat.lt_succ_self _)
  · intro t hat htb ht
    obtain ht | rfl := Nat.lt_succ_iff_lt_or_eq.mp ht
    · -- An earlier tick: the new entry is about another one.
      obtain ⟨⟨e, he, het⟩, hall⟩ := hstrictly t hat htb ht
      refine ⟨⟨e, mem_cons_of_mem _ he, het⟩, fun e he heq => ?_⟩
      obtain rfl | he := mem_cons.mp he
      · exact absurd heq (Nat.ne_of_gt ht)
      · exact hall e he heq
    · refine ⟨⟨_, mem_cons_self, rfl⟩, fun e he heq => ?_⟩
      obtain rfl | he := mem_cons.mp he
      · have hstrict := (h.strict htb).1
        dsimp only at hstrict
        simp [isTrustingClaimedSolutionScore, hstrict]
      · exact absurd heq (Nat.ne_of_lt (hlt e he))
  · intro hle
    have hlt : w.parent.tick < b := hle
    obtain ⟨hstrict, huntil⟩ := h.strict (le_of_lt hlt)
    refine ⟨?_, huntil⟩
    dsimp only at hstrict huntil
    simp [processTick, hstrict, huntil, hlt]

lemma Replaying.step (h : Replaying a b p) (hstep : Step p q) :
    Replaying a b q := by
  cases hstep with
  | autosave w w' o hretire =>
    obtain ⟨-, rfl⟩ | ⟨-, rfl⟩ := retireCheckpoint_eq hretire
    · exact h
    · exact ⟨h.replayed, h.strict, nofun⟩
  | fork w w' m o hfork => exact h.fork (maybeForkBeforeTick_prepared hfork)
  | process w m => exact h.process
  | next w => exact ⟨h.replayed, h.strict, h.child⟩
  | promote p command shadowClean child hends hchild =>
    obtain ⟨hover, hreplayed⟩ := h.child child hchild
    exact ⟨hreplayed, fun hle => absurd hover (not_lt.mpr hle), nofun⟩

lemma Replaying.run (h : Replaying a b p) (hrun : ReflTransGen Step p q) :
    Replaying a b q := by
  induction hrun with
  | refl => exact h
  | tail _ hstep ih => exact ih.step hstep

lemma Window.replaying (h : Window p child) (command : Option Nat) (shadowClean : Bool) :
    Replaying child.tick (targetTick command p.world child)
      (promoted command shadowClean p.world child) where
  replayed := ⟨h.child_log, fun _ hat _ ht => absurd hat (not_le.mpr ht)⟩
  strict := fun _ => ⟨rfl, rfl⟩
  child := nofun

/-- A node that waits can process the tick. -/
lemma exists_next (w : World) :
    ∃ w' : World, ReflTransGen Step ⟨w, .waiting⟩ ⟨w', .waiting⟩ ∧
      w'.parent.tick = w.parent.tick + 1 := by
  have hfork : ∃ m o w₁, maybeForkBeforeTick m o w = some w₁ ∧ w₁.parent.tick = w.parent.tick := by
    refine ⟨⟨true, false, false⟩, ⟨false, true, true, true, false, true⟩, ?_⟩
    unfold maybeForkBeforeTick
    split
    · exact ⟨w, rfl, rfl⟩
    · split
      · exact ⟨w, rfl, rfl⟩
      · by_cases hlive : w.parent.gWinState = .live
        · exact ⟨w.retired, if_neg (not_not_intro hlive), rfl⟩
        · exact ⟨w, if_pos hlive, rfl⟩
  obtain ⟨m, o, w₁, hfork, htick⟩ := hfork
  refine ⟨_, .tail (.tail (.single (.fork w w₁ m o hfork)) (.process w₁ m)) (.next _), ?_⟩
  exact congrArg (· + 1) htick

lemma exists_passed (w : World) (n : Nat) :
    ∃ w' : World, ReflTransGen Step ⟨w, .waiting⟩ ⟨w', .waiting⟩ ∧
      w'.parent.tick = w.parent.tick + n := by
  induction n with
  | zero => exact ⟨w, .refl, rfl⟩
  | succ n ih =>
    obtain ⟨w₁, hrun, htick⟩ := ih
    obtain ⟨w₂, hnext, htick'⟩ := exists_next w₁
    exact ⟨w₂, hrun.trans hnext, by omega⟩

/-- In every run of a node and its checkpoint children, a tick with a solution runs on trust only in
a live window, and a child that takes over replays the window strictly, at least up to the last tick
that its parent ran on trust. -/
theorem trusted_ticks_replayed {start p : Config} (hstart : Starts start)
    (hrun : ReflTransGen Step start p) :
    (∀ m, p.phase = .processing m → m.tickHasSolution →
      isTrustingClaimedSolutionScore m p.world.parent →
      p.world.parent.gWinState = .live ∧
      (∃ child, p.world.child = some child ∧ child.tick = p.world.parent.gCheckpointTick) ∧
      p.world.parent.gCheckpointTick ≤ p.world.parent.tick ∧
      p.world.parent.tick - p.world.parent.gCheckpointTick < p.world.parent.gForkWindowK) ∧
    (∀ command shadowClean child, Ends p command → p.world.child = some child →
      ∃ last, (promoted command shadowClean p.world child).world.parent.tick =
          p.world.parent.gCheckpointTick ∧
        (∀ t, p.Trusted t → t ≤ last) ∧
        (∀ r, ReflTransGen Step (promoted command shadowClean p.world child) r →
          ∀ t, p.world.parent.gCheckpointTick ≤ t → t ≤ last → t < r.passed →
            Strictly r.world.parent.log t) ∧
        ∃ r, ReflTransGen Step (promoted command shadowClean p.world child) r ∧
          last < r.passed) := by
  have hinv := hstart.inv.run hrun
  refine ⟨?_, ?_⟩
  · intro m hphase hsolution htrust
    have hguarded : Guarded p := by
      cases hrun with
      | refl =>
        intro m' hphase'
        simp [hstart.waiting] at hphase'
      | tail hrun hstep => exact (hstart.inv.run hrun).guarded_step hstep
    have hlive := hguarded m hphase hsolution htrust
    obtain ⟨hidle, -⟩ | ⟨-, child, hchild, hwindow⟩ := hinv.window
    · simp [hlive] at hidle
    · have hinside := hwindow.inside _ (.inr ⟨m, hphase, rfl⟩)
      have hle := hwindow.checkpoint_le
      exact ⟨hlive, ⟨child, hchild, hwindow.child_tick⟩, hle, by omega⟩
  · intro command shadowClean child hends hchild
    obtain ⟨-, hwindow⟩ := hinv.window_of_child hchild
    refine ⟨targetTick command p.world child, hwindow.child_tick, ?_, ?_, ?_⟩
    · exact fun t ht => hinv.le_targetTick hchild hends ht.begun
    · intro r hr t hat htb ht
      rw [← hwindow.child_tick] at hat
      exact (((hwindow.replaying command shadowClean).run hr).replayed).2 t hat htb ht
    · obtain ⟨w', hr, htick⟩ := exists_passed
        (promoted command shadowClean p.world child).world (targetTick command p.world child + 1)
      refine ⟨_, hr, ?_⟩
      change targetTick command p.world child < w'.parent.tick
      omega

def firstTick : World where
  parent :=
    { tick := TICK
      gWinState := .idle
      gReRunStrict := false
      gReRunStrictUntilTick := 0
      gForkWindowK := gForkWindowKInSync
      gCheckpointTick := 0
      forceVerifySolutions := false
      log := [] }
  child := none
  gParentProgressTick := none

def auxWithSolution : Mode := ⟨false, false, true⟩

def allSucceed : Outcomes := ⟨false, true, true, true, false, true⟩

theorem trusted_ticks_replayed_firstTick :
    isTrustingClaimedSolutionScore auxWithSolution
      (establishCheckpoint allSucceed firstTick).parent ∧
    (establishCheckpoint allSucceed firstTick).parent.gWinState = .live ∧
    ∃ last, TICK ≤ last ∧ ∀ r, ReflTransGen Step
      (promoted none true (establishCheckpoint allSucceed firstTick)
        { firstTick.parent with gWinState := .checkpointing }) r →
      ∀ t, TICK ≤ t → t ≤ last → t < r.passed → Strictly r.world.parent.log t := by
  have h := trusted_ticks_replayed
    (show Starts ⟨firstTick, .waiting⟩ from ⟨le_rfl, rfl, rfl, rfl, rfl, rfl⟩)
    (.single (.fork _ _ auxWithSolution allSucceed rfl))
  obtain ⟨last, -, hle, hstrict, -⟩ := h.2 none true _ (.dies _) rfl
  refine ⟨rfl, (h.1 auxWithSolution rfl rfl rfl).1, last, ?_, hstrict⟩
  exact hle TICK (.inr ⟨auxWithSolution, rfl, rfl, rfl⟩)

end QubicCore.TickFork
