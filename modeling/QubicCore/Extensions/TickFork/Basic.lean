import Mathlib.Logic.Relation
import Mathlib.Tactic

/-!
# Checkpoints before ticks on trust

A node that takes the claimed scores of solutions on trust forks a child before it processes them.
The child stays at the checkpoint for a window of ticks. If the parent disagrees with the quorum, is
told to rewind or dies, the child becomes the node and processes the window again, and this time it
computes the scores.

The outcome of every system call, the mode of the node and the presence of solutions in a tick are
arbitrary. The test switches are off. Ticks do not wrap: the model is that of the code as long as
`tick + 256 < 2 ^ 32`.
-/

namespace QubicCore.TickFork

inductive WindowState where
  | idle
  | checkpointing
  | live
  | retiring
deriving DecidableEq

structure Processed where
  tick : Nat
  (solution trusting : Bool)
deriving DecidableEq

structure Node where
  tick : Nat
  gWinState : WindowState
  gReRunStrict : Bool
  (gReRunStrictUntilTick gForkWindowK gCheckpointTick : Nat)
  forceVerifySolutions : Bool
  log : List Processed

def gForkWindowKInSync : Nat := 64
def gForkWindowKCatchup : Nat := 256

/-- What is fixed during a tick. -/
structure Mode where
  (isMainMode isLastTickInEpoch tickHasSolution : Bool)

/-- The outcomes of the checks and system calls before a tick. -/
structure Outcomes where
  (catchup mmap pipe fork memoryLowForWindow retire : Bool)

/-- The node, its checkpoint child, and the page that they share. -/
structure World where
  parent : Node
  child : Option Node
  gParentProgressTick : Option Nat

def isTrustingClaimedSolutionScore (m : Mode) (n : Node) : Bool :=
  ¬m.isMainMode ∧ ¬n.gReRunStrict ∧ ¬n.forceVerifySolutions ∧ ¬m.isLastTickInEpoch

def ensureParentProgressPage (o : Outcomes) (page : Option Nat) : Option Nat :=
  match page with
  | some tick => some tick
  | none => if o.mmap then some 0 else none

def noteParentProgress (tick : Nat) (page : Option Nat) : Option Nat := page.map fun _ => tick

def crashReplayTargetTick (page : Option Nat) (gForkWindowK checkpointTick : Nat) : Nat :=
  let windowEnd := checkpointTick + gForkWindowK
  let parentTick := page.getD 0
  if checkpointTick ≤ parentTick ∧ parentTick < windowEnd then parentTick else windowEnd

def establishCheckpoint (o : Outcomes) (w : World) : World :=
  let n := { w.parent with
    gForkWindowK := if o.catchup then gForkWindowKCatchup else gForkWindowKInSync
    gWinState := .checkpointing }
  let page := noteParentProgress n.tick (ensureParentProgressPage o w.gParentProgressTick)
  if ¬o.pipe ∨ ¬o.fork then
    { parent := { n with
        gReRunStrict := true
        gReRunStrictUntilTick := n.tick
        gWinState := .idle }
      child := w.child
      gParentProgressTick := page }
  else
    { parent := { n with gCheckpointTick := n.tick, gWinState := .live }
      child := some n
      gParentProgressTick := page }

/-- Nothing if the parent tells the child to take over and exits. -/
def retireCheckpoint (o : Outcomes) (w : World) : Option World :=
  if w.parent.gWinState ≠ .live then some w
  else if o.retire then
    some { w with parent := { w.parent with gWinState := .idle }, child := none }
  else none

def maybeForkBeforeTick (m : Mode) (o : Outcomes) (w : World) : Option World :=
  if w.parent.gReRunStrict then some w
  else if w.parent.forceVerifySolutions then some w
  else if m.isMainMode then retireCheckpoint o w
  else if m.isLastTickInEpoch then retireCheckpoint o w
  else
    match w.parent.gWinState with
    | .idle => if ¬m.tickHasSolution then some w else some (establishCheckpoint o w)
    | .live =>
      if w.parent.tick - w.parent.gCheckpointTick < w.parent.gForkWindowK ∧
          ¬o.memoryLowForWindow then
        some { w with
          gParentProgressTick := noteParentProgress w.parent.tick w.gParentProgressTick }
      else
        (retireCheckpoint o w).map fun w =>
          if m.tickHasSolution then establishCheckpoint o w else w
    | .checkpointing => some w
    | .retiring => some w

def processTick (m : Mode) (n : Node) : Node :=
  { n with
    log := ⟨n.tick, m.tickHasSolution, isTrustingClaimedSolutionScore m n⟩ :: n.log
    gReRunStrict := if n.gReRunStrictUntilTick ≤ n.tick then false else n.gReRunStrict }

/-- The last tick of the replay: the parent's, unless its command did not arrive. -/
def targetTick (command : Option Nat) (w : World) (child : Node) : Nat :=
  let sent := command.getD 0
  if sent = 0 then crashReplayTargetTick w.gParentProgressTick child.gForkWindowK child.tick
  else sent

def tickForkChildPromote (strictUntilTick : Nat) (shadowClean : Bool) (child : Node) : Node :=
  { child with
    gWinState := .idle
    forceVerifySolutions := if shadowClean then child.forceVerifySolutions else true
    gReRunStrict := true
    gReRunStrictUntilTick := strictUntilTick }

/-! ## Runs -/

inductive Phase where
  | waiting
  | processing (m : Mode)
  | processed

structure Config where
  world : World
  phase : Phase

/-- The ways in which a node ends: it dies without a command, it cannot retire the checkpoint before
a tick, or the quorum disagrees after a tick. -/
inductive Ends : Config → Option Nat → Prop where
  | dies (p : Config) : Ends p none
  | autosave (w : World) (o : Outcomes) (h : retireCheckpoint o w = none) :
    Ends ⟨w, .waiting⟩ (some w.parent.tick)
  | retire (w : World) (m : Mode) (o : Outcomes) (h : maybeForkBeforeTick m o w = none) :
    Ends ⟨w, .waiting⟩ (some w.parent.tick)
  | verdict (w : World) (h : w.parent.gWinState = .live) :
    Ends ⟨w, .processed⟩ (some w.parent.tick)

def promoted (command : Option Nat) (shadowClean : Bool) (w : World) (child : Node) : Config where
  world :=
    { parent := tickForkChildPromote (targetTick command w child) shadowClean child
      child := none
      gParentProgressTick := w.gParentProgressTick }
  phase := .waiting

inductive Step : Config → Config → Prop where
  | autosave (w w' : World) (o : Outcomes) (h : retireCheckpoint o w = some w') :
    Step ⟨w, .waiting⟩ ⟨w', .waiting⟩
  | fork (w w' : World) (m : Mode) (o : Outcomes) (h : maybeForkBeforeTick m o w = some w') :
    Step ⟨w, .waiting⟩ ⟨w', .processing m⟩
  | process (w : World) (m : Mode) :
    Step ⟨w, .processing m⟩ ⟨{ w with parent := processTick m w.parent }, .processed⟩
  | next (w : World) :
    Step ⟨w, .processed⟩
      ⟨{ w with parent := { w.parent with tick := w.parent.tick + 1 } }, .waiting⟩
  | promote (p : Config) (command : Option Nat) (shadowClean : Bool) (child : Node)
    (hends : Ends p command) (hchild : p.world.child = some child) :
    Step p (promoted command shadowClean p.world child)

/-- The first tick of the network's current epoch. -/
def TICK : Nat := 89000000

/-- A node that starts without a checkpoint. -/
structure Starts (p : Config) : Prop where
  tick : TICK ≤ p.world.parent.tick
  idle : p.world.parent.gWinState = .idle
  child : p.world.child = none
  strict : p.world.parent.gReRunStrict = false
  log : p.world.parent.log = []
  waiting : p.phase = .waiting

end QubicCore.TickFork
