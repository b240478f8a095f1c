import BlockFeed.Config
import BlockFeed.Surroundings
import BlockFeed.Walker.Stage

/-!
# The walker

The walker moves a cursor over the node's chain and publishes every point it passes in the point
cache, under the height of the point. After each batch it stores the cursor, so that another walker
resumes where this one stopped.

`advance` does the work of the current stage. After a failure `recover` prepares a new beginning;
when the node's chain has left the cursor behind, it moves the cursor back to a point that is still
on the chain, and the next pass over cached points is skipped, because what is cached above that
point belongs to another fork.
-/

namespace BlockFeed

/-- Why the walker has failed. -/
inductive WalkerError where
  | node (error : NodeError)
  | cache (error : CacheError)
  /-- The node stepped back to a point. -/
  | rolledBack (point : Point)
  /-- The cursor is not on the node's chain. -/
  | intersectNotFound (cursor : Tip)
  /-- The work took longer than it may. -/
  | stalled (limit : Duration)
  deriving DecidableEq

namespace WalkerError

/-- The wording of a walker error. -/
def message : WalkerError → Option String
  | .node e => e.message
  | .cache e => some ("point cache failure: " ++ e.message)
  | .rolledBack point => some ("node rolled back to " ++ point.toText)
  | .intersectNotFound cursor =>
    some ("cursor " ++ cursor.toText ++ " is not on the node's chain")
  | .stalled limit => some ("iteration made no progress within " ++ limit.toText)

/-- The reason for a restart, as metrics name it. -/
def reason : WalkerError → String
  | .node _ => "node"
  | .cache _ => "cache"
  | .rolledBack _ => "rollback"
  | .intersectNotFound _ => "intersect_not_found"
  | .stalled _ => "stalled"

end WalkerError

/-- What the walker remembers. -/
structure Walker where
  stage : Walker.Stage := .bootstrap
  /-- The last point that was published. -/
  cursor : Tip
  /-- The next pass over cached points is skipped. -/
  skipFastForward : Bool := false
  deriving DecidableEq, Inhabited

namespace Walker

/-- What a step has led to. -/
inductive Step where
  /-- There may be more to do right away. -/
  | progressed
  /-- There is nothing to do at the moment. -/
  | idle
  deriving DecidableEq, Repr

/-- Work of the walker. -/
abbrev Task (α : Type) : Type := Work Walker WalkerError α

/-- A new walker stands at the checkpoint. -/
def new (settings : WalkerSettings) : Walker := { cursor := settings.startPoint.tip }

/-- Enters a stage. -/
def enter (stage : Stage) : Task Unit := Routine.remember fun w => { w with stage }

/-- Moves the cursor. -/
def moveTo (cursor : Tip) : Task Unit := Routine.remember fun w => { w with cursor }

/-- The cursor. -/
def cursorNow : Task Tip := do return (← Routine.current).cursor

/-- Shows the height of the cursor. -/
def showHeight : Task Unit := do
  let cursor ← cursorNow
  Work.note (.walkerHeight cursor.number)

/-- Stores the cursor. -/
def storeCursor (settings : WalkerSettings) : Task Unit := do
  let cursor ← cursorNow
  Work.writeTip .cache cursorKey cursor settings.startPointTtl
  showHeight

/-- Loads the stored cursor, or begins at the checkpoint. -/
def bootstrap (settings : WalkerSettings) : Task Unit := do
  let stored ← Work.readTip .cache cursorKey
  moveTo (stored.getD settings.startPoint.tip)
  showHeight

/-- Moves the cursor over cached tips as long as each is the next one. There are only so many
heights above the cursor, and none above the largest word. -/
def adoptCached : (above : Nat) → Task Unit
  | 0 => Routine.fail .overflow
  | above + 1 => do
    let cursor ← cursorNow
    let next ← Work.checked (Word.add cursor.number 1)
    match ← Work.tipAt .cache next with
    | some tip =>
      if tip.number = next then
        moveTo tip
        adoptCached above
      else return ()
    | none => return ()

/-- Moves the cursor over what is cached. -/
def fastForward (settings : WalkerSettings) : Task Unit := do
  let walker ← Routine.current
  if walker.skipFastForward then
    Routine.remember fun w => { w with skipFastForward := false }
  else
    adoptCached (UInt64.size - walker.cursor.number.toNat)
    if (← cursorNow) ≠ walker.cursor then storeCursor settings

/-- A tip goes on from the cursor: it is above it, or it is the cursor itself. -/
def isForward (cursor tip : Tip) : Bool :=
  cursor.number < tip.number || (tip.number = cursor.number && tip.point = cursor.point)

/-- Publishes the tips that go on from the cursor and moves it over them; says how many. -/
def publish (settings : WalkerSettings) : List Tip → Task Nat
  | [] => return 0
  | tip :: rest => do
    if isForward (← cursorNow) tip then
      Work.writeTip .cache (heightKey tip.number) tip settings.pointTtl
      moveTo tip
      return (← publish settings rest) + 1
    else publish settings rest

/-- The number of points to ask for: what is confirmed above the cursor, up to a batch. -/
def batchSize (settings : WalkerSettings) (best : UInt64) (cursor : Tip) : UInt64 :=
  min (Word.satSub (Word.satSub best settings.confirmationDepth) cursor.number)
    settings.maxBatchSize

/-- Asks the node for the points after the cursor and publishes them. -/
def walk (settings : WalkerSettings) : Task Step := do
  let best ← Work.bestHeight
  let cursor ← cursorNow
  let size := batchSize settings best cursor
  if size = 0 then return .idle
  else
    let answer ← Routine.ask (I := Surroundings) (.pointsAfter cursor.point size)
    let next ← Work.ofAnswer .node answer
    if next.tips.isEmpty && next.rolledBackTo.isNone then Work.fail (.intersectNotFound cursor)
    else
      let written ← publish settings next.tips
      if 0 < written then storeCursor settings
      match next.rolledBackTo with
      | some point => Work.fail (.rolledBack point)
      | none => return .progressed

/-- Does the work of the current stage once. -/
def advance (settings : WalkerSettings) : Task Step := do
  match (← Routine.current).stage with
  | .bootstrap =>
    bootstrap settings
    enter .fastForward
    return .progressed
  | .fastForward =>
    fastForward settings
    enter .walking
    return .progressed
  | .walking | .idle =>
    let step ← walk settings
    enter (match step with
      | .progressed => .walking
      | .idle => .idle)
    return step
  | .recovering =>
    enter .bootstrap
    return .progressed

/-! ## Recovery -/

/-- How far below the cursor a common point is looked for. -/
def searchDepth : UInt64 := 2160

/-- The heights from one downwards, as far as common points are looked for. -/
def heightsBelow (top : UInt64) : List UInt64 :=
  (List.range (min top searchDepth).toNat.succ).map fun i => top - UInt64.ofNat i

/-- Looks through cached tips for the one at a point. Slots grow with the height, so the search ends
at the first earlier slot. -/
def findAmong (point : Point) : List UInt64 → Task (Option Tip)
  | [] => return none
  | height :: rest => do
    match ← Work.tipAt .cache height with
    | none => findAmong point rest
    | some tip =>
      if tip.point = point then return some tip
      else if tip.point.slot < point.slot then return none
      else findAmong point rest

/-- Looks downwards from the cursor for the cached tip at a point. -/
def findCached (point : Point) : Task (Option Tip) := do
  findAmong point (heightsBelow (← cursorNow).number)

/-- The distances below the cursor at which the node is asked. -/
def probeOffsets (top : UInt64) : List UInt64 :=
  ((List.range 12).map fun i => UInt64.ofNat (1 <<< i)).filter fun offset =>
    offset ≤ searchDepth && offset ≤ top

/-- Asks the node about cached tips one after the other, until one is on its chain. -/
def probeAmong (top : UInt64) : List UInt64 → Task (Option Tip)
  | [] => return none
  | offset :: rest => do
    match ← Work.tipAt .cache (top - offset) with
    | none => probeAmong top rest
    | some tip =>
      let answer ← Routine.ask (I := Surroundings) (.findIntersect tip.point)
      match ← Work.ofAnswer .node answer with
      | .found point _ => if point = tip.point then return some tip else probeAmong top rest
      | .notFound _ => probeAmong top rest

/-- Looks for a cached tip below the cursor that is on the node's chain. -/
def probeIntersection : Task (Option Tip) := do
  let top := (← cursorNow).number
  probeAmong top (probeOffsets top)

/-- The cached tip at the point that the node stepped back to, if there is one to look for. -/
def findTarget : Option Point → Task (Option Tip)
  | some point => if point.isOrigin then return none else findCached point
  | none => return none

/-- Moves the cursor back to a cached tip on the node's chain, or to the checkpoint. -/
def rewind (settings : WalkerSettings) (target : Option Point) : Task Unit := do
  let found ← findTarget target
  let onChain ← match found with
    | some tip => pure (some tip)
    | none => probeIntersection
  moveTo (onChain.getD settings.startPoint.tip)
  Routine.remember fun w => { w with skipFastForward := true }
  storeCursor settings

/-- Prepares a new beginning after a failure. A failure on the way is passed over. -/
def recover (settings : WalkerSettings) (error : WalkerError) : Task Unit := do
  Work.note (.walkerRestart error.reason)
  enter .recovering
  match error with
  | .rolledBack point => Work.regardless (rewind settings (some point))
  | .intersectNotFound _ => Work.regardless (rewind settings none)
  | _ => return ()

end Walker

end BlockFeed
