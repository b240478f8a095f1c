import BlockFeed.Surroundings

/-!
# Polling of heights

A poller asks the node for its last header at regular intervals and publishes the height of it, or
the height that is final when blocks up to some depth may still be replaced.

The first poll comes at once. A poll that begins late moves the later ones: they follow in the
period after it.
-/

namespace BlockFeed

/-- The height that is published. -/
inductive HeightKind where
  | best
  | finalized
  deriving DecidableEq, Repr, Inhabited

/-- The name of a kind of height. -/
def HeightKind.name : HeightKind → String
  | .best => "best"
  | .finalized => "finalized"

/-- What is polled and how. -/
structure Poller where
  kind : HeightKind
  period : Duration
  /-- Blocks by which the published height trails the last one. -/
  depth : UInt64 := 0
  deriving DecidableEq, Repr, Inhabited

namespace Poller

/-- The poller of the best height. -/
def best (period : Duration) : Poller := ⟨.best, period, 0⟩

/-- The poller of the finalized height. -/
def finalized (period : Duration) (depth : UInt64) : Poller := ⟨.finalized, period, depth⟩

/-- Publishes a height. -/
def publish (p : Poller) (height : UInt64) : Work Unit NodeError Unit := do
  match p.kind with
  | .best =>
    Routine.ask (I := Surroundings) (.publishBest height)
    Work.note (.bestHeight height)
  | .finalized =>
    Routine.ask (I := Surroundings) (.publishFinalized height)
    Work.note (.finalizedHeight height)

/-- Polls once. -/
def poll (p : Poller) : Work Unit NodeError UInt64 := do
  let answer ← Routine.ask (I := Surroundings) .tipHeader
  let header ← Work.ofAnswer id answer
  let height := Word.satSub header.height p.depth
  p.publish height
  return height

/-- How late a poll may be, in milliseconds, without moving the later ones. -/
def tolerance : Nat := 5

/-- The time of the poll after one that was due at a time and begins now. -/
def nextTime (p : Poller) (due now : Nat) : Nat :=
  if due + tolerance < now then now + p.period.millis else due + p.period.millis

/-- A poller can only run with a period. -/
def isSound (p : Poller) : Bool := 0 < p.period.millis

end Poller

end BlockFeed
