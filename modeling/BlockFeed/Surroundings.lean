import BlockFeed.Metrics.Basic
import BlockFeed.Node.ChainSync
import BlockFeed.PointCache
import BlockFeed.Routine
import BlockFeed.Word

/-!
# The surroundings of the feed

What poller, walker and fetcher ask for while they work: the observed heights, the point cache, the
node, a service that hints at interesting heights, the queue to the consumer, the clock, and the
metrics.
-/

namespace BlockFeed

/-- What a hint service says about a run of heights. -/
structure HintReply where
  /-- Heights that hold something of interest, in any order, perhaps repeated. -/
  matched : List UInt64
  /-- The height up to which the service knows the chain. Above it nothing may be skipped. -/
  lastConfirmed : UInt64
  deriving DecidableEq, Repr, Inhabited

/-- How work comes to an end before its time: by a failure that is provided for, or because a number
left its range, be it a height that is no word or a time that no clock tells. -/
inductive Abort (ε : Type) where
  | failed (cause : ε)
  | overflow
  deriving DecidableEq

/-- The same end, with its cause under another name. -/
def Abort.map {ε ε' : Type} (rename : ε → ε') : Abort ε → Abort ε'
  | .failed cause => .failed (rename cause)
  | .overflow => .overflow

namespace Surroundings

/-- What can be asked. -/
inductive Query where
  /-- The best height. -/
  | bestHeight
  /-- The finalized height. -/
  | finalizedHeight
  | publishBest (height : UInt64)
  | publishFinalized (height : UInt64)
  /-- The text under a key of the cache. -/
  | readCache (key : String)
  | writeCache (key text : String) (lifetime : Duration)
  /-- The header of the node's last block. -/
  | tipHeader
  /-- The block at a point. -/
  | fetchBlock (point : Point)
  /-- The tips after a point, up to a number of them. -/
  | pointsAfter (start : Point) (limit : UInt64)
  /-- Whether a point is on the node's chain. -/
  | findIntersect (point : Point)
  /-- The interesting heights between two heights, both included. -/
  | hints (first last : UInt64)
  /-- The free places in the queue. -/
  | freeSlots
  /-- The height up to which everything has been handed on. -/
  | buffered
  /-- Lets a block enter the queue as soon as there is room. -/
  | send (block : Block)
  /-- Everything up to a height has been handed on. -/
  | commit (height : UInt64)
  /-- The time in milliseconds. -/
  | now
  /-- Takes a measurement down. -/
  | note (measurement : Measurement)

/-- What an answer looks like. -/
def Query.Answer : Query → Type
  | .bestHeight | .finalizedHeight => UInt64
  | .publishBest _ | .publishFinalized _ => Unit
  | .readCache _ => Except CacheError (Option String)
  | .writeCache _ _ _ => Except (Abort CacheError) Unit
  | .tipHeader => Except NodeError Header
  | .fetchBlock _ => Except NodeError Bytes
  | .pointsAfter _ _ => Except NodeError NextPoints
  | .findIntersect _ => Except NodeError Intersection
  | .hints _ _ => Option HintReply
  | .freeSlots => Nat
  | .buffered => Option UInt64
  /- The consumer is still there. -/
  | .send _ => Bool
  | .commit _ => Unit
  | .now => Nat
  | .note _ => Unit

end Surroundings

/-- The surroundings of the feed. -/
def Surroundings : Interface := ⟨Surroundings.Query, Surroundings.Query.Answer⟩

/-- Work in these surroundings. -/
abbrev Work (σ ε α : Type) : Type := Routine Surroundings σ (Abort ε) α

namespace Work

variable {σ ε α : Type}

/-- Fails with a cause. -/
def fail (cause : ε) : Work σ ε α := Routine.fail (.failed cause)

/-- The value of an answer, or a failure with its cause under another name. -/
def ofAnswer {ε' : Type} (rename : ε' → ε) (answer : Except ε' α) : Work σ ε α :=
  Routine.ofExcept (fun cause => .failed (rename cause)) answer

/-- The value of a computation on words. -/
def checked (value : Except Overflow α) : Work σ ε α :=
  Routine.ofExcept (fun _ => .overflow) value

/-- The best height. -/
def bestHeight : Work σ ε UInt64 := Routine.ask (I := Surroundings) .bestHeight

/-- The height up to which blocks may be fetched. -/
def latestHeight (useFinalized : Bool) : Work σ ε UInt64 :=
  if useFinalized then Routine.ask (I := Surroundings) .finalizedHeight
  else Routine.ask (I := Surroundings) .bestHeight

/-- Takes a measurement down. -/
def note (m : Measurement) : Work σ ε Unit := Routine.ask (I := Surroundings) (.note m)

/-- The cached tip under a key. -/
def readTip (rename : CacheError → ε) (key : String) : Work σ ε (Option Tip) := do
  let answer ← Routine.ask (I := Surroundings) (.readCache key)
  let text ← ofAnswer rename answer
  ofAnswer rename (decodeCached key text)

/-- The cached tip of a height. -/
def tipAt (rename : CacheError → ε) (height : UInt64) : Work σ ε (Option Tip) :=
  readTip rename (heightKey height)

/-- Caches a tip under a key. -/
def writeTip (rename : CacheError → ε) (key : String) (tip : Tip) (lifetime : Duration) :
    Work σ ε Unit := do
  let answer ← Routine.ask (I := Surroundings) (.writeCache key tip.toCacheText lifetime)
  Routine.ofExcept (Abort.map rename) answer

/-- Passes over a failure that is provided for, but not over a number that left its range. -/
def regardless {ε' : Type} (work : Work σ ε Unit) : Work σ ε' Unit := do
  match ← Routine.outcome work with
  | .error .overflow => Routine.fail .overflow
  | _ => return ()

end Work

end BlockFeed
