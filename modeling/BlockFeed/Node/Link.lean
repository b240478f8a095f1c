import BlockFeed.Metrics.Basic
import BlockFeed.Node.BlockFetch
import BlockFeed.Node.ChainSync
import BlockFeed.Routine
import BlockFeed.Text.Duration

/-!
# The link to a node

What a client of a node asks for while it carries out a call: passage through the gate, a connection,
a negotiation and a conversation over it, the end of the connection, pauses, and chance.

A call is made of attempts, each with a time limit. Whatever an attempt has to wait for may come to
nothing because that limit passes first; the answer is `none` then, and the attempt has to end.
-/

namespace BlockFeed

/-- What an attempt does over its connection. -/
inductive Conversation where
  | readTip
  | fetchBlock (point : Point)
  | fetchBlocks (first last : Point)
  | walkForward (start : Option Point) (limit : UInt64)
  | findIntersect (point : Point)

namespace Conversation

/-- What a conversation yields. -/
def Result : Conversation → Type
  | .readTip => Tip
  | .fetchBlock _ => Option Bytes
  | .fetchBlocks _ _ => Option (List Bytes)
  | .walkForward _ _ => NextPoints
  | .findIntersect _ => Intersection

/-- What a conversation keeps between messages. -/
def State : Conversation → Type
  | .readTip | .findIntersect _ => Unit
  | .fetchBlock _ | .fetchBlocks _ _ => BlockFetch.StreamState
  | .walkForward _ _ => ChainSync.WalkState

/-- The exchange of a conversation. Sessions that have come to an answer are ended in due form, but
for those that may go on: a tip that has been read, and a walk. -/
def exchange : (c : Conversation) → Exchange c.State NodeError c.Result
  | .readTip => ChainSync.readTip
  | .fetchBlock point => BlockFetch.requestBlock point (some .clientDone)
  | .fetchBlocks first last => BlockFetch.requestRange first last (some .clientDone)
  | .walkForward start limit => ChainSync.walkForward start limit
  | .findIntersect point => ChainSync.findIntersect [point] (some .done)

end Conversation

/-- How a connect ends. -/
inductive ConnectOutcome where
  | connected
  | failed
  | timedOut
  deriving DecidableEq, Repr

namespace Link

/-- What can be asked. -/
inductive Query where
  /-- An attempt begins, with its time limit. -/
  | beginAttempt (limit : Duration)
  /-- Passes the gate if nobody is inside. -/
  | tryGate
  /-- Waits before the gate is tried again. -/
  | awaitGate
  /-- Passes the gate whoever is inside. -/
  | forceGate
  | leaveGate
  /-- Reaches the node at an address, within a time limit. -/
  | connect (address : String) (limit : Duration)
  /-- The connection counts as open. -/
  | track
  /-- Agrees on a version, within a time limit. -/
  | negotiate (magic : UInt64) (limit : Duration)
  | converse (conversation : Conversation)
  /-- Ends the connection, which no longer counts as open even if its end takes too long. -/
  | hangUp
  /-- Waits between attempts, for a number of nanoseconds. -/
  | pause (nanos : Nat)
  /-- Draws a number up to a greatest one. -/
  | draw (greatest : Nat)
  /-- Takes a measurement down. -/
  | note (measurement : Measurement)

/-- What an answer looks like. -/
def Query.Answer : Query → Type
  /- The gate has been passed. -/
  | .tryGate => Bool
  | .awaitGate | .hangUp => Option Unit
  | .connect _ _ => Option ConnectOutcome
  | .negotiate _ _ => Option (Except ConnectionError UInt64)
  | .converse conversation => Option (Except NodeError conversation.Result)
  | .draw greatest => Fin (greatest + 1)
  | _ => Unit

end Link

/-- The link to a node. -/
def Link : Interface := ⟨Link.Query, Link.Query.Answer⟩

/-- A piece of work over the link. -/
abbrev Attempt (σ α : Type) : Type := Routine Link σ NodeError α

namespace Attempt

variable {σ α : Type}

/-- Asks for something that takes no time and has no answer. -/
def tell (query : Link.Query) : Attempt σ (query.Answer) := Routine.ask (I := Link) query

/-- Takes a measurement down. -/
def note (m : Measurement) : Attempt σ Unit := tell (.note m)

/-- What came while the time limit of the attempt had not passed. -/
def within (limit : Duration) : Option α → Attempt σ α
  | some value => Routine.pure value
  | none => Routine.fail (.timeout limit)

end Attempt

end BlockFeed
