import BlockFeed.Node.Exchange
import BlockFeed.Wire.ChainSync

/-!
# Exchanges on chain-sync

A client finds out whether a point is on the chain of the node, asks for the next update, or walks
forward over several headers. A node that has no update says so and answers later, so the client
goes on waiting.

The first update of a session steps back to where the session stands and says nothing new. In a walk
it is passed over; any later step back ends the walk.
-/

namespace BlockFeed

/-- Whether the node has a point in common. -/
inductive Intersection where
  | found (point : Point) (tip : Tip)
  | notFound (tip : Tip)
  deriving DecidableEq

/-- An update of the chain. -/
inductive Update where
  | forward (header : Bytes) (tip : Tip)
  | backward (point : Point) (tip : Tip)
  deriving DecidableEq

/-- The tip of the node's chain that an update names. -/
def Update.tip : Update → Tip
  | .forward _ tip => tip
  | .backward _ tip => tip

/-- The tips a walk has passed. -/
structure NextPoints where
  tips : List Tip := []
  /-- Where the node stepped back to, which ended the walk. -/
  rolledBackTo : Option Point := none
  deriving DecidableEq, Inhabited

namespace ChainSync

/-- Reads a message of the node. -/
def received (bytes : Bytes) : Except NodeError Message :=
  (Message.decode bytes).mapError fun e => .protocol (.decode .chainSync e)

/-- The failure on a message that does not answer what was asked. -/
def unexpected (message : Message) (expected : Expectation) : NodeError :=
  .protocol (.unexpected .chainSync message.name expected)

/-- What an answer says about common points. -/
def intersectionOf : Message → Except NodeError Intersection
  | .intersectFound point tip => .ok (.found point tip)
  | .intersectNotFound tip => .ok (.notFound tip)
  | message => .error (unexpected message .intersection)

/-- The update in an answer, unless the node has none yet. -/
def updateOf : Message → Except NodeError (Option Update)
  | .awaitReply => .ok none
  | .rollForward header tip => .ok (some (.forward header tip))
  | .rollBackward point tip => .ok (some (.backward point tip))
  | message => .error (unexpected message .nextUpdate)

/-- Asks which of the points the node knows. -/
def findIntersect (points : List Point) (farewell : Option Message) :
    Exchange Unit NodeError Intersection :=
  .ofCall .chainSync (.request (Message.findIntersect points).encode ()) fun _ bytes =>
    .ofExcept do
      let intersection ← intersectionOf (← received bytes)
      return .conclude (farewell.map Message.encode) intersection

/-- Asks for the next update. -/
def nextUpdate : Exchange Unit NodeError Update :=
  .ofCall .chainSync (.request Message.requestNext.encode ()) fun _ bytes =>
    .ofExcept do
      match ← updateOf (← received bytes) with
      | some update => return .conclude none update
      | none => return .await ()

/-- Asks for the tip of the node's chain, which the first update of a session names. -/
def readTip : Exchange Unit NodeError Tip := nextUpdate.map Update.tip

/-- Ends the session. -/
def finish : Exchange Unit NodeError Unit := .announce .chainSync Message.done.encode

/-- How far a walk has come. -/
inductive WalkState where
  /-- Waiting to be placed at the start. -/
  | positioning
  /-- Waiting for an update: the tips passed so far, the last one first, and whether an update has
  come before. -/
  | collecting (passed : List Tip) (begun : Bool)
  deriving DecidableEq

/-- Asks for another update, or ends the walk when it has passed enough tips. -/
def walkOn (limit : UInt64) (passed : List Tip) (begun : Bool) :
    Reaction WalkState NodeError NextPoints :=
  if passed.length < limit.toNat then
    .request Message.requestNext.encode (.collecting passed begun)
  else .conclude none ⟨passed.reverse, none⟩

/-- What an update does to a walk. -/
def walkUpdate (limit : UInt64) (passed : List Tip) (begun : Bool) :
    Update → Except NodeError (Reaction WalkState NodeError NextPoints)
  | .forward header _ =>
    match Header.tipOfWrapped header with
    | .ok tip => .ok (walkOn limit (tip :: passed) true)
    | .error e => .error (.protocol (.header e))
  | .backward point _ =>
    if begun then .ok (.conclude none ⟨passed.reverse, some point⟩)
    else .ok (walkOn limit passed true)

/-- What a message does to a walk. -/
def walkMessage (limit : UInt64) (state : WalkState) (message : Message) :
    Except NodeError (Reaction WalkState NodeError NextPoints) := do
  match state with
  | .positioning =>
    match ← intersectionOf message with
    | .found _ _ => return walkOn limit [] false
    | .notFound _ => return .conclude none {}
  | .collecting passed begun =>
    match ← updateOf message with
    | some update => walkUpdate limit passed begun update
    | none => return .await (.collecting passed begun)

/-- Walks over the headers after a point, or after the origin, up to a number of them. A point that
the node does not know yields nothing. -/
def walkForward (start : Option Point) (limit : UInt64) :
    Exchange WalkState NodeError NextPoints :=
  .ofCall .chainSync
    (match start with
      | some point => .request (Message.findIntersect [point]).encode .positioning
      | none => walkOn limit [] false)
    fun state bytes => .ofExcept do walkMessage limit state (← received bytes)

end ChainSync

end BlockFeed
