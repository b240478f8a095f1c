import BlockFeed.Node.Exchange
import BlockFeed.Wire.BlockFetch

/-!
# Exchanges on block-fetch

A client asks for the blocks between two points. It gets all of them or none: a stream that is
interrupted, or that holds anything else than blocks, is a failure.
-/

namespace BlockFeed.BlockFetch

/-- Reads a message of the node. -/
def received (bytes : Bytes) : Except NodeError Message :=
  (Message.decode bytes).mapError fun e => .protocol (.decode .blockFetch e)

/-- The failure on a message that does not answer what was asked. -/
def unexpected (message : Message) (expected : Expectation) : NodeError :=
  .protocol (.unexpected .blockFetch message.name expected)

/-- How far a stream of blocks has come. -/
inductive StreamState where
  /-- Waiting for the batch to start. -/
  | asked
  /-- The blocks so far, the last one first. -/
  | streaming (bodies : List Bytes)
  deriving DecidableEq

/-- What a message does to a stream. -/
def streamMessage (farewell : Option Message) (state : StreamState) (message : Message) :
    Reaction StreamState NodeError (Option (List Bytes)) :=
  match state, message with
  | .asked, .noBlocks => .conclude (farewell.map Message.encode) none
  | .asked, .startBatch => .await (.streaming [])
  | .asked, message => .fail (unexpected message .batch)
  | .streaming bodies, .block body => .await (.streaming (body :: bodies))
  | .streaming bodies, .batchDone =>
    .conclude (farewell.map Message.encode) (some bodies.reverse)
  | .streaming _, message => .fail (unexpected message .batchEnd)

/-- Asks for the blocks between two points, both included; `none` if the node has none. -/
def requestRange (first last : Point) (farewell : Option Message) :
    Exchange StreamState NodeError (Option (List Bytes)) :=
  .ofCall .blockFetch (.request (Message.requestRange first last).encode .asked) fun state bytes =>
    .ofExcept do return streamMessage farewell state (← received bytes)

/-- Asks for the block at a point. -/
def requestBlock (point : Point) (farewell : Option Message) :
    Exchange StreamState NodeError (Option Bytes) :=
  (requestRange point point farewell).map fun bodies => bodies.bind List.head?

/-- Ends the session. -/
def finish : Exchange Unit NodeError Unit := .announce .blockFetch Message.clientDone.encode

end BlockFeed.BlockFetch
