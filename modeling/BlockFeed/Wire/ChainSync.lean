import BlockFeed.Cbor.Extent
import BlockFeed.Chain.Point

/-!
# Chain-sync messages

Chain-sync follows the chain of a node. A session stands at a point; the client moves it to a point
that both sides know, or asks for the next update, which is a new header or a step back to an
earlier point. Every answer names the tip of the node's chain.

The header of a roll-forward is kept as the bytes of one item, uninterpreted.
-/

namespace BlockFeed.ChainSync

/-- A message of chain-sync. -/
inductive Message where
  | requestNext
  /-- The node has no update yet and answers later. -/
  | awaitReply
  | rollForward (header : Bytes) (tip : Tip)
  | rollBackward (point : Point) (tip : Tip)
  | findIntersect (points : List Point)
  | intersectFound (point : Point) (tip : Tip)
  | intersectNotFound (tip : Tip)
  | done
  deriving DecidableEq, Inhabited

namespace Message

/-- The name of a message. -/
def name : Message → String
  | .requestNext => "MsgRequestNext"
  | .awaitReply => "MsgAwaitReply"
  | .rollForward _ _ => "MsgRollForward"
  | .rollBackward _ _ => "MsgRollBackward"
  | .findIntersect _ => "MsgFindIntersect"
  | .intersectFound _ _ => "MsgIntersectFound"
  | .intersectNotFound _ => "MsgIntersectNotFound"
  | .done => "MsgDone"

/-- A message on the wire. -/
def encode : Message → Bytes
  | .requestNext => Cbor.array 1 ++ Cbor.uint 0
  | .awaitReply => Cbor.array 1 ++ Cbor.uint 1
  | .rollForward header tip => Cbor.array 3 ++ Cbor.uint 2 ++ header ++ tip.encode
  | .rollBackward point tip => Cbor.array 3 ++ Cbor.uint 3 ++ point.encode ++ tip.encode
  | .findIntersect points =>
    Cbor.array 2 ++ Cbor.uint 4 ++ Cbor.array points.length ++ points.flatMap Point.encode
  | .intersectFound point tip => Cbor.array 3 ++ Cbor.uint 5 ++ point.encode ++ tip.encode
  | .intersectNotFound tip => Cbor.array 2 ++ Cbor.uint 6 ++ tip.encode
  | .done => Cbor.array 1 ++ Cbor.uint 7

/-- Reads a point and the tip after it. -/
def pointAndTip (build : Point → Tip → Message) : Decoder Message := do
  let point ← Point.decoder
  let tip ← Tip.decoder
  return build point tip

/-- Reads a message. -/
def decoder : Decoder Message := do
  let _ ← Cbor.readArray.lift
  let number ← Cbor.readUInt8.lift
  if number = 0 then return .requestNext
  else if number = 1 then return .awaitReply
  else if number = 2 then
    let header ← Cbor.rawItem.lift
    return .rollForward header (← Tip.decoder)
  else if number = 3 then pointAndTip .rollBackward
  else if number = 4 then
    return .findIntersect (← Cbor.elements DecodeError.format Point.decoder)
  else if number = 5 then pointAndTip .intersectFound
  else if number = 6 then return .intersectNotFound (← Tip.decoder)
  else if number = 7 then return .done
  else Cbor.Reader.fail (.unknownChainSync number)

/-- The message at the front of a byte string. -/
def decode (bytes : Bytes) : Except DecodeError Message := decoder.value bytes

/-- The message that the wire keeps of a message: every form of the origin becomes the same. -/
def normalize : Message → Message
  | .rollForward header tip => .rollForward header tip.normalize
  | .rollBackward point tip => .rollBackward point.normalize tip.normalize
  | .findIntersect points => .findIntersect (points.map Point.normalize)
  | .intersectFound point tip => .intersectFound point.normalize tip.normalize
  | .intersectNotFound tip => .intersectNotFound tip.normalize
  | message => message

end Message

end BlockFeed.ChainSync
