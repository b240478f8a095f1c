import BlockFeed.Scenario.Values
import BlockFeed.Wire.BlockFetch
import BlockFeed.Wire.ChainSync
import BlockFeed.Wire.Handshake
import BlockFeed.Wire.Segment

/-!
# Messages in scenarios

A message is an object with its name, its parts, and, in answers, its bytes.
-/

namespace BlockFeed

/-- A message with its name, its bytes and its parts. -/
def Json.message (name : String) (bytes : Bytes) (parts : List (String × Json)) : Json :=
  .object (("type", .string name) :: ("cbor", bytes.toJson) :: parts)

/-- The side of a connection. -/
def Side.toJson : Side → Json
  | .initiator => .string "initiator"
  | .responder => .string "responder"

namespace Handshake

/-- The parts of a version that is spoken. -/
def versionFields (entry : VersionEntry) : List (String × Json) :=
  [("version", .ofWord entry.1), ("network_magic", .ofWord entry.2.networkMagic),
    ("initiator_only", .bool entry.2.initiatorOnly),
    ("peer_sharing", .ofNat entry.2.peerSharing.toNat), ("query", .bool entry.2.query)]

/-- A version and a text. -/
def remarkFields (version : UInt64) (text : String) : List (String × Json) :=
  [("version", .ofWord version), ("text", .string text)]

/-- The parts of a refusal. -/
def RefuseReason.toFields : RefuseReason → List (String × Json)
  | .versionMismatch versions =>
    [("reason", .string "version_mismatch"), ("versions", .array (versions.map .ofWord))]
  | .decodeError version text => ("reason", .string "decode_error") :: remarkFields version text
  | .refused version text => ("reason", .string "refused") :: remarkFields version text

/-- The parts of a message. -/
def Message.toFields : Message → List (String × Json)
  | .proposeVersions entries | .queryReply entries =>
    [("versions", .array (entries.map fun entry => .object (versionFields entry)))]
  | .acceptVersion version data => versionFields (version, data)
  | .refuse reason => ("display", .string reason.toText) :: reason.toFields

/-- A message. -/
def Message.toJson (m : Message) : Json := .message m.name m.encode m.toFields

end Handshake

/-- The parts of a message. -/
def ChainSync.Message.toFields : ChainSync.Message → List (String × Json)
  | .rollForward header tip => [("header", header.toJson), ("tip", tip.show)]
  | .rollBackward point tip | .intersectFound point tip =>
    [("point", point.show), ("tip", tip.show)]
  | .findIntersect points => [("points", .array (points.map Point.show))]
  | .intersectNotFound tip => [("tip", tip.show)]
  | _ => []

/-- A message. -/
def ChainSync.Message.toJson (m : ChainSync.Message) : Json := .message m.name m.encode m.toFields

/-- The parts of a message. -/
def BlockFetch.Message.toFields : BlockFetch.Message → List (String × Json)
  | .requestRange first last => [("from", first.show), ("to", last.show)]
  | .block body => [("body", body.toJson)]
  | _ => []

/-- A message. -/
def BlockFetch.Message.toJson (m : BlockFetch.Message) : Json :=
  .message m.name m.encode m.toFields

/-- The parts of the header of a segment. -/
def Segment.Header.toFields (h : Segment.Header) : List (String × Json) :=
  [("timestamp", .ofNat h.timestamp.toNat), ("mode", h.side.toJson),
    ("protocol_id", .ofNat h.protocolId.toNat), ("length", .ofNat h.length.toNat)]

namespace Scenario

/-- The side of a connection. -/
def side? (j : Json) : Option Side := do
  match ← j.toText? with
  | "initiator" => some .initiator
  | "responder" => some .responder
  | _ => none

/-- A mini-protocol. -/
def protocol? (j : Json) : Option MiniProtocol := do MiniProtocol.ofName? (← j.toText?)

/-- A version with its data. -/
def version? (j : Json) : Option Handshake.VersionEntry := do
  let peerSharing ← wordOr? 0 (j.get "peer_sharing")
  return (← (j.get "version").toWord?, {
    networkMagic := ← (j.get "network_magic").toWord?
    initiatorOnly := (j.get "initiator_only").isTrue
    peerSharing := peerSharing.toUInt8
    query := (j.get "query").isTrue })

/-- The reason of a refusal. -/
def refusal? (j : Json) : Option Handshake.RefuseReason := do
  match ← (j.get "reason").toText? with
  | "version_mismatch" => return .versionMismatch (← (j.get "versions").list? Json.toWord?)
  | "decode_error" => return .decodeError (← (j.get "version").toWord?) (← (j.get "text").toText?)
  | "refused" => return .refused (← (j.get "version").toWord?) (← (j.get "text").toText?)
  | _ => none

/-- A message of the handshake. -/
def handshakeMessage? (j : Json) : Option Handshake.Message := do
  match ← (j.get "type").toText? with
  | "MsgProposeVersions" => return .proposeVersions (← (j.get "versions").list? version?)
  | "MsgQueryReply" => return .queryReply (← (j.get "versions").list? version?)
  | "MsgAcceptVersion" =>
    let (version, data) ← version? j
    return .acceptVersion version data
  | "MsgRefuse" => return .refuse (← refusal? j)
  | _ => none

/-- A message of chain-sync. -/
def chainSyncMessage? (j : Json) : Option ChainSync.Message := do
  match ← (j.get "type").toText? with
  | "MsgRequestNext" => return .requestNext
  | "MsgAwaitReply" => return .awaitReply
  | "MsgRollForward" => return .rollForward (← bytes? (j.get "header")) (← tip? (j.get "tip"))
  | "MsgRollBackward" => return .rollBackward (← point? (j.get "point")) (← tip? (j.get "tip"))
  | "MsgFindIntersect" => return .findIntersect (← (j.get "points").list? point?)
  | "MsgIntersectFound" =>
    return .intersectFound (← point? (j.get "point")) (← tip? (j.get "tip"))
  | "MsgIntersectNotFound" => return .intersectNotFound (← tip? (j.get "tip"))
  | "MsgDone" => return .done
  | _ => none

/-- A message of block-fetch. -/
def blockFetchMessage? (j : Json) : Option BlockFetch.Message := do
  match ← (j.get "type").toText? with
  | "MsgRequestRange" => return .requestRange (← point? (j.get "from")) (← point? (j.get "to"))
  | "MsgClientDone" => return .clientDone
  | "MsgStartBatch" => return .startBatch
  | "MsgNoBlocks" => return .noBlocks
  | "MsgBlock" => return .block (← bytes? (j.get "body"))
  | "MsgBatchDone" => return .batchDone
  | _ => none

end Scenario

end BlockFeed
