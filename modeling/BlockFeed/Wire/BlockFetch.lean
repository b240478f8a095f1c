import BlockFeed.Chain.Point

/-!
# Block-fetch messages

Block-fetch asks a node for the blocks between two points. The node answers that it has none, or
streams them one by one between the start and the end of a batch. A block is embedded as bytes under
tag 24.
-/

namespace BlockFeed.BlockFetch

/-- A message of block-fetch. -/
inductive Message where
  | requestRange (first last : Point)
  | clientDone
  | startBatch
  | noBlocks
  | block (body : Bytes)
  | batchDone
  deriving DecidableEq, Inhabited

/-- The tag of an embedded block. -/
def embeddedTag : UInt64 := 24

namespace Message

/-- The name of a message. -/
def name : Message → String
  | .requestRange _ _ => "MsgRequestRange"
  | .clientDone => "MsgClientDone"
  | .startBatch => "MsgStartBatch"
  | .noBlocks => "MsgNoBlocks"
  | .block _ => "MsgBlock"
  | .batchDone => "MsgBatchDone"

/-- A message on the wire. -/
def encode : Message → Bytes
  | .requestRange first last => Cbor.array 3 ++ Cbor.uint 0 ++ first.encode ++ last.encode
  | .clientDone => Cbor.array 1 ++ Cbor.uint 1
  | .startBatch => Cbor.array 1 ++ Cbor.uint 2
  | .noBlocks => Cbor.array 1 ++ Cbor.uint 3
  | .block body => Cbor.array 2 ++ Cbor.uint 4 ++ Cbor.tag embeddedTag ++ Cbor.bytes body
  | .batchDone => Cbor.array 1 ++ Cbor.uint 5

/-- Reads an embedded block. -/
def blockDecoder : Decoder Bytes := do
  let number ← Cbor.readTag.lift
  if number ≠ embeddedTag then Cbor.Reader.fail (.blockTag number)
  else Cbor.readBytes.lift

/-- Reads a message. -/
def decoder : Decoder Message := do
  let _ ← Cbor.readArray.lift
  let number ← Cbor.readUInt8.lift
  if number = 0 then
    let first ← Point.decoder
    let last ← Point.decoder
    return .requestRange first last
  else if number = 1 then return .clientDone
  else if number = 2 then return .startBatch
  else if number = 3 then return .noBlocks
  else if number = 4 then return .block (← blockDecoder)
  else if number = 5 then return .batchDone
  else Cbor.Reader.fail (.unknownBlockFetch number)

/-- The message at the front of a byte string. -/
def decode (bytes : Bytes) : Except DecodeError Message := decoder.value bytes

/-- The message that the wire keeps of a message: every form of the origin becomes the same. -/
def normalize : Message → Message
  | .requestRange first last => .requestRange first.normalize last.normalize
  | message => message

end Message

end BlockFeed.BlockFetch
