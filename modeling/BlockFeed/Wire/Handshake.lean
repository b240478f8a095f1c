import BlockFeed.Cbor.Encode
import BlockFeed.Wire.Decoder

/-!
# Handshake messages

A connection begins with the negotiation of a protocol version. One side proposes a table of
versions with their parameters; the other accepts one of them, refuses, or answers a query with its
own table. Older nodes leave the last parameters out, which then have their defaults.
-/

namespace BlockFeed.Handshake

/-- The parameters of a version. -/
structure VersionData where
  networkMagic : UInt64
  initiatorOnly : Bool := false
  peerSharing : UInt8 := 0
  query : Bool := false
  deriving DecidableEq, Repr, Inhabited

/-- A version with its parameters. -/
abbrev VersionEntry := UInt64 × VersionData

/-- Why a node refuses the proposed versions. -/
inductive RefuseReason where
  /-- The node supports other versions. -/
  | versionMismatch (versions : List UInt64)
  /-- The node cannot read the parameters of a version. -/
  | decodeError (version : UInt64) (text : String)
  /-- The node does not want this version. -/
  | refused (version : UInt64) (text : String)
  deriving DecidableEq, Repr

/-- Words in messages. -/
def listText (words : List UInt64) : String :=
  "[" ++ ", ".intercalate (words.map fun w => Numeral.ofNat w.toNat) ++ "]"

/-- The wording of a reason. -/
def RefuseReason.toText : RefuseReason → String
  | .versionMismatch versions => "version mismatch, node supports " ++ listText versions
  | .decodeError version text =>
    "node could not decode version " ++ Numeral.ofNat version.toNat ++ " parameters: " ++ text
  | .refused version text => "version " ++ Numeral.ofNat version.toNat ++ " refused: " ++ text

/-- A message of the negotiation. -/
inductive Message where
  | proposeVersions (versions : List VersionEntry)
  | acceptVersion (version : UInt64) (data : VersionData)
  | refuse (reason : RefuseReason)
  | queryReply (versions : List VersionEntry)
  deriving DecidableEq, Repr

/-- The name of a message. -/
def Message.name : Message → String
  | .proposeVersions _ => "MsgProposeVersions"
  | .acceptVersion _ _ => "MsgAcceptVersion"
  | .refuse _ => "MsgRefuse"
  | .queryReply _ => "MsgQueryReply"

/-- Parameters as they travel on the wire. -/
def VersionData.encode (d : VersionData) : Bytes :=
  Cbor.array 4 ++ Cbor.uint d.networkMagic ++ Cbor.bool d.initiatorOnly
    ++ Cbor.uint d.peerSharing.toUInt64 ++ Cbor.bool d.query

/-- Reads parameters, of which there are two, three or four. -/
def VersionData.decoder : Decoder VersionData := do
  match ← Cbor.readArray.lift with
  | none => Cbor.Reader.fail .openVersionData
  | some fields =>
    if fields < 2 || 4 < fields then Cbor.Reader.fail (.versionFields fields)
    else
      let networkMagic ← Cbor.readUInt.lift
      let initiatorOnly ← Cbor.readBool.lift
      let peerSharing ← if 3 ≤ fields then Cbor.readUInt8.lift else pure 0
      let query ← if fields = 4 then Cbor.readBool.lift else pure false
      return { networkMagic, initiatorOnly, peerSharing, query }

/-- A version with its parameters on the wire. -/
def encodeEntry (entry : VersionEntry) : Bytes :=
  Cbor.uint entry.1 ++ entry.2.encode

/-- Reads a version with its parameters. -/
def entryDecoder : Decoder VersionEntry := do
  let version ← Cbor.readUInt.lift
  let data ← VersionData.decoder
  return (version, data)

/-- A table of versions on the wire. -/
def encodeTable (versions : List VersionEntry) : Bytes :=
  Cbor.map versions.length ++ versions.flatMap encodeEntry

/-- Reads a table of versions. -/
def tableDecoder : Decoder (List VersionEntry) := do
  match ← Cbor.readMap.lift with
  | none => Cbor.Reader.fail .openVersionTable
  | some entries => entryDecoder.times entries.toNat

/-- A reason on the wire. -/
def RefuseReason.encode : RefuseReason → Bytes
  | .versionMismatch versions =>
    Cbor.array 2 ++ Cbor.uint 0 ++ Cbor.array versions.length ++ versions.flatMap Cbor.uint
  | .decodeError version text => Cbor.array 3 ++ Cbor.uint 1 ++ Cbor.uint version ++ Cbor.text text
  | .refused version text => Cbor.array 3 ++ Cbor.uint 2 ++ Cbor.uint version ++ Cbor.text text

/-- Reads a reason. -/
def RefuseReason.decoder : Decoder RefuseReason := do
  let _ ← Cbor.readArray.lift
  let number ← Cbor.readUInt8.lift
  if number = 0 then
    return .versionMismatch (← Cbor.elements DecodeError.format Cbor.readUInt.lift)
  else if number = 1 then
    return .decodeError (← Cbor.readUInt.lift) (← Cbor.readText.lift)
  else if number = 2 then
    return .refused (← Cbor.readUInt.lift) (← Cbor.readText.lift)
  else Cbor.Reader.fail (.unknownRefusal number)

namespace Message

/-- A message on the wire. -/
def encode : Message → Bytes
  | .proposeVersions versions => Cbor.array 2 ++ Cbor.uint 0 ++ encodeTable versions
  | .acceptVersion version data => Cbor.array 3 ++ Cbor.uint 1 ++ Cbor.uint version ++ data.encode
  | .refuse reason => Cbor.array 2 ++ Cbor.uint 2 ++ reason.encode
  | .queryReply versions => Cbor.array 2 ++ Cbor.uint 3 ++ encodeTable versions

/-- Reads a message. -/
def decoder : Decoder Message := do
  let _ ← Cbor.readArray.lift
  let number ← Cbor.readUInt8.lift
  if number = 0 then return .proposeVersions (← tableDecoder)
  else if number = 1 then
    let version ← Cbor.readUInt.lift
    return .acceptVersion version (← VersionData.decoder)
  else if number = 2 then return .refuse (← RefuseReason.decoder)
  else if number = 3 then return .queryReply (← tableDecoder)
  else Cbor.Reader.fail (.unknownHandshake number)

/-- The message at the front of a byte string. -/
def decode (bytes : Bytes) : Except DecodeError Message := decoder.value bytes

end Message

end BlockFeed.Handshake
