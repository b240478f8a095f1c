import BlockFeed.Fetcher
import BlockFeed.Json.Access
import BlockFeed.Walker.Basic

/-!
# Failures in scenarios

A failure is answered by an object with a code, which names the cause, and the wording of the
failure, where it has one of its own.
-/

namespace BlockFeed

/-- A failure with its code and its wording. -/
def Json.failure (code : String) (message : Option String) : Json :=
  match message with
  | some m => .object [("error", .string code), ("message", .string m)]
  | none => .object [("error", .string code)]

/-- The answer where a computation leaves the range of words. -/
def Overflow.toJson : Json := .failure "Panic" none

/-- A failure to decode. -/
def DecodeError.toJson (e : DecodeError) : Json := .failure "Cbor" (some e.message)

/-- A hash text that cannot be read. -/
def BlockHash.TextError.toJson (e : BlockHash.TextError) : Json :=
  let code := match e with
    | .oddLength => "Hex.OddLength"
    | .wrongLength => "Hex.InvalidStringLength"
    | .badDigit _ _ => "Hex.InvalidHexCharacter"
  .failure code (some e.message)

/-- The code of a header error. -/
def HeaderError.code : HeaderError → String
  | .malformed _ => "Header.Cbor"
  | .unsupportedEra _ => "Header.UnsupportedEra"
  | .unexpectedTag _ => "Header.UnexpectedTag"
  | .invalidParent => "Header.InvalidParentHash"

/-- A header that cannot be used. -/
def HeaderError.toJson (e : HeaderError) : Json :=
  match e with
  | .malformed _ => .failure e.code none
  | e => .failure e.code (some e.message)

/-- A range that cannot be read. -/
def Bypass.RangeError.toJson (e : Bypass.RangeError) : Json :=
  let code := match e with
    | .malformed _ => "Bypass.Malformed"
    | .inverted _ => "Bypass.Inverted"
  .failure code (some e.message)

/-- A configuration that cannot be used. -/
def ConfigError.toJson (e : ConfigError) : Json :=
  match e with
  | .unreadable kind => .failure "Config.Io" (some kind)
  | .malformed => .failure "Config.Yaml" none
  | .bypass _ => .failure "Config.Bypass" (some e.message)
  | e => .failure "Config.Invalid" (some e.message)

/-- The code of a connection error. -/
def ConnectionError.code : ConnectionError → String
  | .connect _ => "Connection.Connect"
  | .connectTimeout _ => "Connection.ConnectTimeout"
  | .handshakeTimeout => "Connection.HandshakeTimeout"
  | .handshakeRefused _ => "Connection.HandshakeRefused"
  | .closed => "Connection.Closed"
  | .bearer => "Connection.Io"

/-- A connection that cannot be used. -/
def ConnectionError.toJson (e : ConnectionError) : Json := .failure e.code e.message

/-- The code of a node error. -/
def NodeError.code : NodeError → String
  | .connection e => e.code
  | .timeout _ => "Timeout"
  | .protocol (.decode _ _) => "Protocol.Decode"
  | .protocol (.unexpected _ _ _) => "Protocol.UnexpectedMessage"
  | .protocol (.header e) => "Protocol." ++ e.code
  | .notFound _ => "NotFound"

/-- A call that has failed. -/
def NodeError.toJson (e : NodeError) : Json := .failure e.code e.message

/-- A cache that cannot be used. -/
def CacheError.toJson (e : CacheError) : Json := .failure "Cache" (some e.message)

/-- Blocks that were not taken. -/
def DispatchError.toJson (e : DispatchError) : Json := .failure "Dispatch" (some e.message)

/-- The code of a walker error. -/
def WalkerError.code : WalkerError → String
  | .node e => e.code
  | .cache _ => "Cache"
  | .rolledBack _ => "RolledBack"
  | .intersectNotFound _ => "IntersectNotFound"
  | .stalled _ => "Stalled"

/-- A walk that has failed, with the reason that is counted. -/
def WalkerError.toJson (e : WalkerError) : Json :=
  (Json.failure e.code e.message).extend [("reason", .string e.reason)]

/-- A batch that has failed. -/
def FetchError.toJson (e : FetchError) : Json :=
  match e with
  | .cacheMiss _ => .failure "CacheMiss" e.message
  | .cache _ => .failure "Cache" e.message
  | .dispatch _ => .failure "Dispatch" e.message
  | .node height cause =>
    .object [("error", .string "Node"), ("height", .ofWord height), ("cause", cause.toJson)]

/-- The answer to work that would never end. -/
def Json.pending : Json := .object [("pending", .bool true)]

/-- The answer to a success with nothing to say. -/
def Json.okay : Json := .object [("ok", .bool true)]

namespace Scenario

/-- A call error that is made up: its kind, with details that have defaults. -/
def nodeError? (j : Json) : Option NodeError := do
  let kind ← match j with
    | .string kind => some kind
    | j => (j.get "kind").toText?
  let text ← (j.get "text").orDefault? Json.toText? "x"
  let n ← (j.get "n").orDefault? Json.toWord? 1
  match kind with
  | "closed" => some (.connection .closed)
  | "connect_timeout" => some (.connection (.connectTimeout text))
  | "handshake_timeout" => some (.connection .handshakeTimeout)
  | "handshake_refused" => some (.connection (.handshakeRefused (.stated text)))
  | "timeout" => return .timeout (.ofMillis (← (j.get "ms").orDefault? Json.toWord? 1000))
  | "unexpected" => some (.protocol (.unexpected .chainSync "MsgDone" .nextUpdate))
  | "decode" => some (.protocol (.decode .blockFetch (.unknownBlockFetch 9)))
  | "header_era" => some (.protocol (.header (.unsupportedEra n)))
  | "header_tag" => some (.protocol (.header (.unexpectedTag n)))
  | "header_parent" => some (.protocol (.header .invalidParent))
  | "not_found" => some (.notFound (.named text))
  | _ => none

end Scenario

end BlockFeed
