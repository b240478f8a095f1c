import BlockFeed.Chain.Header
import BlockFeed.Text.Duration
import BlockFeed.Wire.Handshake
import BlockFeed.Wire.MiniProtocol

/-!
# Failures of node calls

Why a connection cannot be used, why what a node sent cannot be used, and why a call has failed.
Only one failure is final: the node has said that it does not have what was asked for. Every other
one is worth another attempt.

The wording of failures of the operating system is not part of the library, so `message` is `none`
for them.
-/

namespace BlockFeed

/-- Why no message comes from a channel. -/
inductive ReceiveError where
  /-- The connection has ended. -/
  | closed
  /-- The bytes cannot begin an item. -/
  | malformed (protocol : MiniProtocol) (fault : Cbor.Fault)
  deriving DecidableEq, Repr

/-- Bytes of a mini-protocol that do not decode, in messages. -/
def malformedText (protocol : MiniProtocol) (reason : String) : String :=
  "malformed " ++ protocol.name ++ " message: " ++ reason

/-- The wording of a receive error. -/
def ReceiveError.message : ReceiveError → String
  | .closed => "connection closed"
  | .malformed protocol fault => malformedText protocol fault.message

/-- Why a negotiation did not end in an agreement. -/
inductive Refusal where
  /-- No answer came. -/
  | noAnswer (error : ReceiveError)
  /-- The answer does not decode. -/
  | malformedAnswer (error : DecodeError)
  /-- The node accepted a version that was not proposed. -/
  | unproposedVersion (version : UInt64)
  /-- The node is on another network. -/
  | otherNetwork (found expected : UInt64)
  /-- The node refused, with its reason. -/
  | byNode (reason : Handshake.RefuseReason)
  /-- The answer is another message. -/
  | unexpected (messageName : String)
  /-- A refusal of which only the wording is known. -/
  | stated (text : String)
  deriving DecidableEq, Repr

/-- The wording of a refusal. -/
def Refusal.message : Refusal → String
  | .noAnswer e => e.message
  | .malformedAnswer e => "malformed reply: " ++ e.message
  | .unproposedVersion version =>
    "node accepted unproposed version " ++ Numeral.ofNat version.toNat
  | .otherNetwork found expected =>
    "node is on network " ++ Numeral.ofNat found.toNat ++ ", expected "
      ++ Numeral.ofNat expected.toNat
  | .byNode reason => reason.toText
  | .unexpected name => "unexpected " ++ name
  | .stated text => text

/-- Why a connection cannot be used. -/
inductive ConnectionError where
  /-- The endpoint could not be reached. -/
  | connect (endpoint : String)
  | connectTimeout (endpoint : String)
  | handshakeTimeout
  | handshakeRefused (reason : Refusal)
  /-- The connection has ended. -/
  | closed
  /-- The bearer failed. -/
  | bearer
  deriving DecidableEq, Repr

/-- The wording of a connection error. -/
def ConnectionError.message : ConnectionError → Option String
  | .connect _ => none
  | .connectTimeout endpoint => some ("connecting to " ++ endpoint ++ " timed out")
  | .handshakeTimeout => some "handshake timed out"
  | .handshakeRefused reason => some ("handshake refused: " ++ reason.message)
  | .closed => some "connection closed"
  | .bearer => none

/-- What a client waits for when a message comes. -/
inductive Expectation where
  | intersection
  | nextUpdate
  | batch
  | batchEnd
  deriving DecidableEq, Repr

/-- An expectation in messages. -/
def Expectation.toText : Expectation → String
  | .intersection => "finding an intersection"
  | .nextUpdate => "awaiting the next update"
  | .batch => "awaiting a batch"
  | .batchEnd => "streaming a batch"

/-- Why what a node sent cannot be used. -/
inductive ProtocolError where
  /-- The bytes do not decode. -/
  | decode (protocol : MiniProtocol) (error : DecodeError)
  /-- The message does not answer what was asked. -/
  | unexpected (protocol : MiniProtocol) (messageName : String) (expected : Expectation)
  | header (error : HeaderError)
  deriving DecidableEq, Repr

/-- The wording of a protocol error. -/
def ProtocolError.message : ProtocolError → String
  | .decode protocol e => malformedText protocol e.message
  | .unexpected protocol name expected =>
    "unexpected " ++ protocol.name ++ " message " ++ name ++ " while " ++ expected.toText
  | .header e => "invalid header: " ++ e.message

/-- What a node does not have. -/
inductive Missing where
  /-- The node has no block at all. -/
  | anyBlock
  | block (point : Point)
  | blocks (first last : Point)
  /-- Something of which only the wording is known. -/
  | named (text : String)
  deriving DecidableEq

/-- The wording of what is missing. -/
def Missing.toText : Missing → String
  | .anyBlock => "node has no blocks yet"
  | .block point => "block at " ++ point.toText
  | .blocks first last => "blocks from " ++ first.toText ++ " to " ++ last.toText
  | .named text => text

/-- Why a call to a node has failed. -/
inductive NodeError where
  | connection (error : ConnectionError)
  /-- An attempt took longer than its limit. -/
  | timeout (limit : Duration)
  | protocol (error : ProtocolError)
  /-- The node does not have what was asked for. -/
  | notFound (missing : Missing)
  deriving DecidableEq

namespace NodeError

/-- The wording of a node error. -/
def message : NodeError → Option String
  | .connection e => e.message
  | .timeout limit => some ("node call timed out after " ++ limit.toText)
  | .protocol e => some e.message
  | .notFound missing => some ("not found: " ++ missing.toText)

/-- Another attempt may succeed. -/
def isRetryable : NodeError → Bool
  | .notFound _ => false
  | _ => true

/-- The kind of a node error, as metrics name it. -/
def kind : NodeError → String
  | .connection _ => "connection"
  | .timeout _ => "timeout"
  | .protocol _ => "protocol"
  | .notFound _ => "not_found"

/-- The failure of a call on a channel from which no message comes. -/
def ofReceive : ReceiveError → NodeError
  | .closed => .connection .closed
  | .malformed sender fault => .protocol (.decode sender (.format fault))

end NodeError

end BlockFeed
