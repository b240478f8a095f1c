import BlockFeed.Bytes
import BlockFeed.Wire.MiniProtocol

/-!
# Segments

All mini-protocols of a connection share one stream of bytes. A message is cut into segments of at
most `maxPayload` bytes, each after a header of eight bytes: the time of sending, the side that
sends with the number of the mini-protocol, and the length of the payload.

`Header.decode_encode` says that a header is read back, and `cut` never makes an empty segment.
-/

namespace BlockFeed

/-- The side of a mini-protocol that an end of the connection plays. -/
inductive Side where
  | initiator
  | responder
  deriving DecidableEq, Repr, Inhabited

namespace Segment

/-- The header of a segment. -/
structure Header where
  /-- The low half of a clock in microseconds. -/
  timestamp : UInt32
  side : Side
  /-- The number of a mini-protocol, known or not. -/
  protocolId : UInt16
  /-- The length of the payload. -/
  length : UInt16
  deriving DecidableEq, Repr

/-- The number of bytes of a header. -/
def headerLength : Nat := 8

/-- The largest payload that is sent in one segment. -/
def maxPayload : Nat := 12288

/-- The bit that marks segments of the responder. -/
def responderBit : Nat := 0x8000

namespace Header

/-- The side and the number of the mini-protocol in one word; of the number 15 bits are kept. -/
def route (h : Header) : Nat :=
  h.protocolId.toNat % responderBit + match h.side with
    | .initiator => 0
    | .responder => responderBit

/-- The eight bytes of a header. -/
def encode (h : Header) : Bytes :=
  Bytes.bigEndian 4 h.timestamp.toNat ++ Bytes.bigEndian 2 h.route
    ++ Bytes.bigEndian 2 h.length.toNat

/-- Reads the eight bytes of a header. -/
def decode (bytes : Bytes) : Header :=
  let route := Bytes.ofBigEndian ((bytes.drop 4).take 2)
  { timestamp := UInt32.ofNat (Bytes.ofBigEndian (bytes.take 4))
    side := if route < responderBit then .initiator else .responder
    protocolId := UInt16.ofNat (route % responderBit)
    length := UInt16.ofNat (Bytes.ofBigEndian ((bytes.drop 6).take 2)) }

@[simp] theorem length_encode (h : Header) : h.encode.length = headerLength := by
  simp [encode, headerLength]

theorem route_lt (h : Header) : h.route < 65536 := by
  unfold route responderBit
  split <;> omega

/-- A header is read back, of the number of the mini-protocol 15 bits. -/
theorem decode_encode (h : Header) :
    decode h.encode = { h with protocolId := UInt16.ofNat (h.protocolId.toNat % responderBit) } := by
  have ht : h.encode.take 4 = Bytes.bigEndian 4 h.timestamp.toNat := by simp [encode]
  have hr : (h.encode.drop 4).take 2 = Bytes.bigEndian 2 h.route := by simp [encode]
  have hl : (h.encode.drop 6).take 2 = Bytes.bigEndian 2 h.length.toNat := by
    simp [encode, List.drop_append, List.take_of_length_le]
  have hroute : h.route % Nat.pow 256 2 = h.route := Nat.mod_eq_of_lt (by have := h.route_lt; omega)
  have htime : h.timestamp.toNat % Nat.pow 256 4 = h.timestamp.toNat :=
    Nat.mod_eq_of_lt (by have := h.timestamp.toNat_lt; omega)
  have hlen : h.length.toNat % Nat.pow 256 2 = h.length.toNat :=
    Nat.mod_eq_of_lt (by have := h.length.toNat_lt; omega)
  unfold decode
  rw [ht, hr, hl]
  simp only [Bytes.ofBigEndian_bigEndian, hroute, htime, hlen, UInt32.ofNat_toNat,
    UInt16.ofNat_toNat]
  obtain ⟨timestamp, side, protocolId, length⟩ := h
  have hlow : protocolId.toNat % 32768 < 32768 := Nat.mod_lt _ (by decide)
  have hhigh : ¬ protocolId.toNat % 32768 + 32768 < 32768 := by omega
  cases side <;> simp [route, responderBit, hlow, hhigh]

end Header

end Segment

/-- A header with its payload. -/
structure Segment where
  header : Segment.Header
  payload : Bytes
  deriving DecidableEq, Repr

namespace Segment

/-- The bytes of a segment. -/
def encode (s : Segment) : Bytes := s.header.encode ++ s.payload

/-- The payloads that a message is cut into; `fuel` bounds their number. -/
def cutWith : (fuel : Nat) → Bytes → List Bytes
  | 0, _ => []
  | fuel + 1, message =>
    if message.isEmpty then []
    else message.take maxPayload :: cutWith fuel (message.drop maxPayload)

/-- The payloads that a message is cut into. -/
def cut (message : Bytes) : List Bytes := cutWith message.length message

/-- A segment of one end with a payload. -/
def make (timestamp : UInt32) (side : Side) (protocol : MiniProtocol) (payload : Bytes) :
    Segment :=
  ⟨⟨timestamp, side, protocol.id, UInt16.ofNat payload.length⟩, payload⟩

/-- The segments that carry a message, given the times at which they are sent. -/
def ofMessage (clock : Nat → UInt32) (side : Side) (protocol : MiniProtocol) (message : Bytes) :
    List Segment :=
  (cut message).mapIdx fun i payload => make (clock i) side protocol payload

/-- The first segment of a stream of bytes with what follows it, once all of it has come. -/
def next? (stream : Bytes) : Option (Segment × Bytes) :=
  if stream.length < headerLength then none
  else
    let header := Header.decode (stream.take headerLength)
    let rest := stream.drop headerLength
    let length := header.length.toNat
    if rest.length < length then none
    else some (⟨header, rest.take length⟩, rest.drop length)

/-- The complete segments at the front of a stream, and the bytes left over; `fuel` bounds their
number. -/
def parseWith : (fuel : Nat) → Bytes → List Segment × Bytes
  | 0, stream => ([], stream)
  | fuel + 1, stream =>
    match next? stream with
    | none => ([], stream)
    | some (segment, rest) =>
      let (segments, left) := parseWith fuel rest
      (segment :: segments, left)

/-- The complete segments at the front of a stream, and the bytes left over. -/
def parse (stream : Bytes) : List Segment × Bytes := parseWith stream.length stream

end Segment

end BlockFeed
