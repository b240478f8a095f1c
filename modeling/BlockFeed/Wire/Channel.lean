import BlockFeed.Cbor.Extent
import BlockFeed.Wire.Segment

/-!
# Channels

What arrives for one mini-protocol is a sequence of payloads, cut wherever the sender pleased. A
channel joins them and hands out complete items, one message at a time. Payloads are only joined
when the bytes at hand do not hold a whole item yet.

`Channel.receive` either yields the next message, or says why there is none: the bytes cannot begin
an item, more has to arrive, or nothing more will.
-/

namespace BlockFeed

/-- The receiving end of one mini-protocol. -/
structure Channel where
  /-- Joined bytes that have not been handed out. -/
  buffer : Bytes := []
  /-- Payloads that have arrived but are not joined yet, the oldest first. -/
  arrived : List Bytes := []
  /-- No further payload can arrive. -/
  ended : Bool := false
  deriving DecidableEq, Repr, Inhabited

/-- What a channel has to give. -/
inductive Reception where
  | message (bytes : Bytes)
  /-- The bytes cannot begin an item; this never changes. -/
  | malformed (fault : Cbor.Fault)
  /-- More bytes have to arrive. -/
  | waiting
  /-- Nothing will arrive any more. -/
  | closed
  deriving DecidableEq, Repr

namespace Channel

/-- A payload arrives. -/
def deliver (c : Channel) (payload : Bytes) : Channel :=
  { c with arrived := c.arrived ++ [payload] }

/-- No further payload will arrive. -/
def finish (c : Channel) : Channel := { c with ended := true }

/-- What joined bytes have to give, with the bytes that stay; `none` if they only begin an item. -/
def ofBuffer? (buffer : Bytes) : Option (Reception × Bytes) :=
  match Cbor.itemLength? buffer with
  | .error fault => some (.malformed fault, buffer)
  | .ok (some length) => some (.message (buffer.take length), buffer.drop length)
  | .ok none => none

/-- Joins payloads to a buffer until it has something to give. -/
def receiveFrom (ended : Bool) (buffer : Bytes) : List Bytes → Reception × Channel
  | [] =>
    match ofBuffer? buffer with
    | some (reception, left) => (reception, ⟨left, [], ended⟩)
    | none => (if ended then .closed else .waiting, ⟨buffer, [], ended⟩)
  | payload :: rest =>
    match ofBuffer? buffer with
    | some (reception, left) => (reception, ⟨left, payload :: rest, ended⟩)
    | none => receiveFrom ended (buffer ++ payload) rest

/-- Takes the next message. -/
def receive (c : Channel) : Reception × Channel := receiveFrom c.ended c.buffer c.arrived

end Channel

end BlockFeed
