import BlockFeed.Node.Exchange
import BlockFeed.Wire.Channel

/-!
# The multiplexer

One end of a connection: it cuts the messages of its mini-protocols into segments, and routes the
segments that arrive to the channels of their mini-protocols. Segments of a mini-protocol without a
channel are dropped. Each channel is handed out once.

The connection ends when the other end goes away, when this end closes it, or when a write fails;
what has arrived by then can still be received.
-/

namespace BlockFeed

/-- One end of a connection. -/
structure Multiplexer where
  side : Side
  /-- The channels that exist, handed out or not. -/
  channels : List (MiniProtocol × Channel)
  /-- The mini-protocols whose channel has not been handed out. -/
  unclaimed : List MiniProtocol
  /-- Bytes of a segment that has not arrived completely. -/
  partialSegment : Bytes := []
  /-- Segments that have been written. -/
  written : List Segment := []
  /-- No message is sent any more. -/
  closed : Bool := false
  /-- Arriving bytes are still read. -/
  reading : Bool := true
  /-- The other end still takes what is written. -/
  peerOpen : Bool := true
  deriving Inhabited

namespace Multiplexer

/-- One end of a new connection. -/
def new (side : Side) (protocols : List MiniProtocol) : Multiplexer :=
  { side, channels := protocols.map (·, {}), unclaimed := protocols }

/-- Changes the channel of a mini-protocol, if it exists. -/
def updateChannel (m : Multiplexer) (protocol : MiniProtocol) (f : Channel → Channel) :
    Multiplexer :=
  { m with channels := m.channels.map fun (p, c) => if p = protocol then (p, f c) else (p, c) }

/-- Hands out a channel. -/
def claim (m : Multiplexer) (protocol : MiniProtocol) : Except ConnectionError Multiplexer :=
  if m.unclaimed.contains protocol then
    .ok { m with unclaimed := m.unclaimed.filter (· ≠ protocol) }
  else .error .closed

/-- Gives a channel back for good. -/
def dropChannel (m : Multiplexer) (protocol : MiniProtocol) : Multiplexer :=
  { m with channels := m.channels.filter (·.1 ≠ protocol) }

/-- Routes a segment to its channel. -/
def route (m : Multiplexer) (segment : Segment) : Multiplexer :=
  match MiniProtocol.ofId? segment.header.protocolId with
  | some protocol => m.updateChannel protocol (·.deliver segment.payload)
  | none => m

/-- Bytes arrive from the other end, unless it has gone away. -/
def arrive (m : Multiplexer) (bytes : Bytes) : Multiplexer :=
  if !m.reading || !m.peerOpen then m
  else
    let (segments, left) := Segment.parse (m.partialSegment ++ bytes)
    segments.foldl route { m with partialSegment := left }

/-- Nothing is read any more, and no message is sent. -/
def stop (m : Multiplexer) : Multiplexer :=
  { m with
    closed := true
    reading := false
    channels := m.channels.map fun (p, c) => (p, c.finish) }

/-- This end is given up. The channels that have been handed out outlast it, the others do not. -/
def discard (m : Multiplexer) : Multiplexer := { m.stop with unclaimed := [] }

/-- The other end takes nothing more; this end has not noticed yet. -/
def peerLeaves (m : Multiplexer) : Multiplexer := { m with peerOpen := false }

/-- This end notices that the other one has gone away, if it has. It does so only while it waits for
something. -/
def notice (m : Multiplexer) : Multiplexer := if m.peerOpen then m else m.stop

/-- The other end has gone away, and this end notices. -/
def peerEnds (m : Multiplexer) : Multiplexer := m.peerLeaves.stop

/-- Sends a message. -/
def send (m : Multiplexer) (protocol : MiniProtocol) (message : Bytes) :
    Except ConnectionError Unit × Multiplexer :=
  if m.closed then (.error .closed, m)
  else
    let segments := Segment.ofMessage (fun _ => 0) m.side protocol message
    if !m.peerOpen && !segments.isEmpty then (.error .bearer, { m with closed := true })
    else (.ok (), { m with written := m.written ++ segments })

/-- Takes the next message of a mini-protocol. -/
def receive (m : Multiplexer) (protocol : MiniProtocol) : Reception × Multiplexer :=
  match m.channels.lookup protocol with
  | some channel =>
    let (reception, channel) := channel.receive
    (reception, m.updateChannel protocol fun _ => channel)
  | none => (.closed, m)

/-- Takes the next message of a mini-protocol, for which this end waits if none has come. -/
def awaitMessage (m : Multiplexer) (protocol : MiniProtocol) : Reception × Multiplexer :=
  match m.receive protocol with
  | (.waiting, m) => m.notice.receive protocol
  | received => received

/-- The segments that have been written are taken away. -/
def takeWritten (m : Multiplexer) : List Segment × Multiplexer :=
  (m.written, { m with written := [] })

/-- The number of bytes that wait on a channel. -/
def backlog (m : Multiplexer) (protocol : MiniProtocol) : Nat :=
  match m.channels.lookup protocol with
  | some channel => channel.buffer.length + channel.arrived.flatten.length
  | none => 0

/-- How far an exchange has come. -/
inductive Progress (σ ε α : Type) where
  | ended (outcome : Except ε α)
  /-- It waits for a message in a state. -/
  | waiting (state : σ)

/-- The outcome of an exchange that has ended. -/
def Progress.outcome? {σ ε α : Type} : Progress σ ε α → Option (Except ε α)
  | .ended outcome => some outcome
  | .waiting _ => none

variable {σ ε α : Type}

/-- Carries a reaction out: what is to be sent is sent. -/
def carryOut (x : Exchange σ ε α) (m : Multiplexer) :
    Reaction σ ε α → Progress σ ε α × Multiplexer
  | .fail error => (.ended (.error error), m)
  | .await state => (.waiting state, m)
  | .request message state =>
    match m.send x.protocol message with
    | (.ok _, m) => (.waiting state, m)
    | (.error error, m) => (.ended (.error (x.unsent error)), m)
  | .conclude none value => (.ended (.ok value), m)
  | .conclude (some farewell) value =>
    match m.send x.protocol farewell with
    | (.ok _, m) => (.ended (.ok value), m)
    | (.error error, m) => (.ended (.error (x.unsent error)), m)

/-- Goes on with an exchange over messages that have arrived; `fuel` bounds their number. -/
def listen (x : Exchange σ ε α) :
    (fuel : Nat) → Progress σ ε α × Multiplexer → Progress σ ε α × Multiplexer
  | 0, progress => progress
  | _, (.ended outcome, m) => (.ended outcome, m)
  | fuel + 1, (.waiting state, m) =>
    match m.receive x.protocol with
    | (.message bytes, m) => listen x fuel (carryOut x m (x.react state bytes))
    | (.malformed fault, m) =>
      (.ended (.error (x.unreceived (.malformed x.protocol fault))), m)
    | (.closed, m) => (.ended (.error (x.unreceived .closed)), m)
    | (.waiting, m) => (.waiting state, m)

/-- Goes on with an exchange as far as what has arrived allows. A message takes a byte at least, so
the backlog bounds the number of messages. -/
def resume (x : Exchange σ ε α) (reaction : Reaction σ ε α) (m : Multiplexer) :
    Progress σ ε α × Multiplexer :=
  listen x (m.backlog x.protocol + 1) (carryOut x m reaction)

/-- Runs an exchange as far as what has arrived allows; `none` if it waits for more. -/
def converse (x : Exchange σ ε α) (m : Multiplexer) : Option (Except ε α) × Multiplexer :=
  let (progress, m) := resume x x.start m
  (progress.outcome?, m)

end Multiplexer

end BlockFeed
