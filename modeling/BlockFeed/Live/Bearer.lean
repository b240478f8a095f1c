import BlockFeed.Live.Patience
import BlockFeed.Node.Client
import BlockFeed.Node.Negotiation
import BlockFeed.Node.Multiplexer
import BlockFeed.Node.Tracker
import BlockFeed.Text.Endpoint
import Std.Async.DNS
import Std.Async.TCP

/-!
# Calls over TCP

Calls to a node are carried out over TCP connections. A call whose work is abandoned while it waits
leaves the gate and ends its connection at once.
-/

namespace BlockFeed.Live

open Std.Async Std.Net

/-- A TCP connection to a node. -/
structure Bearer where
  socket : TCP.Socket.Client
  mux : Multiplexer

namespace Bearer

/-- Puts the time of sending into a segment. -/
def stamped (micros : Nat) (segment : Segment) : Segment :=
  { segment with header := { segment.header with timestamp := UInt32.ofNat micros } }

/-- Sends what has been written. A failure ends the connection. -/
def flush (b : Bearer) : IO Bearer := do
  let (segments, mux) := b.mux.takeWritten
  if segments.isEmpty then return { b with mux }
  let micros := (← IO.monoNanosNow) / 1000
  let bytes := (segments.map fun s => (stamped micros s).encode).flatten
  try
    (b.socket.send ⟨bytes.toArray⟩).block
    return { b with mux }
  catch _ => return { b with mux := mux.peerEnds }

/-- What arrives next: bytes, or the end of the connection. -/
def receive (b : Bearer) (p : Patience) (time : Option Nat) : IO (Arrival Bytes) := do
  try
    match ← p.await time (b.socket.recvSelector 65536) with
    | .came (some data) => return .came data.toList
    | .came none => return .came []
    | .late => return .late
    | .abandoned => return .abandoned
  catch _ => return .came []

/-- Carries an exchange out, at most until a time. -/
partial def converse {σ ε α : Type} (p : Patience) (time : Option Nat) (x : Exchange σ ε α)
    (reaction : Reaction σ ε α) (b : Bearer) : IO (Arrival (Except ε α) × Bearer) := do
  let (progress, mux) := b.mux.resume x reaction
  let b ← flush { b with mux }
  match progress with
  | .ended outcome => return (.came outcome, b)
  | .waiting state =>
    match ← b.receive p time with
    | .came [] => converse p time x (.await state) { b with mux := b.mux.peerEnds }
    | .came bytes => converse p time x (.await state) { b with mux := b.mux.arrive bytes }
    | .late => return (.late, b)
    | .abandoned => return (.abandoned, b)

/-- Ends the connection. -/
def hangUp (b : Bearer) : IO Unit := do
  try b.socket.shutdown.block catch _ => return

/-- The endpoint that an address names. -/
def resolve (address : String) : IO SocketAddress := do
  let some endpoint := Endpoint.ofText? address | throw (.userError "invalid endpoint")
  let port := Numeral.ofNat endpoint.port.toNat
  match (← (DNS.getAddrInfo endpoint.host.toText port).block).toList with
  | .v4 addr :: _ => return .v4 ⟨addr, endpoint.port⟩
  | .v6 addr :: _ => return .v6 ⟨addr, endpoint.port⟩
  | [] => throw (.userError "unknown host")

/-- Reaches an address, at most until a time. -/
def connect (p : Patience) (time : Option Nat) (address : String) : IO (Arrival (Option Bearer)) := do
  try
    let socket ← TCP.Socket.Client.mk
    let task ← (socket.connect (← resolve address)).toIO
    match ← p.await time (Patience.ofTask task) with
    | .came _ =>
      socket.noDelay
      return .came (some ⟨socket, .new .initiator MiniProtocol.all⟩)
    | .late => return .late
    | .abandoned => return .abandoned
  catch _ => return .came none

end Bearer

/-- What calls share, and what a call holds while it is carried out. -/
structure Session where
  tracker : IO.Ref Tracker
  /-- Takes a measurement down. -/
  note : Measurement → IO Unit
  patience : Patience
  /-- The time at which the attempt exceeds its limit. -/
  deadline : Option Nat := none
  insideGate : Bool := false
  bearer : Option Bearer := none

namespace Session

/-- Changes the tracker. -/
def track (s : Session) (f : Tracker → Tracker) : IO Unit := do
  s.tracker.modify f
  s.note (.openConnections (← s.tracker.get).openConnections)

/-- Ends the connection. -/
def hangUp (s : Session) : IO Session := do
  if let some bearer := s.bearer then
    bearer.hangUp
    s.track Tracker.untrack
  return { s with bearer := none }

/-- Leaves the gate. -/
def leaveGate (s : Session) : IO Session := do
  if s.insideGate then s.tracker.modify Tracker.leave
  return { s with insideGate := false }

/-- The earlier of the end of the attempt and the time after a span. -/
def timeAfter (s : Session) (limit : Duration) : IO Nat := do
  let time := (← IO.monoMsNow) + limit.millis
  return match s.deadline with
  | some deadline => min deadline time
  | none => time

/-- The end of the attempt has come. -/
def isLate (s : Session) : IO Bool := do
  match s.deadline with
  | some deadline => return deadline ≤ (← IO.monoMsNow)
  | none => return false

/-- The answer to a question; `none` if the call is abandoned meanwhile. -/
def answer (s : Session) : (query : Link.Query) → IO (Option query.Answer × Session)
  | .beginAttempt limit =>
    return (some (), { s with deadline := some ((← IO.monoMsNow) + limit.millis) })
  | .tryGate => do
    let passed ← s.tracker.modifyGet Tracker.tryEnter
    return (some passed, { s with insideGate := passed })
  | .awaitGate => do
    let time ← s.timeAfter Attempt.gatePoll
    if ← s.patience.sleepUntil time then
      return (some (if ← s.isLate then none else some ()), s)
    else return (none, s)
  | .forceGate => do
    s.tracker.modify Tracker.force
    return (some (), { s with insideGate := true })
  | .leaveGate => do return (some (), ← s.leaveGate)
  | .connect address limit => do
    match ← Bearer.connect s.patience (some (← s.timeAfter limit)) address with
    | .came (some bearer) => return (some (some .connected), { s with bearer := some bearer })
    | .came none => return (some (some .failed), s)
    | .late => return (some (if ← s.isLate then none else some .timedOut), s)
    | .abandoned => return (none, s)
  | .track => do
    s.track Tracker.track
    return (some (), s)
  | .negotiate magic limit => do
    let some bearer := s.bearer | return (some (some (.error .closed)), s)
    let x := Handshake.negotiation magic
    let (arrival, bearer) ← bearer.converse s.patience (some (← s.timeAfter limit)) x x.start
    let s := { s with bearer := some bearer }
    match arrival with
    | .came outcome => return (some (some outcome), s)
    | .late => return (some (if ← s.isLate then none else some (.error .handshakeTimeout)), s)
    | .abandoned => return (none, s)
  | .converse conversation => do
    let some bearer := s.bearer | return (some (some (.error (.connection .closed))), s)
    let x := conversation.exchange
    let (arrival, bearer) ← bearer.converse s.patience s.deadline x x.start
    let s := { s with bearer := some bearer }
    match arrival with
    | .came outcome => return (some (some outcome), s)
    | .late => return (some none, s)
    | .abandoned => return (none, s)
  | .hangUp => do return (some (some ()), ← s.hangUp)
  | .pause nanos => do
    let slept ← s.patience.sleepUntil ((← IO.monoMsNow) + (Duration.covering nanos).millis)
    return (if slept then some () else none, s)
  | .draw greatest => do
    let drawn ← IO.rand 0 greatest
    return (some ⟨min drawn greatest, Nat.lt_succ_of_le (Nat.min_le_right ..)⟩, s)
  | .note m => do
    s.note m
    return (some (), s)

/-- Carries a call out; `none` if it is abandoned. -/
def carryOut {α : Type} (s : Session) : Run Link Unit (Except NodeError α) →
    IO (Option (Except NodeError α))
  | .done _ outcome => return some outcome
  | .wait _ query resume => do
    match ← s.answer query with
    | (some given, s) => carryOut s (resume given)
    | (none, s) =>
      discard (← s.leaveGate).hangUp
      return none

end Session

end BlockFeed.Live
