import BlockFeed.Node.Multiplexer

/-!
# Scripted peers

The far end of a connection in rehearsals: it goes through a script, waiting for messages, sending
what the script says, and perhaps closing the connection. After its script it stays silent.

Bytes pass from one end to the other at once. `Line.settle` lets the peer go on as far as it can, and
`Line.resume` lets an exchange of the near end and the peer take turns until the exchange has ended
or both wait.
-/

namespace BlockFeed.Simulation

/-- One step of a script. -/
inductive PeerStep where
  /-- Waits for a message of a mini-protocol. -/
  | receive (protocol : MiniProtocol)
  | send (protocol : MiniProtocol) (message : Bytes)
  /-- Ends the connection. -/
  | close
  deriving DecidableEq, Repr

/-- A connection with both its ends. -/
structure Line where
  near : Multiplexer
  far : Multiplexer
  /-- What the peer is still to do. -/
  script : List PeerStep
  /-- What the peer has waited for, the latest first, with the message, unless none came. -/
  heard : List (MiniProtocol × Option Bytes) := []
  deriving Inhabited

namespace Line

/-- A new connection. -/
def new (script : List PeerStep) : Line :=
  { near := .new .initiator MiniProtocol.all
    far := .new .responder MiniProtocol.all
    script }

/-- The bytes of segments. -/
def bytesOf (segments : List Segment) : Bytes := (segments.map Segment.encode).flatten

/-- What the near end has written arrives at the far end. -/
def flushNear (l : Line) : Line :=
  let (segments, near) := l.near.takeWritten
  { l with near, far := l.far.arrive (bytesOf segments) }

/-- What the far end has written arrives at the near end. -/
def flushFar (l : Line) : Line :=
  let (segments, far) := l.far.takeWritten
  { l with far, near := l.near.arrive (bytesOf segments) }

/-- The peer goes through a script as far as it can. -/
def act (l : Line) : List PeerStep → Line
  | [] => { l with script := [] }
  | .receive protocol :: rest =>
    match l.far.receive protocol with
    | (.message bytes, far) =>
      act { l with far, heard := (protocol, some bytes) :: l.heard } rest
    | (.waiting, far) => { l with far, script := .receive protocol :: rest }
    | (_, far) => { l with far, heard := (protocol, none) :: l.heard, script := [] }
  | .send protocol message :: rest =>
    let (_, far) := l.far.send protocol message
    act { l with far } rest
  | .close :: _ =>
    let l := { l with script := [] }.flushFar
    { l with far := l.far.stop, near := l.near.peerEnds }

/-- The peer goes on with what has been written to it, and what it answers arrives. -/
def settle (l : Line) : Line :=
  let l := l.flushNear
  (l.act l.script).flushFar

/-- A channel has something to give. -/
def hasReception (m : Multiplexer) (protocol : MiniProtocol) : Bool :=
  match (m.receive protocol).1 with
  | .waiting => false
  | _ => true

variable {σ ε α : Type}

/-- An exchange of the near end goes on, and the peer with it; `none` if both wait. Between two
rounds the peer has gone on, so the length of its script bounds the number of rounds. -/
def resume (x : Exchange σ ε α) :
    (rounds : Nat) → Reaction σ ε α → Line → Option (Except ε α) × Line
  | 0, _, l => (none, l)
  | rounds + 1, reaction, l =>
    match l.near.resume x reaction with
    | (.ended outcome, near) => (some outcome, { l with near }.settle)
    | (.waiting state, near) =>
      let l := { l with near }.settle
      if hasReception l.near x.protocol then resume x rounds (.await state) l else (none, l)

/-- Runs an exchange of the near end against the peer; `none` if both wait in the end. -/
def converse (x : Exchange σ ε α) (l : Line) : Option (Except ε α) × Line :=
  l.resume x (l.script.length + 2) x.start

/-- The near end goes away. -/
def hangUp (l : Line) : Line :=
  let l := l.flushNear
  let l := { l with near := l.near.stop, far := l.far.peerEnds }
  l.act l.script

end Line

end BlockFeed.Simulation
