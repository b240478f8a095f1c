import BlockFeed.Node.Client
import BlockFeed.Node.Negotiation
import BlockFeed.Node.Tracker
import BlockFeed.Simulation.Peer
import BlockFeed.Text.Endpoint

/-!
# A network of scripted peers

Calls over a network that is made up: it says how each connect ends, and gives every connection a
scripted peer. Time passes only when every call waits for it. Calls that are carried out at once go
on in turns, each from one thing it waits for to the next, so the gate is found closed by those who
come while another call is inside.
-/

namespace BlockFeed.Simulation

/-- How a connect ends. -/
inductive Greeting where
  /-- The node refuses. -/
  | refuse
  /-- The node never answers. -/
  | hang
  /-- The node accepts, and a peer goes through a script. -/
  | accept (script : List PeerStep)
  deriving DecidableEq, Repr

/-- A network with its node, as one client sees it. -/
structure Network where
  /-- The time in milliseconds. -/
  clock : Nat := 0
  tracker : Tracker := {}
  metrics : Metrics := {}
  /-- How the next connects end; the last entry is good for all that follow. -/
  greetings : List Greeting := []
  /-- The connections that have been accepted, in order. -/
  lines : List Line := []
  /-- The times at which attempts have begun, the latest first. -/
  attempts : List Nat := []
  deriving Inhabited

namespace Network

/-- How the next connect ends. -/
def nextGreeting (n : Network) : Greeting × Network :=
  match n.greetings with
  | [] => (.accept [], n)
  | [last] => (last, n)
  | first :: rest => (first, { n with greetings := rest })

/-- The network reaches from here to an address: it knows all IPv4 addresses, and no names but that
of the local host. -/
def reaches (address : String) : Bool :=
  (Endpoint.ofText? address).any (·.host.isLocalOrV4)

/-- Shows the number of open connections. -/
def publish (n : Network) : Network :=
  { n with metrics := n.metrics.note (.openConnections n.tracker.openConnections) }

/-- Changes a connection. -/
def updateLine (n : Network) (index : Nat) (f : Line → Line) : Network :=
  { n with lines := n.lines.modify index f }

/-- Runs an exchange over a connection. -/
def converse {τ ε α : Type} (n : Network) (index : Nat) (x : Exchange τ ε α) :
    Option (Except ε α) × Network :=
  let (outcome, line) := ((n.lines[index]?).getD default).converse x
  (outcome, n.updateLine index fun _ => line)

end Network

/-- An answer with the time at which it comes, if it ever does. -/
structure Due (α : Type) where
  time : Option Nat
  answer : α

/-- A call that is being carried out. -/
structure Caller (σ α : Type) where
  /-- What follows once the time has come. -/
  next : Run Link σ (Except NodeError α)
  /-- The time at which the call goes on; `none` if it never does. -/
  time : Option Nat := some 0
  /-- The time at which the limit of the attempt passes. -/
  deadline : Option Nat := none
  /-- Its connection. -/
  line : Nat := 0

namespace Caller

variable {σ α : Type}

/-- An answer that comes at a time, unless the limit of the attempt passes first. -/
def cutShort {β : Type} (c : Caller σ α) (due : Option Nat) (answer : β) : Due (Option β) :=
  match due, c.deadline with
  | some time, some deadline =>
    if time ≤ deadline then ⟨some time, some answer⟩ else ⟨some deadline, none⟩
  | some time, none => ⟨some time, some answer⟩
  | none, deadline => ⟨deadline, none⟩

/-- A connect begins. -/
def connect (n : Network) (c : Caller σ α) (address : String) (limit : Duration) :
    Due (Option ConnectOutcome) × Network × Caller σ α :=
  if !Network.reaches address then (c.cutShort (some n.clock) .failed, n, c)
  else
    match n.nextGreeting with
    | (.refuse, n) => (c.cutShort (some n.clock) .failed, n, c)
    | (.hang, n) => (c.cutShort (some (n.clock + limit.millis)) .timedOut, n, c)
    | (.accept script, n) =>
      let line := n.lines.length
      (c.cutShort (some n.clock) .connected, { n with lines := n.lines ++ [Line.new script] },
        { c with line })

/-- What becomes of a question: the answer, and when it comes. -/
def ask (n : Network) (c : Caller σ α) :
    (query : Link.Query) → Due query.Answer × Network × Caller σ α
  | .beginAttempt limit =>
    (⟨some n.clock, ()⟩, { n with attempts := n.clock :: n.attempts },
      { c with deadline := some (n.clock + limit.millis) })
  | .tryGate =>
    let (passed, tracker) := n.tracker.tryEnter
    (⟨some n.clock, passed⟩, { n with tracker }, c)
  | .awaitGate => (c.cutShort (some (n.clock + Attempt.gatePoll.millis)) (), n, c)
  | .forceGate => (⟨some n.clock, ()⟩, { n with tracker := n.tracker.force }, c)
  | .leaveGate => (⟨some n.clock, ()⟩, { n with tracker := n.tracker.leave }, c)
  | .connect address limit => connect n c address limit
  | .track => (⟨some n.clock, ()⟩, { n with tracker := n.tracker.track }.publish, c)
  | .negotiate magic limit =>
    match n.converse c.line (Handshake.negotiation magic) with
    | (some outcome, n) => (c.cutShort (some n.clock) outcome, n, c)
    | (none, n) =>
      (c.cutShort (some (n.clock + limit.millis)) (.error .handshakeTimeout), n, c)
  | .converse conversation =>
    match n.converse c.line conversation.exchange with
    | (some outcome, n) => (c.cutShort (some n.clock) outcome, n, c)
    | (none, n) => (⟨c.deadline, none⟩, n, c)
  | .hangUp =>
    let n := n.updateLine c.line Line.hangUp
    (c.cutShort (some n.clock) (), { n with tracker := n.tracker.untrack }.publish, c)
  | .pause nanos => (⟨some (n.clock + (Duration.covering nanos).millis), ()⟩, n, c)
  | .draw greatest => (⟨some n.clock, ⟨0, greatest.succ_pos⟩⟩, n, c)
  | .note m => (⟨some n.clock, ()⟩, { n with metrics := n.metrics.note m }, c)

/-- Questions that make others wait their turn. -/
def isWait : Link.Query → Bool
  | .awaitGate | .connect _ _ | .negotiate _ _ | .converse _ | .pause _ => true
  | _ => false

/-- A call goes on until it waits for something or ends. -/
def advance (n : Network) (c : Caller σ α) : Run Link σ (Except NodeError α) → Network × Caller σ α
  | .done memory value => (n, { c with next := .done memory value, time := none })
  | .wait _ query resume =>
    match c.ask n query with
    | (due, n, c) =>
      if isWait query then (n, { c with next := resume due.answer, time := due.time })
      else advance n c (resume due.answer)

/-- A call goes on if its time has come. -/
def turn (n : Network) (c : Caller σ α) : Network × Caller σ α :=
  if c.time.any (· ≤ n.clock) then c.advance n c.next else (n, c)

/-- The outcome of a call that has ended. -/
def outcome? (c : Caller σ α) : Option (Except NodeError α) :=
  match c.time, c.next with
  | none, .done _ outcome => some outcome
  | _, _ => none

/-- All calls take a turn, one after the other. -/
def turnAll (n : Network) : List (Caller σ α) → Network × List (Caller σ α)
  | [] => (n, [])
  | c :: rest =>
    let (n, c) := c.turn n
    let (n, rest) := turnAll n rest
    (n, c :: rest)

/-- The next time at which a call goes on. -/
def nextTime (callers : List (Caller σ α)) : Option Nat := (callers.filterMap Caller.time).min?

/-- The greatest number of turns that are taken. -/
def turnLimit : Nat := 10000000

/-- Lets calls take turns until all have ended or wait for ever. -/
def runAll : (turns : Nat) → Network → List (Caller σ α) → Network × List (Caller σ α)
  | 0, n, callers => (n, callers)
  | turns + 1, n, callers =>
    match nextTime callers with
    | some time =>
      let (n, callers) := turnAll { n with clock := max n.clock time } callers
      runAll turns n callers
    | none => (n, callers)

end Caller

namespace Network

variable {σ α : Type}

/-- Carries out calls at once, all with the same memory to begin with. -/
def carryOut (n : Network) (memory : σ) (calls : List (Attempt σ α)) :
    Network × List (Option (Except NodeError α)) :=
  let callers := calls.map fun call =>
    { next := call.start memory, time := some n.clock : Caller σ α }
  let (n, callers) := Caller.runAll Caller.turnLimit n callers
  (n, callers.map Caller.outcome?)

/-- Carries out a single call; `none` if it waits for ever. -/
def carryOutOne (n : Network) (memory : σ) (call : Attempt σ α) :
    Network × Option (Except NodeError α) :=
  let (n, outcomes) := n.carryOut memory [call]
  (n, outcomes.head?.join)

end Network

end BlockFeed.Simulation
