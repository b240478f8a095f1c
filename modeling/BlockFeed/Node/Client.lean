import BlockFeed.Node.Retry

/-!
# Calls to a node

Every attempt at a call opens a connection of its own and ends it, whatever happens: when the
negotiation or the conversation fails, and when the time limit of the attempt passes while it waits.
Asking for the last header takes two connections, one after the other: the first tells which block
is the last one, the second brings that block.

Connections are opened one at a time. Whoever finds the gate closed tries again after a while, and
forces it after too many tries.
-/

namespace BlockFeed

/-- The address of a node, without the scheme that may stand before it. -/
def NodeSettings.address (s : NodeSettings) : String :=
  if s.endpoint.startsWith "tcp://" then (s.endpoint.drop 6).toString else s.endpoint

namespace Attempt

variable {σ α : Type}

/-- How often the gate is tried before it is forced. -/
def gateTries : Nat := 40

/-- The time between two tries of the gate. -/
def gatePoll : Duration := ⟨25⟩

/-- Passes the gate, by force after a number of tries. -/
def enterGate (limit : Duration) : (tries : Nat) → Attempt σ Unit
  | 0 => tell .forceGate
  | tries + 1 => do
    let answer ← tell .tryGate
    match (answer : Bool) with
    | true => return ()
    | false =>
      let waited ← tell .awaitGate
      within limit waited
      enterGate limit tries

/-- Work inside the gate, which is left however the work ends. -/
def insideGate (limit : Duration) (work : Attempt σ α) : Attempt σ α := do
  enterGate limit gateTries
  let outcome ← work.outcome
  tell .leaveGate
  Routine.ofExcept id outcome

/-- Reaches the node. -/
def reach (s : NodeSettings) : Attempt σ Unit := do
  let answer ← tell (.connect s.address s.connectTimeout)
  match ← within s.callTimeout answer with
  | .connected => tell .track
  | .failed =>
    note (.connectionAttempt "connect_failed")
    Routine.fail (.connection (.connect s.endpoint))
  | .timedOut =>
    note (.connectionAttempt "connect_timeout")
    Routine.fail (.connection (.connectTimeout s.endpoint))

/-- Ends the connection. -/
def hangUp (s : NodeSettings) : Attempt σ Unit := do
  let ended ← tell .hangUp
  within s.callTimeout ended

/-- Ends the connection and fails. -/
def giveUp (s : NodeSettings) (error : NodeError) : Attempt σ α := do
  hangUp s
  Routine.fail error

/-- Opens a connection, of whose version both ends agree. -/
def openConnection (s : NodeSettings) : Attempt σ UInt64 := do
  let answer ← insideGate s.callTimeout do
    reach s
    tell (.negotiate s.networkMagic s.handshakeTimeout)
  match (answer : Option (Except ConnectionError UInt64)) with
  | none => giveUp s (.timeout s.callTimeout)
  | some (.ok version) =>
    note (.connectionAttempt "ok")
    return version
  | some (.error e) =>
    note (.connectionAttempt "handshake_failed")
    giveUp s (.connection e)

/-- Opens a connection for one conversation. -/
def converse (s : NodeSettings) (c : Conversation) : Attempt σ c.Result := do
  let _ ← openConnection s
  let answer ← tell (.converse c)
  hangUp s
  let outcome ← within s.callTimeout answer
  Routine.ofExcept id outcome

/-- What a node has, or a failure that names what it does not have. -/
def orMissing (missing : Missing) : Option α → Attempt σ α
  | some value => Routine.pure value
  | none => Routine.fail (.notFound missing)

/-- Fetches the block at a point. -/
def fetchBlock (s : NodeSettings) (point : Point) : Attempt σ Bytes := do
  let found ← converse s (.fetchBlock point)
  orMissing (.block point) found

/-- Fetches the blocks between two points. -/
def fetchBlocks (s : NodeSettings) (first last : Point) : Attempt σ (List Bytes) := do
  let found ← converse s (.fetchBlocks first last)
  orMissing (.blocks first last) found

/-- Fetches the header of the node's last block. -/
def tipHeader (s : NodeSettings) : Attempt σ Header := do
  let tip : Tip ← converse s .readTip
  if tip.point.isOrigin then Routine.fail (.notFound .anyBlock)
  else
    let body ← fetchBlock s tip.point
    Routine.ofExcept (fun e => .protocol (.header e)) (Header.ofBlock body)

end Attempt

/-- What is asked of a node. -/
inductive NodeCall where
  /-- The header of the last block. -/
  | tipHeader
  | block (point : Point)
  | blocks (first last : Point)
  /-- The tips after the origin, up to a number of them. -/
  | nextPoints (limit : UInt64)
  /-- The tips after a point, up to a number of them. -/
  | pointsAfter (start : Point) (limit : UInt64)
  /-- Whether a point is on the node's chain. -/
  | intersection (point : Point)

namespace NodeCall

/-- What a call yields. -/
def Result : NodeCall → Type
  | .tipHeader => Header
  | .block _ => Bytes
  | .blocks _ _ => List Bytes
  | .nextPoints _ | .pointsAfter _ _ => NextPoints
  | .intersection _ => Intersection

/-- The name under which a call is counted. -/
def operation : NodeCall → String
  | .tipHeader => "get_header"
  | .block _ => "fetch_block_by_point"
  | .blocks _ _ => "fetch_blocks_by_range"
  | .nextPoints _ => "request_next_points"
  | .pointsAfter _ _ => "request_next_from_start"
  | .intersection _ => "find_intersect"

variable {σ : Type}

/-- One attempt at a call. -/
def attempt (s : NodeSettings) : (call : NodeCall) → Attempt σ call.Result
  | .tipHeader => Attempt.tipHeader s
  | .block point => Attempt.fetchBlock s point
  | .blocks first last => Attempt.fetchBlocks s first last
  | .nextPoints limit => Attempt.converse s (.walkForward none limit)
  | .pointsAfter start limit => Attempt.converse s (.walkForward (some start) limit)
  | .intersection point => Attempt.converse s (.findIntersect point)

/-- One attempt at a call, within its time limit. -/
def limitedAttempt (s : NodeSettings) (call : NodeCall) : Attempt σ call.Result := do
  Attempt.tell (.beginAttempt s.callTimeout)
  call.attempt s

/-- A call: attempts until one succeeds or no more are due. -/
def run (s : NodeSettings) (call : NodeCall) : Attempt σ call.Result :=
  s.retryPolicy.run call.operation (call.limitedAttempt s)

end NodeCall

end BlockFeed
