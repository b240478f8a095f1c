import BlockFeed.FeedState
import BlockFeed.Simulation.ScriptedNode

/-!
# A world for rehearsals

The surroundings of the feed as plain data under a clock of their own. All questions are answered at
once but two kinds: calls to the node take their time, and a block waits for room in the queue.
-/

namespace BlockFeed.Simulation

/-- What the hint service says. -/
structure HintSource where
  reply : HintReply := ⟨[], 0⟩
  unavailable : Bool := false
  deriving Inhabited

/-- The surroundings of the feed. -/
structure World extends FeedState where
  /-- The time in milliseconds. -/
  clock : Nat := 0
  node : ScriptedNode := {}
  hints : HintSource := {}
  /-- Keys that cannot be read. -/
  unreadable : List String := []
  /-- Keys that cannot be written. -/
  unwritable : List String := []
  /-- What the node and the hint service have been asked, and when, the latest first. -/
  log : List (Nat × Surroundings.Query) := []
  deriving Inhabited

/-- The first reaction of the world to a question. -/
inductive Response (query : Surroundings.Query) where
  | answered (answer : query.Answer)
  /-- The node has been called and will answer later. -/
  | called
  /-- The queue has no room. -/
  | noRoom

namespace World

/-- Takes down that something was asked. -/
def record (w : World) (query : Surroundings.Query) : World :=
  { w with log := (w.clock, query) :: w.log }

/-- The failure that is provoked by a question, if any. -/
def fault? (w : World) : (query : Surroundings.Query) → Option query.Answer
  | .readCache key =>
    if w.unreadable.contains key then
      some (.error (.store ("reading " ++ key ++ ": injected get failure")))
    else none
  | .writeCache key _ _ =>
    if w.unwritable.contains key then some (.error (.failed (.store "injected set failure"))) else none
  | _ => none

/-- The first reaction to a question that the shared values do not answer. -/
def reactElsewhere (w : World) : (query : Surroundings.Query) → Response query × World
  | .hints first last =>
    let answer := if w.hints.unavailable then none else some w.hints.reply
    (.answered answer, w.record (.hints first last))
  | query => (.called, w.record query)

/-- The first reaction to a question. -/
def react (w : World) (query : Surroundings.Query) : Response query × World :=
  match w.fault? query with
  | some answer => (.answered answer, w)
  | none =>
    match w.toFeedState.reply w.clock query with
    | (.answered answer, state) => (.answered answer, { w with toFeedState := state })
    | (.noRoom, _) => (.noRoom, w)
    | (.elsewhere, _) => w.reactElsewhere query

/-- An answer of the node. -/
def fromNode {α : Type} (w : World) (replace : ScriptEntry → Option α)
    (default : ScriptedNode → Except NodeError α) : Option (Except NodeError α) × World :=
  let (answer, node) := w.node.respond replace default
  (answer, { w with node })

/-- The answer of the node to a call; `none` if there never is one. -/
def finishCall (w : World) : (query : Surroundings.Query) → Option query.Answer × World
  | .tipHeader =>
    w.fromNode (fun e => e.header.map ScriptedNode.headerOf)
      fun n => .ok (ScriptedNode.headerOf n.lastTip)
  | .fetchBlock p => w.fromNode (fun _ => none) fun n => n.body p
  | .pointsAfter p limit => w.fromNode (·.next) fun n => .ok (n.nextPoints p limit)
  | .findIntersect p =>
    let found (e : ScriptEntry) : Option Intersection :=
      e.found.map fun point => .found point w.node.lastTip
    w.fromNode found fun n => .ok (n.intersection p)
  | _ => (none, w)

/-- Time passes. -/
def sleep (w : World) (millis : Nat) : World := { w with clock := w.clock + millis }

/-- Caches the tip of a height. -/
def cacheTip (lifetime : Duration) (w : World) (tip : Tip) : Except Overflow World := do
  return { w with cache := ← w.cache.setTip w.clock tip lifetime }

/-- Caches the resume cursor. -/
def cacheCursor (lifetime : Duration) (w : World) (tip : Tip) : Except Overflow World := do
  return { w with cache := ← w.cache.setCursor w.clock tip lifetime }

/-- The cached resume cursor. -/
def cachedCursor (w : World) : Option Tip :=
  ((w.cache.getCursor w.clock).1.toOption).join

/-- The consumer takes blocks, up to a number of them; `none` if there is no consumer. -/
def drain (w : World) (limit : Option Nat) : Option (List Block) × World :=
  let (blocks, state) := w.toFeedState.drain limit
  (blocks, { w with toFeedState := state })

/-- What has been asked since the log was last taken, the earliest first. -/
def takeLog (w : World) : List (Nat × Surroundings.Query) × World :=
  (w.log.reverse, { w with log := [] })

end World

end BlockFeed.Simulation
