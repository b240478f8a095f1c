import BlockFeed.Metrics.Exposition
import BlockFeed.Scenario.Failures
import BlockFeed.Scenario.Messages
import BlockFeed.Simulation.Network

/-!
# Calls in scenarios

A scenario of calls says how the node is called, how connects end and what the peers do, and then
which calls are made. Every call is answered by its value or its failure. In the end it is shown what
each peer has heard, and what has been counted.
-/

namespace BlockFeed.Scenario

open BlockFeed.Simulation (PeerStep Greeting Network Line)

/-- One step of a peer. -/
def peerStep? (j : Json) : Option PeerStep :=
  if (j.get "close").isTrue then some .close
  else if (j.get "recv").isNull then
    return .send (← protocol? (j.get "send")) (← bytes? (j.get "bytes"))
  else return .receive (← protocol? (j.get "recv"))

/-- How a connect ends: badly, as its only step says, or with a peer that has a script. -/
def greeting? (j : Json) : Option Greeting :=
  match j.items.filterMap fun step => (step.get "connect").toText? with
  | ["refuse"] => some .refuse
  | ["hang"] => some .hang
  | [] => return .accept (← j.items.mapM peerStep?)
  | _ => none

/-- What a peer has heard. -/
def heardJson (l : Line) : Json :=
  .array (l.heard.reverse.map fun (protocol, message) =>
    .array [.string protocol.name, .ofOption Bytes.toJson message])

/-- A call. -/
def call? (j : Json) : Option NodeCall := do
  match ← (j.get "call").toText? with
  | "get_header" => return .tipHeader
  | "fetch_block_by_point" => return .block (← point? (j.get "point"))
  | "fetch_blocks_by_range" => return .blocks (← point? (j.get "from")) (← point? (j.get "to"))
  | "request_next_points" => return .nextPoints (← (j.get "batch_size").toWord?)
  | "request_next_from_start" =>
    return .pointsAfter (← point? (j.get "point")) (← (j.get "batch_size").toWord?)
  | "find_intersect" => return .intersection (← point? (j.get "point"))
  | _ => none

/-- Whether the node has a point in common. -/
def intersectionJson : Intersection → Json
  | .found point tip => .object [("found", point.toTextJson), ("tip", tip.toTextJson)]
  | .notFound tip => .object [("not_found", .bool true), ("tip", tip.toTextJson)]

/-- The tips a walk has passed. -/
def nextPointsJson (p : NextPoints) : Json :=
  .object [("tips", .array (p.tips.map Tip.toTextJson)),
    ("rolled_back_to", .ofOption Point.toTextJson p.rolledBackTo)]

/-- What a call has yielded. -/
def resultJson : (call : NodeCall) → call.Result → Json
  | .tipHeader, header => .object (Header.toFields header)
  | .block _, body => .object [("block", Bytes.toJson body)]
  | .blocks _ _, (bodies : List Bytes) => .object [("blocks", .array (bodies.map Bytes.toJson))]
  | .nextPoints _, points => nextPointsJson points
  | .pointsAfter _ _, points => nextPointsJson points
  | .intersection _, found => intersectionJson found

/-- A call with its answer. -/
def answered (s : NodeSettings) (call : NodeCall) : Attempt Unit Json := do
  let result ← call.run s
  return resultJson call result

/-- The answer to a call that may have failed. -/
def outcomeJson : Option (Except NodeError Json) → Json
  | some (.ok value) => value
  | some (.error e) => e.toJson
  | none => .pending

/-- The lines about connections and calls. -/
def callMetrics (m : Metrics) : Json :=
  let starts := ["feed_open", "feed_connection", "feed_node_call"]
  .ofTexts (m.stableLines.filter fun line => starts.any fun start => line.startsWith start)

end BlockFeed.Scenario
