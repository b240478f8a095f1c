import BlockFeed.Metrics.Exposition
import BlockFeed.Scenario.Failures
import BlockFeed.Scenario.Values
import BlockFeed.Simulation.World

/-!
# The surroundings in scenarios

A step of a scenario names what it does. The steps of this module change the surroundings of the
feed, or show them; they stand before and between the steps of the part that is rehearsed.
-/

namespace BlockFeed.Scenario

open BlockFeed.Simulation (World ScriptEntry ScriptedNode)

/-- The steps of a list, each as often as it says. -/
def steps? (j : Json) : Option (List Json) := do
  let repeated ← j.items.mapM fun step => do
    return List.replicate (← (step.get "times").orDefault? Json.toNat? 1) step
  return repeated.flatten

/-- How one call to the node goes. -/
def scriptEntry? (j : Json) : Option ScriptEntry := do
  let tips ← (j.get "tips").optional? fun tips => tips.list? tip?
  let rolledBackTo ← (j.get "rolled_back_to").optional? point?
  return {
    hang := (j.get "hang").isTrue
    error := ← (j.get "error").optional? nodeError?
    header := ← (j.get "header").optional? tip?
    next := if tips.isNone && rolledBackTo.isNone then none else some ⟨tips.getD [], rolledBackTo⟩
    found := ← (j.get "found").optional? point? }

/-- The sample blocks of a list of tips. -/
def blocks? (j : Json) : Option (List Block) := return (← j.list? tip?).map Block.sample

/-- The blocks of a chain: all sample blocks up to a height, or those of a list of tips. -/
def chain? (j : Json) : Option (List Block) :=
  let height := j.get "height"
  if height.isNull then blocks? (j.get "tips")
  else return ScriptedNode.sampleChain (← height.toWord?)

/-- How long something is cached. -/
def lifetime? (j : Json) : Option Duration := (j.get "ttl_ms").orDefault? duration? ⟨3600000⟩

/-- Tips to be cached: a list, then all sample tips from a height to another. -/
def tipsToCache? (j : Json) : Option (List Tip) := do
  let tips ← (j.get "tips").list? tip?
  if (j.get "from").isNull then return tips
  let heights := Window.heightsBetween (← (j.get "from").toWord?) (← (j.get "to").toWord?)
  return tips ++ heights.map (Tip.sample · 0)

/-- The hint service says something. -/
def setHints? (w : World) (j : Json) : Option World := do
  let matched ← (j.get "matched").list? Json.toWord?
  let lastConfirmed ← wordOr? 0 (j.get "last_confirmed")
  return { w with hints := ⟨⟨matched, lastConfirmed⟩, (j.get "unavailable").isTrue⟩ }

/-- Blocks, each by its height and its body. -/
def blocksJson (blocks : List Block) : Json :=
  .array (blocks.map fun b => .array [.ofWord b.height, b.body.toJson])

/-- What became of an offer of blocks. -/
def offerJson : Outbox.Offer → Json
  | .accepted => .okay
  | .full _ => .pending
  | .refused e => e.toJson

/-- The observed heights. -/
def heightsFields (w : World) : List (String × Json) :=
  [("best", .ofWord w.heights.best), ("finalized", .ofWord w.heights.finalized)]

/-- What becomes of a step on which a number may leave its range, with its answer. -/
def checkedStep (w : World) : Except Overflow World → Json × World
  | .ok changed => (.empty, changed)
  | .error _ => (Overflow.toJson, w)

/-- A step that changes or shows the surroundings, with its answer. -/
def surroundingsStep? (w : World) (j : Json) : Option (Json × World) := do
  match ← (j.get "do").toText? with
  | "set_best" =>
    let best ← (j.get "height").toWord?
    return (.empty, { w with heights := { w.heights with best } })
  | "set_finalized" =>
    let finalized ← (j.get "height").toWord?
    return (.empty, { w with heights := { w.heights with finalized } })
  | "heights" =>
    let latest := [false, true].map fun final => Json.ofWord (w.heights.latest final)
    return (.object (heightsFields w ++ [("latest", .array latest)]), w)
  | "chain" =>
    let chain ← chain? j
    return (.empty, { w with node := { w.node with chain } })
  | "fork_above" =>
    let fork ← wordOr? 255 (j.get "fork")
    let height ← (j.get "height").toWord?
    return (.empty, { w with node := w.node.forkAbove height fork.toUInt8 })
  | "script" =>
    let entries ← (j.get "answers").list? scriptEntry?
    return (.empty, { w with node := { w.node with script := w.node.script ++ entries } })
  | "cache_tips" =>
    let lifetime ← lifetime? j
    return checkedStep w ((← tipsToCache? j).foldlM (World.cacheTip lifetime) w)
  | "cache_start" =>
    let lifetime ← lifetime? j
    return checkedStep w (w.cacheCursor lifetime (← tip? (j.get "tip")))
  | "cache_set" =>
    let cache := w.cache.set w.clock (← (j.get "key").toText?) (← (j.get "text").toText?) none
    return checkedStep w (cache.map fun cache => { w with cache })
  | "cache_get" =>
    let (text, cache) := w.cache.get w.clock (← (j.get "key").toText?)
    return (.object [("value", .ofOption .string text)], { w with cache })
  | "cache_len" =>
    let (size, cache) := w.cache.size w.clock
    return (.object [("len", .ofNat size)], { w with cache })
  | "faults" =>
    let unreadable ← (j.get "get").list? Json.toText?
    let unwritable ← (j.get "set").list? Json.toText?
    return (.empty, { w with unreadable, unwritable })
  | "hints" => return (.empty, ← setHints? w j)
  | "sleep" => return (.empty, w.sleep (← (j.get "ms").toNat?))
  | "drain" =>
    let (blocks, w) := w.drain (← (j.get "max").optional? Json.toNat?)
    return (.object [("received", .ofOption blocksJson blocks)], w)
  | "close_consumer" => return (.empty, { w with outbox := w.outbox.disconnect })
  | "enqueue" =>
    let blocks ← blocks? (j.get "blocks")
    let (offer, outbox) := w.outbox.enqueue blocks (← (j.get "buffered").toWord?)
    return (offerJson offer, { w with outbox })
  | "metrics" => return (.object [("metrics", .ofTexts w.metrics.stableLines)], w)
  | _ => none

/-- Steps whose answers do not matter. -/
def prepare? (w : World) (steps : List Json) : Option World :=
  steps.foldlM (fun w step => do return (← surroundingsStep? w step).2) w

/-- The world at the beginning of a scenario. -/
def world? (j : Json) : Option World := do
  let latency ← (j.get "latency_ms").orDefault? Json.toNat? 0
  let outbox := Outbox.new (← (j.get "capacity").orDefault? Json.toNat? 10)
  let w : World := { outbox, node := { latency } }
  let w ← if (j.get "hints").isNull then some w else setHints? w (j.get "hints")
  prepare? w (← steps? (j.get "setup"))

/-- A question to the node or the hint service. -/
def queryJson : Surroundings.Query → List Json
  | .tipHeader => [.string "header"]
  | .fetchBlock p => [.string "fetch", p.toTextJson]
  | .pointsAfter p n => [.string "next", p.toTextJson, .ofWord n]
  | .findIntersect p => [.string "intersect", p.toTextJson]
  | .hints first last => [.string "hint", .ofWord first, .ofWord last]
  | _ => []

/-- What has been asked since the last time, with times or without. -/
def takeLog (w : World) (timed : Bool) : Json × World :=
  let (log, w) := w.takeLog
  let entry (time : Nat) (query : Surroundings.Query) : Json :=
    .array (if timed then .ofNat time :: queryJson query else queryJson query)
  (.array (log.map fun (time, query) => entry time query), w)

end BlockFeed.Scenario
