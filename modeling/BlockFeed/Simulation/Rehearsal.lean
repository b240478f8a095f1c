import BlockFeed.Feed
import BlockFeed.Simulation.Schedule

/-!
# Rehearsals of the feed

The whole feed runs against a node that is made up, and its consumer takes every block as soon as it
is handed on. A rehearsal ends when the consumer has a block of some height; the feed is then told to
stop.
-/

namespace BlockFeed.Simulation

/-- The jobs of the feed. A poller without a period does not run. -/
def feedJobs (feed : Feed) : List Job :=
  let pollers := [feed.best, feed.finalized].filter Poller.isSound
  pollers.map (fun p => .poller (.startPoller p)) ++
    [.walker (.start (Service.walker feed.walker) (Walker.new feed.walker)),
      .fetcher (.start (Service.fetcher feed.fetch) feed.bypass)]

/-- A feed that is being rehearsed. -/
structure Rehearsal where
  world : World
  jobs : List Job
  /-- What the consumer has taken, in order. -/
  received : List Block := []

namespace Rehearsal

/-- A node that fails for a number of calls before it answers. -/
def nodeFailingFirst (failures : Nat) (error : NodeError) (chain : List Block) : ScriptedNode :=
  { chain, script := List.replicate failures { error := some error } }

/-- The beginning of a rehearsal. -/
def start (feed : Feed) (node : ScriptedNode) : Rehearsal :=
  { world := { outbox := Outbox.new Feed.queueCapacity, node }, jobs := feedJobs feed }

/-- The consumer has a block of at least a height. -/
def hasReached (height : UInt64) (r : Rehearsal) : Bool := r.received.any (height ≤ ·.height)

/-- The feed goes on as far as it can at the moment, and the consumer takes what there is. -/
def settle (r : Rehearsal) : Rehearsal :=
  let (world, jobs) := Job.settleAll r.world r.jobs
  let (blocks, world) := world.drain none
  { world, jobs, received := r.received ++ blocks.getD [] }

/-- The clock moves to the next time at which something is due, unless a block has just been taken:
there may be room for others then. -/
def wait (before : Nat) (r : Rehearsal) : Rehearsal :=
  if before < r.received.length then r
  else
    match Job.nextTime r.jobs with
    | some time => { r with world := { r.world with clock := max time (r.world.clock + 1) } }
    | none => r

/-- Runs the feed until the consumer has a block of at least a height. -/
def runUntil (height : UInt64) : (steps : Nat) → Rehearsal → Rehearsal
  | 0, r => r
  | steps + 1, r =>
    let next := r.settle
    if next.hasReached height then next else runUntil height steps (next.wait r.received.length)

/-- Tells the feed to stop; whether it has. -/
def stop (steps : Nat) (r : Rehearsal) : Bool :=
  (Job.windDown steps r.world r.jobs).2.all Job.hasEnded

/-- What has been received up to the first block of at least a height. -/
def receivedUntil (height : UInt64) : List Block → List Block
  | [] => []
  | block :: rest =>
    if height ≤ block.height then [block] else block :: receivedUntil height rest

end Rehearsal

end BlockFeed.Simulation
