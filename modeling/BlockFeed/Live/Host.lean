import BlockFeed.Feed
import BlockFeed.FeedState
import BlockFeed.Live.Bearer

/-!
# Running the feed

The services of the feed run side by side, each in a task of its own, and meet in the shared values.
When the program is told to stop, a service ends where it is, but for repairs, which are finished
first.
-/

namespace BlockFeed.Live

/-- What the running services share. -/
structure Host where
  node : NodeSettings
  state : IO.Ref FeedState
  tracker : IO.Ref Tracker
  stopping : Std.CancellationToken

namespace Host

/-- A host that begins. -/
def start (feed : Feed) : IO Host := do
  return {
    node := feed.node
    state := ← IO.mkRef { outbox := Outbox.new Feed.queueCapacity }
    tracker := ← IO.mkRef {}
    stopping := ← Std.CancellationToken.new }

/-- Takes a measurement down. -/
def note (h : Host) (m : Measurement) : IO Unit :=
  h.state.modify fun s => { s with metrics := s.metrics.note m }

/-- Calls the node; `none` if the call is abandoned. -/
def call (h : Host) (p : Patience) (c : NodeCall) : IO (Option (Except NodeError c.Result)) :=
  let session : Session := { tracker := h.tracker, note := h.note, patience := p }
  session.carryOut ((c.run h.node).start ())

/-- The time between two looks at a queue without room or without blocks. -/
def queuePoll : Nat := 5

/-- The answer to a question that the shared values do not answer; `none` if the work is abandoned.
There is no hint service. -/
def answerElsewhere (h : Host) (p : Patience) : (query : Surroundings.Query) → IO (Option query.Answer)
  | .tipHeader => h.call p .tipHeader
  | .fetchBlock point => h.call p (.block point)
  | .pointsAfter start limit => h.call p (.pointsAfter start limit)
  | .findIntersect point => h.call p (.intersection point)
  | .hints _ _ => return some none
  | _ => return none

/-- The answer to a question; `none` if the work is abandoned meanwhile. -/
partial def answer (h : Host) (p : Patience) (query : Surroundings.Query) :
    IO (Option query.Answer) := do
  let now ← IO.monoMsNow
  match ← h.state.modifyGet fun s => s.reply now query with
  | .answered given => return some given
  | .elsewhere => h.answerElsewhere p query
  | .noRoom =>
    if ← p.sleepUntil (now + queuePoll) then h.answer p query else return none

/-- Lets work go on until it has ended or is abandoned; the memory it leaves is returned. -/
def work {σ α : Type} (h : Host) (p : Patience) : Run Surroundings σ α → IO (σ × Option α)
  | .done memory value => return (memory, some value)
  | .wait memory query resume => do
    if ← p.isOver then return (memory, none)
    match ← h.answer p query with
    | some given => work h p (resume given)
    | none => return (memory, none)

/-- The line that tells of a service that has broken off. -/
def broken : String := "a number left its range"

/-- Runs a service in rounds until it is told to stop. `tick` is the time of the next tick. -/
partial def serve {σ : Type} (h : Host) (service : Service σ) (poller : Option Poller)
    (memory : σ) (tick : Nat) : IO Unit := do
  let heeding : Patience := { stopping := some h.stopping }
  let limit ← service.limit.mapM fun limit => return (← IO.monoMsNow) + limit.millis
  let (memory, next) ← h.work { heeding with roundEnd := limit } (service.round memory)
  if ← h.stopping.isCancelled then return
  match next.getD (service.overrun memory) with
  | .again => h.serve service poller memory tick
  | .pause delay =>
    if ← heeding.sleepUntil ((← IO.monoMsNow) + delay.millis) then
      h.serve service poller memory tick
  | .tick =>
    if ← heeding.sleepUntil tick then
      let now ← IO.monoMsNow
      let tick := match poller with
        | some poller => poller.nextTime tick now
        | none => now
      h.serve service poller memory tick
  | .repair repairs delay =>
    let (memory, repaired) ← h.work { stopping := none } repairs
    if let some (.error _) := repaired then IO.eprintln broken
    else if ← heeding.sleepUntil ((← IO.monoMsNow) + delay.millis) then
      h.serve service poller memory tick
  | .broken => IO.eprintln broken

/-- Polls until it is told to stop; without a period there is nothing to poll by. -/
def servePoller (h : Host) (poller : Poller) : IO Unit := do
  if poller.isSound then
    let now ← IO.monoMsNow
    h.serve (Service.poller poller) (some poller) () (poller.nextTime now now)
  else IO.eprintln ("the " ++ poller.kind.name ++ " height is not polled: the period is zero")

/-- The line that shows a block. -/
def blockLine (b : Block) : String :=
  "block received height=" ++ Numeral.ofNat b.height.toNat ++ " slot="
    ++ Numeral.ofNat b.tip.point.slot.toNat ++ " hash=" ++ b.tip.point.hash.toText ++ " size="
    ++ Numeral.ofNat b.body.length

/-- Shows blocks as they are handed on, until it is told to stop. -/
partial def consume (h : Host) : IO Unit := do
  let blocks ← h.state.modifyGet fun s => s.drain none
  for block in blocks.getD [] do
    IO.println (blockLine block)
  (← IO.getStdout).flush
  let heeding : Patience := { stopping := some h.stopping }
  if ← heeding.sleepUntil ((← IO.monoMsNow) + queuePoll) then h.consume

end Host

end BlockFeed.Live
