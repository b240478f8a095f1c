import BlockFeed.Heights
import BlockFeed.Outbox
import BlockFeed.Surroundings

/-!
# What the parts of the feed share

Poller, walker and fetcher meet in a few shared values: the observed heights, the point cache, the
queue to the consumer, and the metrics. Questions about these are answered at once, but for a block
that finds no room in the queue. Questions to the node and to a hint service are not answered here.
-/

namespace BlockFeed

/-- What the parts of the feed share. -/
structure FeedState where
  heights : ChainHeights := {}
  cache : PointCache := {}
  outbox : Outbox
  metrics : Metrics := {}
  deriving Inhabited

/-- What the shared values say to a question. -/
inductive FeedState.Reply (query : Surroundings.Query) where
  | answered (answer : query.Answer)
  /-- The queue has no room. -/
  | noRoom
  /-- The question is for somebody else. -/
  | elsewhere

namespace FeedState

/-- Lets a block enter the queue if there is room. -/
def send (s : FeedState) (block : Block) : Reply (.send block) × FeedState :=
  if !s.outbox.connected then (.answered false, s)
  else if s.outbox.freeSlots = 0 then (.noRoom, s)
  else (.answered true, { s with outbox := s.outbox.push block })

/-- Answers a question at a time. -/
def reply (now : Nat) (s : FeedState) : (query : Surroundings.Query) → Reply query × FeedState
  | .bestHeight => (.answered s.heights.best, s)
  | .finalizedHeight => (.answered s.heights.finalized, s)
  | .publishBest h => (.answered (), { s with heights := { s.heights with best := h } })
  | .publishFinalized h => (.answered (), { s with heights := { s.heights with finalized := h } })
  | .readCache key =>
    let (text, cache) := s.cache.get now key
    (.answered (.ok text), { s with cache })
  | .writeCache key text lifetime =>
    match s.cache.set now key text (some lifetime) with
    | .ok cache => (.answered (.ok ()), { s with cache })
    | .error _ => (.answered (.error .overflow), s)
  | .freeSlots => (.answered s.outbox.freeSlots, s)
  | .buffered => (.answered s.outbox.buffered, s)
  | .send block => s.send block
  | .commit h => (.answered (), { s with outbox := s.outbox.commit h })
  | .now => (.answered now, s)
  | .note m => (.answered (), { s with metrics := s.metrics.note m })
  | .tipHeader | .fetchBlock _ | .pointsAfter _ _ | .findIntersect _ | .hints _ _ => (.elsewhere, s)

/-- The consumer takes blocks, up to a number of them; `none` if there is no consumer. -/
def drain (s : FeedState) (limit : Option Nat) : Option (List Block) × FeedState :=
  let (blocks, outbox) := s.outbox.receive limit
  (if s.outbox.connected then some blocks else none, { s with outbox })

end FeedState

end BlockFeed
