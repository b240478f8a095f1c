import BlockFeed.Proofs.Answers
import BlockFeed.Proofs.Chain.TipText
import BlockFeed.Proofs.Fetcher.Iteration
import BlockFeed.Proofs.PointCache

/-!
# The stream of blocks

The fetcher runs iteration after iteration over a queue whose consumer stays there. At any time the
consumer takes blocks, and the observed heights, the cache, the metrics and the room in the queue change
as they like, but that a tip which is cached for a height has that height. The node and the hint service
answer as they like or fail, or an iteration is given up while they do not answer. The cache may fail,
too.

Main statements, for every state that such a run can reach: the blocks that have been handed on ascend
strictly, and none of their heights lies in a bypass range (`stream_of_reachable`); no height is lost
(`accounted_of_reachable`).

The proof keeps one invariant (`Stream.Invariant`): the ledger of the run rests, or the iteration under
way keeps the contract of the fetcher on it.
-/

namespace BlockFeed.Fetcher

open Surroundings (Event)

/-- What the fetcher is doing. -/
inductive Phase where
  /-- No iteration is under way; these bypass ranges are remembered. -/
  | resting (memory : BypassRanges)
  | working (run : Run Surroundings BypassRanges (Except (Abort FetchError) Outcome))

/-- The fetcher in its surroundings, with the blocks that the consumer has received and all that has
been asked. -/
structure Stream where
  shared : FeedState
  received : List Block := []
  phase : Phase
  /-- The events of earlier iterations. -/
  past : List (List Event) := []
  /-- The events of the last iteration. -/
  events : List Event := []

namespace Stream

/-- The blocks that have been handed on, received or not. -/
def delivered (s : Stream) : List Block := s.received ++ s.shared.outbox.queue

/-- The events of all iterations. -/
def iterations (s : Stream) : List (List Event) := s.events :: s.past

/-- A question waits for its answer. -/
def Asks (s : Stream) (query : Surroundings.Query) : Prop :=
  ∃ memory resume, s.phase = .working (.wait memory query resume)

/-- A batch is being handed on. -/
def HandsOn (s : Stream) : Prop := (∃ block, s.Asks (.send block)) ∨ ∃ height, s.Asks (.commit height)

/-- An iteration has ended in a way. -/
def EndsWith (s : Stream) (outcome : Except (Abort FetchError) Outcome) : Prop :=
  ∃ memory, s.phase = .working (.done memory outcome)

/-- The ledger of the run. -/
def ledger (s : Stream) : Ledger := ⟨s.delivered, s.shared.outbox.buffered, s.past, s.events⟩

end Stream

/-- A tip that is cached for a height has that height. -/
def WellNumbered (cache : PointCache) : Prop :=
  ∀ height entry tip, (heightKey height, entry) ∈ cache.entries →
    Tip.ofCacheText? entry.text = some tip → tip.number = height

/-- A step of the run. -/
inductive Step (plan : Plan) : Stream → Stream → Prop
  | begin {s : Stream} {memory : BypassRanges} (h : s.phase = .resting memory) :
      Step plan s { s with
        phase := .working ((iterate plan).start memory), past := s.iterations, events := [] }
  | answer {s : Stream} {memory : BypassRanges} {query : Surroundings.Query}
      {resume : query.Answer → Run Surroundings BypassRanges (Except (Abort FetchError) Outcome)}
      {answer : query.Answer} {shared : FeedState}
      (h : s.phase = .working (.wait memory query resume))
      (hanswer : s.shared.Answers query answer shared) :
      Step plan s { s with
        shared, phase := .working (resume answer), events := ⟨query, answer⟩ :: s.events }
  | finish {s : Stream} {memory : BypassRanges} {outcome : Except (Abort FetchError) Outcome}
      (h : s.phase = .working (.done memory outcome)) : Step plan s { s with phase := .resting memory }
  /-- An iteration is given up while it waits for the node or the hint service. -/
  | abandon {s : Stream} {memory : BypassRanges} {query : Surroundings.Query}
      {resume : query.Answer → Run Surroundings BypassRanges (Except (Abort FetchError) Outcome)}
      (h : s.phase = .working (.wait memory query resume))
      (helsewhere : query.isElsewhere = true) : Step plan s { s with phase := .resting memory }
  | receive {s : Stream} {blocks : List Block} {shared : FeedState} (limit : Option Nat)
      (h : s.shared.drain limit = (some blocks, shared)) :
      Step plan s { s with shared, received := s.received ++ blocks }
  | drift {s : Stream} (heights : ChainHeights) {cache : PointCache} (metrics : Metrics)
      (capacity : Nat) (h : WellNumbered cache) :
      Step plan s { s with shared := {
        heights, cache, metrics, outbox := { s.shared.outbox with capacity } } }

/-- A state that a run can reach which begins with an empty queue of any capacity. -/
inductive Reachable (plan : Plan) (bypass : BypassRanges) : Stream → Prop
  | start {shared : FeedState} (capacity : Nat) (houtbox : shared.outbox = Outbox.new capacity)
      (hcache : WellNumbered shared.cache) :
      Reachable plan bypass { shared, phase := .resting bypass }
  | step {s s' : Stream} (h : Reachable plan bypass s) (hstep : Step plan s s') :
      Reachable plan bypass s'

/-- What every step preserves. -/
structure Stream.Invariant (plan : Plan) (bypass : BypassRanges) (s : Stream) : Prop where
  connected : s.shared.outbox.connected = true
  numbered : WellNumbered s.shared.cache
  phase : match s.phase with
    | .resting memory => s.ledger.Rests plan bypass memory
    | .working run => run.Keeps (contract plan bypass)
        (Routine.ended (fun L memory _ => L.Rests plan bypass memory)
          fun L memory cause => L.Rests plan bypass memory ∧ ¬ IsRefusal cause) s.ledger

section
variable {plan : Plan} {bypass : BypassRanges} {s s' : Stream}

/-! ## Steps -/

/-- A cache with fewer entries is numbered as well. -/
theorem WellNumbered.subset {cache cache' : PointCache} (h : WellNumbered cache)
    (hsub : cache'.entries ⊆ cache.entries) : WellNumbered cache' :=
  fun height entry tip hmem htip => h height entry tip (hsub hmem) htip

/-- What follows an answer to a question that waits. -/
structure Stream.AnswersTo (s : Stream) (query : Surroundings.Query) (answer : query.Answer)
    (shared : FeedState) : Prop where
  permits : s.ledger.Permits query answer
  connected : shared.outbox.connected = true
  numbered : WellNumbered shared.cache
  ledger : (Ledger.mk (s.received ++ shared.outbox.queue) shared.outbox.buffered s.past
    (⟨query, answer⟩ :: s.events)) = s.ledger.after query answer

/-- A block enters the queue, or nothing happens as there is no room for it. -/
theorem Stream.Invariant.answersTo_send {block : Block} {answer : Bool} {shared : FeedState}
    (hinv : s.Invariant plan bypass)
    (h : s.shared.send block = (.answered answer, shared)) : s.AnswersTo (.send block) answer shared := by
  unfold FeedState.send at h
  rw [hinv.connected] at h
  simp only [Bool.not_true, Bool.false_eq_true, if_false] at h
  split at h
  · cases h
  · cases h
    refine ⟨rfl, hinv.connected, hinv.numbered, ?_⟩
    simp [Stream.ledger, Stream.delivered, Ledger.after, Outbox.push]

/-- What is read from the cache is well numbered, and so is what remains there. -/
theorem Stream.Invariant.answersTo_readCache {key : String} {now : Nat}
    (hinv : s.Invariant plan bypass) :
    s.AnswersTo (.readCache key) (.ok (s.shared.cache.get now key).1)
      { s.shared with cache := (s.shared.cache.get now key).2 } where
  permits := by
    rintro height text tip rfl hanswer htip
    obtain ⟨entry, hmem, rfl⟩ := PointCache.exists_mem_of_get (Except.ok.inj hanswer)
    exact hinv.numbered height entry tip hmem htip
  connected := hinv.connected
  numbered := hinv.numbered.subset (PointCache.entries_get_subset now key _)
  ledger := rfl

/-- While the fetcher waits for the node or the hint service the ledger rests. -/
theorem rests_of_elsewhere {query : Surroundings.Query} {L : Ledger} {memory : BypassRanges}
    (helsewhere : query.isElsewhere = true)
    (hallows : (contract plan bypass).allows L memory query) : L.Rests plan bypass memory := by
  cases query with
  | fetchBlock point => exact hallows.1
  | tipHeader | pointsAfter | findIntersect | hints => exact hallows
  | _ => cases helsewhere

/-- However an iteration has ended, the ledger rests. -/
theorem Stream.Invariant.rests_of_done {memory : BypassRanges}
    {outcome : Except (Abort FetchError) Outcome} (hinv : s.Invariant plan bypass)
    (h : s.phase = .working (.done memory outcome)) : s.ledger.Rests plan bypass memory := by
  have hphase := hinv.phase
  rw [h] at hphase
  cases outcome with
  | ok => exact hphase
  | error => exact hphase.1

/-- An answer to a question that the fetcher may ask is as its contract has it. -/
theorem Stream.Invariant.answersTo {query : Surroundings.Query} {answer : query.Answer}
    {shared : FeedState} {memory : BypassRanges} (hinv : s.Invariant plan bypass)
    (hallows : (contract plan bypass).allows s.ledger memory query)
    (h : s.shared.Answers query answer shared) : s.AnswersTo query answer shared := by
  cases h with
  | shared now h =>
    cases query with
    | send block => exact hinv.answersTo_send h
    | readCache key =>
      cases h
      exact hinv.answersTo_readCache
    | buffered =>
      cases h
      exact ⟨rfl, hinv.connected, hinv.numbered, rfl⟩
    | writeCache | publishBest | publishFinalized => exact hallows.elim
    | tipHeader | fetchBlock | pointsAfter | findIntersect | hints => cases h
    | _ =>
      cases h
      exact ⟨trivial, hinv.connected, hinv.numbered, rfl⟩
  | elsewhere _ h =>
    cases query with
    | tipHeader | fetchBlock | pointsAfter | findIntersect | hints =>
      exact ⟨trivial, hinv.connected, hinv.numbered, rfl⟩
    | _ => cases h
  | unreadable key error =>
    -- nothing has been read
    refine ⟨fun _ _ _ _ h => ?_, hinv.connected, hinv.numbered, rfl⟩
    cases h
  | unwritable => exact hallows.elim

/-- The consumer takes blocks from those that have been handed on. -/
theorem delivered_drain {limit : Option Nat} {blocks : List Block} {shared : FeedState}
    (h : s.shared.drain limit = (some blocks, shared)) :
    (s.received ++ blocks) ++ shared.outbox.queue = s.delivered ∧
      shared.outbox.buffered = s.shared.outbox.buffered ∧
      shared.outbox.connected = s.shared.outbox.connected ∧ shared.cache = s.shared.cache := by
  unfold FeedState.drain Outbox.receive at h
  simp only [Prod.mk.injEq, Option.ite_none_right_eq_some, Option.some.injEq] at h
  obtain ⟨⟨-, rfl⟩, rfl⟩ := h
  refine ⟨?_, rfl, rfl, rfl⟩
  simp [Stream.delivered]

/-- The invariant holds at the beginning. -/
theorem Stream.Invariant.start {shared : FeedState} {capacity : Nat}
    (houtbox : shared.outbox = Outbox.new capacity) (hcache : WellNumbered shared.cache) :
    Stream.Invariant plan bypass { shared, phase := .resting bypass } where
  connected := by rw [houtbox]; rfl
  numbered := hcache
  phase := by
    show Ledger.Rests plan bypass ⟨[] ++ shared.outbox.queue, shared.outbox.buffered, [], []⟩ bypass
    rw [houtbox]
    exact Ledger.rests_empty plan bypass

/-- The invariant is kept by every step. -/
theorem Stream.Invariant.step (hinv : s.Invariant plan bypass) (hstep : Step plan s s') :
    s'.Invariant plan bypass := by
  have hphase := hinv.phase
  cases hstep with
  | @begin memory h =>
    rw [h] at hphase
    exact ⟨hinv.connected, hinv.numbered, iterate_finishes hphase.turn⟩
  | @answer memory query resume answer shared h hanswer =>
    rw [h] at hphase
    obtain ⟨hpermits, hconnected, hnumbered, hledger⟩ := hinv.answersTo hphase.allows hanswer
    exact ⟨hconnected, hnumbered, hphase.answer ⟨hpermits, hledger⟩⟩
  | @finish memory outcome h => exact ⟨hinv.connected, hinv.numbered, hinv.rests_of_done h⟩
  | @abandon memory query resume h helsewhere =>
    rw [h] at hphase
    refine ⟨hinv.connected, hinv.numbered, ?_⟩
    exact rests_of_elsewhere helsewhere hphase.allows
  | @receive blocks shared limit h =>
    obtain ⟨hdelivered, hbuffered, hconnected, hcache⟩ := delivered_drain h
    refine ⟨hconnected.trans hinv.connected, by rw [hcache]; exact hinv.numbered, ?_⟩
    -- blocks only move out of the queue, so the ledger does not notice
    have hledger : Stream.ledger { s with shared, received := s.received ++ blocks } = s.ledger := by
      rw [Stream.ledger, Stream.ledger, Stream.delivered, hdelivered, hbuffered]
    show match s.phase with | .resting _ => _ | .working _ => _
    rw [hledger]
    exact hphase
  | drift heights metrics capacity h => exact ⟨hinv.connected, h, hphase⟩

/-- The invariant holds in every state that can be reached. -/
theorem invariant_of_reachable (h : Reachable plan bypass s) : s.Invariant plan bypass := by
  induction h with
  | start capacity houtbox hcache => exact .start houtbox hcache
  | step _ hstep ih => exact ih.step hstep

/-! ## Rehearsed iterations -/

open Simulation (World ScriptedNode proceed proceed_induction exists_done_of_stall)

/-- A cached tip is cached for its height. -/
theorem WellNumbered.insertTip {cache : PointCache} (h : WellNumbered cache) (now : Nat) (tip : Tip)
    (expiresAt : Nat) : WellNumbered (cache.insertTip now tip expiresAt) := by
  intro height entry cached hmem hcached
  rcases PointCache.mem_insert hmem with ⟨hkey, htext⟩ | hmem
  · simp only at hkey htext
    rw [htext, Tip.ofCacheText?_toCacheText] at hcached
    cases hcached
    exact (heightKey_inj.mp hkey).symm
  · exact h height entry cached hmem hcached

/-- What every answer preserves holds of the run in which an iteration is driven to its end through a
world. -/
theorem exists_of_proceed {P : Stream → Prop} {w w' : World} {stall : Option Simulation.Stall}
    {run : Run Surroundings BypassRanges (Except (Abort FetchError) Outcome)} {memory : BypassRanges}
    {outcome : Except (Abort FetchError) Outcome}
    (hanswer : ∀ {s : Stream} {memory : BypassRanges} {query : Surroundings.Query}
      {resume : query.Answer → Run Surroundings BypassRanges (Except (Abort FetchError) Outcome)}
      {answer : query.Answer} {shared : FeedState}, P s → s.phase = .working (.wait memory query resume) →
      s.shared.Answers query answer shared →
      P { s with shared, phase := .working (resume answer), events := ⟨query, answer⟩ :: s.events })
    (h : P s) (hphase : s.phase = .working run) (hshared : s.shared = w.toFeedState)
    (hproceed : proceed w run = (w', .done memory outcome, stall)) :
    ∃ s', P s' ∧ s'.shared = w'.toFeedState ∧ s'.received = s.received ∧
      s'.phase = .working (.done memory outcome) := by
  refine proceed_induction (motive := fun w run => ∃ s', P s' ∧
    s'.shared = w.toFeedState ∧ s'.received = s.received ∧ s'.phase = .working run) ?_ ?_ hproceed
  · rintro w w' memory query resume answer hworld ⟨s', hP, hshared', hreceived, hphase'⟩
    have hanswers : s'.shared.Answers query answer w'.toFeedState := by
      rw [hshared']
      exact .of_world hworld
    exact ⟨_, hanswer hP hphase' hanswers, rfl, hreceived, rfl⟩
  · exact ⟨s, h, hshared, rfl, hphase⟩

/-- An iteration that is driven to its end through a world is one of the run. -/
theorem reachable_of_proceed {w : World} {memory : BypassRanges} (h : Reachable plan bypass s)
    (hphase : s.phase = .resting memory) (hshared : s.shared = w.toFeedState)
    (hstall : (proceed w ((iterate plan).start memory)).2.2 = none) :
    ∃ s', Reachable plan bypass s' ∧
      s'.shared = (proceed w ((iterate plan).start memory)).1.toFeedState ∧
      s'.received = s.received ∧ ∃ outcome, s'.EndsWith outcome := by
  obtain ⟨memory', outcome, hdone⟩ := exists_done_of_stall hstall
  have hproceed : proceed w ((iterate plan).start memory)
      = ((proceed w ((iterate plan).start memory)).1, .done memory' outcome, none) := by
    rw [← hdone, ← hstall]
  obtain ⟨s', hreach, hshared', hreceived, hphase'⟩ := exists_of_proceed
    (fun hreach hphase hanswers => hreach.step (.answer hphase hanswers)) (h.step (.begin hphase)) rfl
    hshared hproceed
  exact ⟨s', hreach, hshared', hreceived, outcome, memory', hphase'⟩

/-- The world that the first iteration leaves, if it is driven to its end, is one of the run. -/
theorem exists_reachable_of_proceed {w : World} {capacity : Nat}
    (houtbox : w.outbox = Outbox.new capacity) (hcache : WellNumbered w.cache)
    (hstall : (proceed w ((iterate plan).start bypass)).2.2 = none) :
    ∃ s, Reachable plan bypass s ∧ ¬ s.HandsOn ∧
      s.delivered = (proceed w ((iterate plan).start bypass)).1.outbox.queue ∧
      s.shared.outbox.buffered = (proceed w ((iterate plan).start bypass)).1.outbox.buffered := by
  have hstart : Reachable plan bypass { shared := w.toFeedState, phase := .resting bypass } :=
    .start capacity houtbox hcache
  obtain ⟨s, hreach, hshared, hreceived, outcome, memory, hends⟩ :=
    reachable_of_proceed hstart rfl rfl hstall
  refine ⟨s, hreach, ?_, ?_, ?_⟩
  · rintro (⟨block, memory', resume, h⟩ | ⟨height, memory', resume, h⟩)
    all_goals
      rw [hends] at h
      cases h
  · rw [Stream.delivered, hreceived, hshared]
    rfl
  · rw [hshared]

/-- The tips of the first blocks of a chain of twenty are cached. -/
def sampleWorld (cached : UInt64) (hints : HintReply) : World where
  heights := { best := 20 }
  cache := (ScriptedNode.sampleChain cached).foldl
    (fun cache block => cache.insertTip 0 block.tip 1000) {}
  outbox := .new 8
  node := { chain := ScriptedNode.sampleChain 20 }
  hints := { reply := hints }

theorem wellNumbered_sampleWorld (cached : UInt64) (hints : HintReply) :
    WellNumbered (sampleWorld cached hints).cache := by
  have hcache : ∀ (blocks : List Block) (cache : PointCache), WellNumbered cache → WellNumbered
      (blocks.foldl (fun cache block => cache.insertTip 0 block.tip 1000) cache) := by
    intro blocks
    induction blocks with
    | nil => exact fun cache h => h
    | cons block rest ih => exact fun cache h => ih _ (h.insertTip 0 block.tip _)
  exact hcache _ {} fun _ _ _ hmem => nomatch hmem

/-! ## What holds of the stream -/

/-- At any moment what has been handed on is in order. -/
theorem Stream.Invariant.orderly (hinv : s.Invariant plan bypass) :
    s.ledger.Orderly plan bypass := by
  have hphase := hinv.phase
  cases h : s.phase with
  | resting memory =>
    rw [h] at hphase
    exact hphase.toOrderly
  | working run =>
    rw [h] at hphase
    cases run with
    | wait memory query resume => exact orderly_of_allows hphase.allows
    | done memory outcome => exact (hinv.rests_of_done h).toOrderly

/-- Unless a batch is being handed on, the ledger rests. -/
theorem Stream.Invariant.rests (hinv : s.Invariant plan bypass) (hquiet : ¬ s.HandsOn) :
    ∃ memory, s.ledger.Rests plan bypass memory := by
  have hphase := hinv.phase
  cases h : s.phase with
  | resting memory =>
    rw [h] at hphase
    exact ⟨memory, hphase⟩
  | working run =>
    rw [h] at hphase
    cases run with
    | wait memory query resume =>
      have hallows := hphase.allows
      cases query with
      | send block => exact absurd (.inl ⟨block, memory, resume, h⟩) hquiet
      | commit height => exact absurd (.inr ⟨height, memory, resume, h⟩) hquiet
      | fetchBlock point => exact ⟨memory, hallows.1⟩
      | writeCache | publishBest | publishFinalized => exact hallows.elim
      | _ => exact ⟨memory, hallows⟩
    | done memory outcome => exact ⟨memory, hinv.rests_of_done h⟩

/-- A block at rest lies at or below the height up to which everything has been handed on. -/
theorem exists_buffered_of_rests {L : Ledger} {memory : BypassRanges}
    (hrests : L.Rests plan bypass memory) {block : Block} (hblock : block ∈ L.delivered) :
    ∃ height, L.buffered = some height ∧ block.height ≤ height := by
  have hsettled := hrests.settled block hblock
  have hstart := UInt64.le_iff_toNat_le.mp (hrests.wanted block hblock).1
  unfold Ledger.next at hsettled
  cases hbuffered : L.buffered with
  | none =>
    rw [hbuffered] at hsettled
    exact absurd hsettled (Nat.not_lt.mpr hstart)
  | some height =>
    rw [hbuffered] at hsettled
    exact ⟨height, rfl, UInt64.le_iff_toNat_le.mpr (Nat.lt_succ_iff.mp hsettled)⟩

/-- The blocks that are handed on ascend strictly from the initial height on, none of them lies in a
bypass range, and once a batch has been handed on all of them lie at or below the height that is then
given out. No block in a bypass range is even asked for, and the queue never refuses a batch. -/
theorem stream_of_reachable (h : Reachable plan bypass s) :
    (s.delivered.map Block.height).Pairwise (· < ·) ∧
      (∀ block ∈ s.delivered,
        plan.settings.initialHeight ≤ block.height ∧ bypass.contains block.height = false) ∧
      (¬ s.HandsOn → ∀ block ∈ s.delivered,
        ∃ height, s.shared.outbox.buffered = some height ∧ block.height ≤ height) ∧
      (∀ point, s.Asks (.fetchBlock point) → ∃ height tip, Read s.events height tip ∧
        tip.number = height ∧ tip.point = point ∧
        plan.settings.initialHeight ≤ height ∧ bypass.contains height = false) ∧
      ∀ error, ¬ s.EndsWith (.error (.failed (.dispatch error))) := by
  have hinv := invariant_of_reachable h
  have hphase := hinv.phase
  refine ⟨hinv.orderly.ascending, hinv.orderly.wanted, fun hquiet block hblock => ?_, ?_, ?_⟩
  · obtain ⟨memory, hrests⟩ := hinv.rests hquiet
    exact exists_buffered_of_rests hrests hblock
  · rintro point ⟨memory, resume, hasks⟩
    rw [hasks] at hphase
    exact hphase.allows.2
  · rintro error ⟨memory, hends⟩
    rw [hends] at hphase
    exact hphase.2 trivial

/-- Of three heights the second lies in a bypass range. -/
theorem stream_of_reachable_bypassed :
    ∃ s, Reachable { settings := { initialHeight := 1, maxBatchSize := 3 } } ⟨[⟨2, 3⟩]⟩ s ∧
      s.delivered.map Block.height = [1, 3] ∧
      ∀ block ∈ s.delivered, ∃ height, s.shared.outbox.buffered = some height ∧
        block.height ≤ height := by
  have hrun : let run := proceed (sampleWorld 3 default) ((iterate
        { settings := { initialHeight := 1, maxBatchSize := 3 } }).start ⟨[⟨2, 3⟩]⟩)
      run.2.2 = none ∧ run.1.outbox.queue.map Block.height = [1, 3] := by decide +kernel
  obtain ⟨s, hreach, hquiet, hdelivered, -⟩ :=
    exists_reachable_of_proceed rfl (wellNumbered_sampleWorld _ _) hrun.1
  refine ⟨s, hreach, ?_, (stream_of_reachable hreach).2.2.1 hquiet⟩
  rw [hdelivered]
  exact hrun.2

/-- No hint has counted: there is no hint service, or it has not confirmed any height that it was asked
about. -/
def Stream.WithoutHints (plan : Plan) (s : Stream) : Prop :=
  plan.hinting = none ∨ ∀ events ∈ s.iterations, ∀ first last reply,
    ⟨.hints first last, some reply⟩ ∈ events → reply.lastConfirmed < first

/-- Without hints nothing is passed over. -/
theorem Stream.WithoutHints.not_passedOver (h : s.WithoutHints plan) :
    ∀ events ∈ s.iterations, ∀ height, ¬ PassedOver plan events height := by
  rintro events hevents height ⟨selection, first, last, latest, reply, hpasses⟩
  rcases h with hnone | hsilent
  · rw [hpasses.hinting] at hnone
    cases hnone
  · have hlow := hsilent events hevents first last reply hpasses.replied
    have hle := UInt64.le_trans hpasses.within.1 hpasses.confirmed
    exact UInt64.not_le.mpr hlow hle

/-- Without hints the blocks are at any moment those of the first heights outside the bypass ranges. -/
theorem Stream.Invariant.heights_isPrefix (hinv : s.Invariant plan bypass) (h : s.WithoutHints plan) :
    s.delivered.map Block.height
      <+: bypass.strip (Window.heightsBetween plan.settings.initialHeight Word.max) :=
  hinv.orderly.heights_isPrefix h.not_passedOver

/-- Every height up to the one that is given out has been handed on, lies in a bypass range, or has been
passed over on a hint. Without hints the blocks are exactly those of all heights outside the bypass
ranges. -/
theorem accounted_of_reachable (h : Reachable plan bypass s) :
    (∀ buffered height, s.shared.outbox.buffered = some buffered →
      plan.settings.initialHeight ≤ height → height ≤ buffered →
      height ∉ s.delivered.map Block.height →
      bypass.contains height = true ∨ ∃ events ∈ s.iterations, PassedOver plan events height) ∧
    (s.WithoutHints plan → ¬ s.HandsOn → ∀ buffered, s.shared.outbox.buffered = some buffered →
      s.delivered.map Block.height
        = bypass.strip (Window.heightsBetween plan.settings.initialHeight buffered)) := by
  have hinv := invariant_of_reachable h
  have haccounted : ∀ buffered height, s.shared.outbox.buffered = some buffered →
      plan.settings.initialHeight ≤ height → height ≤ buffered →
      s.ledger.Accounted plan bypass height := by
    intro buffered height hbuffered hlow hle
    refine hinv.orderly.accounted height hlow ?_
    have hnext : s.ledger.next plan = buffered.toNat + 1 := by
      rw [Ledger.next, Stream.ledger, hbuffered]
    rw [hnext]
    exact Nat.lt_succ_of_le (UInt64.le_iff_toNat_le.mp hle)
  refine ⟨fun buffered height hbuffered hlow hle habsent => ?_,
    fun hwithout hquiet buffered hbuffered => ?_⟩
  · rcases haccounted buffered height hbuffered hlow hle with hbypassed | hdelivered | hpassed
    · exact .inl hbypassed
    · exact absurd hdelivered habsent
    · exact .inr hpassed
  · obtain ⟨memory, hrests⟩ := hinv.rests hquiet
    refine hinv.orderly.heights_eq hwithout.not_passedOver (fun block hblock => ?_)
      fun height hlow hle => haccounted buffered height hbuffered hlow hle
    obtain ⟨height, hheight, hle⟩ := exists_buffered_of_rests hrests hblock
    obtain rfl : buffered = height := Option.some.inj (hbuffered.symm.trans hheight)
    exact hle

/-- Of two heights the first is matched by a hint, and the second is passed over. -/
theorem accounted_of_reachable_hinted :
    ∃ s, Reachable ⟨{ initialHeight := 1, maxBatchSize := 2 }, some ⟨[{ blockModulo := some 7 }]⟩⟩ ⟨[]⟩ s ∧
      s.delivered.map Block.height = [1] ∧ s.shared.outbox.buffered = some 2 ∧
      (BypassRanges.contains ⟨[]⟩ 2 = true ∨ ∃ events ∈ s.iterations, PassedOver
        ⟨{ initialHeight := 1, maxBatchSize := 2 }, some ⟨[{ blockModulo := some 7 }]⟩⟩ events 2) := by
  have hrun : let run := proceed (sampleWorld 2 ⟨[1], 2⟩) ((iterate
        ⟨{ initialHeight := 1, maxBatchSize := 2 }, some ⟨[{ blockModulo := some 7 }]⟩⟩).start ⟨[]⟩)
      run.2.2 = none ∧ run.1.outbox.queue.map Block.height = [1] ∧
        run.1.outbox.buffered = some 2 := by decide +kernel
  obtain ⟨s, hreach, -, hdelivered, hbuffered⟩ :=
    exists_reachable_of_proceed rfl (wellNumbered_sampleWorld _ _) hrun.1
  have hheights : s.delivered.map Block.height = [1] := by
    rw [hdelivered]
    exact hrun.2.1
  have hheight := hbuffered.trans hrun.2.2
  refine ⟨s, hreach, hheights, hheight, ?_⟩
  refine (accounted_of_reachable hreach).1 2 2 hheight (by decide) (UInt64.le_refl 2) ?_
  rw [hheights]
  decide

end

end BlockFeed.Fetcher
