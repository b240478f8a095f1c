import BlockFeed.Feed
import BlockFeed.Proofs.Fetcher.Provenance
import BlockFeed.Proofs.Fetcher.Stream
import BlockFeed.Proofs.Walker
import Mathlib.Logic.Function.Basic

/-!
# The pipeline

The whole feed runs against a node whose chain changes as time passes. Its parts work on their own: two
pollers, the walker and the fetcher. In any order a part begins work or gets an answer, the consumer
takes blocks, and time passes. Calls to the node may fail or be given up, entries of the cache may expire
at any time, and so may the patience with the walker, whatever it waits for.

The invariant (`Pipeline.Invariant`) joins what the parts know of each other: the shared values accord
with the history of the chain, pollers and walker keep their contract, and the stream of the fetcher is
as it is for any walker, with every tip and body that it has learnt belonging to a settled block.
-/

namespace BlockFeed

/-- What a part of the feed does. -/
inductive Activity (σ α : Type) where
  | resting (memory : σ)
  /-- Work that has gone on last at a time. -/
  | working (since : Nat) (run : Run Surroundings σ α)

/-- The parts of the feed. -/
inductive Part where
  | poller (kind : HeightKind)
  | walker
  | fetcher
  deriving DecidableEq

/-- What a part remembers. -/
def Part.Memory : Part → Type
  | .poller _ => Unit
  | .walker => Walker
  | .fetcher => BypassRanges

/-- What the work of a part ends with, as far as it matters to others. -/
def Part.Outcome : Part → Type
  | .poller _ | .walker => Unit
  | .fetcher => Except (Abort FetchError) Fetcher.Outcome

namespace Feed

/-- The poller of a kind of height. -/
def poller (feed : Feed) : HeightKind → Poller
  | .best => feed.best
  | .finalized => feed.finalized

/-- What a part remembers at the beginning. -/
def firstMemory (feed : Feed) : (part : Part) → part.Memory
  | .poller _ => ()
  | .walker => Walker.new feed.walker
  | .fetcher => feed.bypass

/-- The work that a part does again and again. -/
def work (feed : Feed) : (part : Part) → part.Memory → Run Surroundings part.Memory part.Outcome
  | .poller kind, memory => ((feed.poller kind).poll.start memory).map fun _ => ()
  | .walker, memory => ((Walker.advance feed.walker).start memory).map fun _ => ()
  | .fetcher, memory => (Fetcher.iterate feed.fetch).start memory

/-- The work of the walker after a failure. -/
def recovery (feed : Feed) (error : WalkerError) (memory : Walker) : Run Surroundings Walker Unit :=
  ((Walker.recover feed.walker error).start memory).map fun _ => ()

/-- The work that a part may begin. The walker may recover from whatever it likes. -/
def Begins (feed : Feed) : (part : Part) → part.Memory → Run Surroundings part.Memory part.Outcome → Prop
  | .walker, memory, run =>
    run = feed.work .walker memory ∨ ∃ error, run = feed.recovery error memory
  | part, memory, run => run = feed.work part memory

theorem begins_work (feed : Feed) (part : Part) (memory : part.Memory) :
    feed.Begins part memory (feed.work part memory) := by
  cases part with
  | poller kind => rfl
  | walker => exact .inl rfl
  | fetcher => rfl

/-- The heights that the consumer is to receive, in order. -/
def wantedHeights (feed : Feed) : List UInt64 :=
  feed.bypass.strip (Window.heightsBetween feed.fetch.settings.initialHeight Word.max)

end Feed

/-- The parts of the feed with what they share and what the consumer has received. -/
structure Pipeline where
  shared : FeedState
  received : List Block := []
  time : Nat := 0
  activity : (part : Part) → Activity part.Memory part.Outcome

namespace Pipeline

/-- The beginning, under a clock with a last time. -/
def start (feed : Feed) (horizon : Nat) : Pipeline where
  shared := { cache := { horizon }, outbox := Outbox.new Feed.queueCapacity }
  activity part := .resting (feed.firstMemory part)

/-- The pipeline after a part has gone on. -/
def turn (s : Pipeline) (part : Part) (activity : Activity part.Memory part.Outcome) : Pipeline :=
  { s with activity := Function.update s.activity part activity }

/-- A step of the pipeline. -/
inductive Step (feed : Feed) (node : History) : Pipeline → Pipeline → Prop
  | begin {s : Pipeline} (part : Part) {memory : part.Memory}
      {run : Run Surroundings part.Memory part.Outcome} (h : s.activity part = .resting memory)
      (hbegins : feed.Begins part memory run) : Step feed node s (s.turn part (.working s.time run))
  | answer {s : Pipeline} (part : Part) {since : Nat} {memory : part.Memory}
      {query : Surroundings.Query}
      {resume : query.Answer → Run Surroundings part.Memory part.Outcome} {answer : query.Answer}
      {shared : FeedState} (h : s.activity part = .working since (.wait memory query resume))
      (hanswer : s.shared.Answers query answer shared)
      (htold : node.Tells since s.time query answer) :
      Step feed node s ({ s with shared }.turn part (.working s.time (resume answer)))
  | finish {s : Pipeline} (part : Part) {since : Nat} {memory : part.Memory} {outcome : part.Outcome}
      (h : s.activity part = .working since (.done memory outcome)) :
      Step feed node s (s.turn part (.resting memory))
  /-- A call to the node is given up. The walker is given up whatever it waits for. -/
  | abandon {s : Pipeline} (part : Part) {since : Nat} {memory : part.Memory}
      {query : Surroundings.Query}
      {resume : query.Answer → Run Surroundings part.Memory part.Outcome}
      (h : s.activity part = .working since (.wait memory query resume))
      (hcall : part = .walker ∨ query.isElsewhere = true) :
      Step feed node s (s.turn part (.resting memory))
  | receive {s : Pipeline} (limit : Option Nat) {blocks : List Block} {shared : FeedState}
      (h : s.shared.drain limit = (some blocks, shared)) :
      Step feed node s { s with shared, received := s.received ++ blocks }
  | pass {s : Pipeline} (time : Nat) (h : s.time ≤ time) : Step feed node s { s with time }

/-- A state that the pipeline can reach. -/
inductive Reachable (feed : Feed) (node : History) : Pipeline → Prop
  | start (horizon : Nat) : Reachable feed node (start feed horizon)
  | step {s s' : Pipeline} (h : Reachable feed node s) (hstep : Step feed node s s') :
      Reachable feed node s'

end Pipeline

/-- The time at which a part has gone on last; a part at rest is up to date. -/
def Activity.since {σ α : Type} (now : Nat) : Activity σ α → Nat
  | .resting _ => now
  | .working since _ => since

/-! ## Pollers and walker -/

/-- A part keeps the contract of those who publish. -/
def Activity.Conducts {σ α : Type} (node : History) (fit : Nat → σ → Prop) (now : Nat) :
    Activity σ α → Prop
  | .resting memory => fit now memory
  | .working since run => since ≤ now ∧
      run.Keeps (node.contract fit) (fun now' memory _ => fit now' memory) since

namespace Activity

variable {σ ε α : Type} {node : History} {fit : Nat → σ → Prop} {since now now' : Nat} {memory : σ}

theorem Conducts.mono {a : Activity σ α} (hlasts : History.Lasts fit) (h : a.Conducts node fit now)
    (hle : now ≤ now') : a.Conducts node fit now' := by
  cases a with
  | resting memory => exact hlasts now now' memory hle h
  | working since run => exact ⟨h.1.trans hle, h.2⟩

/-- Work that keeps the contract may begin. -/
theorem conducts_of_stays {work : Work σ ε α} {fact : Nat → α → Prop}
    (h : node.Stays fit now work fact) (hfit : fit now memory) :
    (working now ((work.start memory).map fun _ => ())).Conducts node fit now := by
  refine ⟨le_rfl, Run.keeps_bind.mpr ?_⟩
  apply Run.Keeps.mono (h memory hfit)
  intro now' memory' outcome houtcome
  cases outcome with
  | ok value => exact houtcome.2.1
  | error cause => exact houtcome.2

/-- What has been done may be finished, and what waits may be given up. -/
theorem Conducts.rest {run : Run Surroundings σ α} (hlasts : History.Lasts fit)
    (h : (working since run).Conducts node fit now) :
    (resting run.memory : Activity σ α).Conducts node fit now := by
  obtain ⟨hsince, hkeeps⟩ := h
  apply hlasts since now run.memory hsince
  cases run with
  | done memory outcome => exact hkeeps
  | wait memory query resume => exact hkeeps.allows.1

/-- An answer to work that waits leaves the shared values in accordance with the history, and the queue
as it is. -/
theorem Conducts.accords {query : Surroundings.Query}
    {resume : query.Answer → Run Surroundings σ α} {answer : query.Answer} {shared shared' : FeedState}
    (h : (working since (.wait memory query resume)).Conducts node fit now)
    (haccords : shared.Accords node now) (hanswer : shared.Answers query answer shared') :
    shared'.Accords node now ∧ shared'.outbox = shared.outbox := by
  obtain ⟨-, hpublishes, hdelivery⟩ := h.2.allows
  exact ⟨haccords.answers (History.Publishes.mono hpublishes h.1) hanswer,
    FeedState.outbox_eq_of_answers hdelivery hanswer⟩

/-- Work that waits goes on with an answer that informs of the history. -/
theorem Conducts.answer {query : Surroundings.Query}
    {resume : query.Answer → Run Surroundings σ α} {answer : query.Answer}
    (h : (working since (.wait memory query resume)).Conducts node fit now)
    (hinforms : node.Informs since now query answer) :
    (working now (resume answer)).Conducts node fit now :=
  ⟨le_rfl, h.2.answer ⟨h.1, hinforms⟩⟩

end Activity

/-! ## The fetcher -/

/-- The phase of the fetcher. -/
def Activity.phase :
    Activity BypassRanges (Except (Abort FetchError) Fetcher.Outcome) → Fetcher.Phase
  | .resting memory => .resting memory
  | .working _ run => .working run

/-- The fetcher is in a state of its stream, and all that it has learnt is of settled blocks. -/
structure Fetches (feed : Feed) (node : History) (shared : FeedState) (received : List Block) (now : Nat)
    (activity : Activity BypassRanges (Except (Abort FetchError) Fetcher.Outcome))
    (past : List (List Surroundings.Event)) (events : List Surroundings.Event) : Prop where
  stream : Fetcher.Stream.Invariant feed.fetch feed.bypass
    { shared, received, phase := activity.phase, past, events }
  since : activity.since now ≤ now
  learnt : ∀ iteration ∈ events :: past, Fetcher.Learnt node (activity.since now) iteration

section
variable {feed : Feed} {node : History} {shared shared' : FeedState} {received : List Block}
  {since now now' : Nat} {memory : BypassRanges} {past : List (List Surroundings.Event)}
  {events : List Surroundings.Event}
  {activity : Activity BypassRanges (Except (Abort FetchError) Fetcher.Outcome)}

/-- Tips are cached under their heights. -/
theorem FeedState.Accords.wellNumbered (h : shared.Accords node now) :
    Fetcher.WellNumbered shared.cache := by
  intro height entry tip hmem htip
  obtain ⟨block, -, rfl, hheight⟩ := (h.cached _ hmem).settled rfl htip
  exact hheight

/-- As long as nobody else changes the queue, the fetcher does not mind what others do. -/
theorem Fetches.share (h : Fetches feed node shared received now activity past events)
    (houtbox : shared'.outbox = shared.outbox) (haccords : shared'.Accords node now) :
    Fetches feed node shared' received now activity past events := by
  refine ⟨?_, h.since, h.learnt⟩
  have hdrift := h.stream.step
    (.drift shared'.heights shared'.metrics shared.outbox.capacity haccords.wellNumbered)
  obtain ⟨heights, cache, outbox, metrics⟩ := shared'
  obtain rfl : outbox = shared.outbox := houtbox
  exact hdrift

theorem Fetches.mono (h : Fetches feed node shared received now activity past events)
    (hle : now ≤ now') : Fetches feed node shared received now' activity past events := by
  have hsince : activity.since now ≤ activity.since now' := by
    cases activity with
    | resting memory => exact hle
    | working since run => exact le_rfl
  refine ⟨h.stream, ?_, fun iteration hmem => (h.learnt iteration hmem).mono hsince⟩
  cases activity with
  | resting memory => exact le_rfl
  | working since run => exact h.since.trans hle

/-- An iteration begins with nothing learnt. -/
theorem Fetches.begin (h : Fetches feed node shared received now (.resting memory) past events) :
    Fetches feed node shared received now
      (.working now ((Fetcher.iterate feed.fetch).start memory)) (events :: past) [] := by
  refine ⟨h.stream.step (.begin rfl), le_rfl, ?_⟩
  intro iteration hmem
  rcases List.mem_cons.mp hmem with rfl | hmem
  · exact Fetcher.learnt_nil
  · exact h.learnt iteration hmem

/-- When the fetcher is at rest again, it has learnt nothing more. -/
theorem Fetches.rest {run : Run Surroundings BypassRanges (Except (Abort FetchError) Fetcher.Outcome)}
    (h : Fetches feed node shared received now (.working since run) past events)
    (hstream : Fetcher.Stream.Invariant feed.fetch feed.bypass
      { shared, received, phase := .resting memory, past, events }) :
    Fetches feed node shared received now (.resting memory) past events :=
  ⟨hstream, le_rfl, fun iteration hmem => (h.learnt iteration hmem).mono h.since⟩

/-- The fetcher publishes nothing. -/
theorem publishes_of_allows {L : Fetcher.Ledger} {query : Surroundings.Query}
    (h : (Fetcher.contract feed.fetch feed.bypass).allows L memory query) :
    node.Publishes now query := by
  cases query with
  | publishBest => exact h.elim
  | writeCache => exact h.elim
  | _ => trivial

/-- The fetcher goes on with an answer that informs of the history. -/
theorem Fetches.answer {query : Surroundings.Query}
    {resume : query.Answer → Run Surroundings BypassRanges (Except (Abort FetchError) Fetcher.Outcome)}
    {answer : query.Answer}
    (h : Fetches feed node shared received now (.working since (.wait memory query resume)) past events)
    (hanswer : shared.Answers query answer shared')
    (hinforms : node.Informs since now query answer) :
    Fetches feed node shared' received now (.working now (resume answer)) past
      (⟨query, answer⟩ :: events) := by
  refine ⟨h.stream.step (.answer rfl hanswer), le_rfl, ?_⟩
  intro iteration hmem
  rcases List.mem_cons.mp hmem with rfl | hmem
  · apply (h.learnt events List.mem_cons_self).cons h.since hinforms
    rintro point rfl
    -- a body is only asked for after its tip has been read
    have hallows := h.stream.phase.allows
    obtain ⟨height, tip, hread, -, hpoint, -⟩ := hallows.2
    exact ⟨height, tip, hread, hpoint⟩
  · exact (h.learnt iteration (List.mem_cons_of_mem _ hmem)).mono h.since

end

namespace Pipeline

variable {feed : Feed} {node : History} {s s' : Pipeline} {shared shared' : FeedState}
  {received : List Block} {now now' : Nat}

/-- What holds of a part. -/
def Holds (feed : Feed) (node : History) (shared : FeedState) (received : List Block) (now : Nat) :
    (part : Part) → Activity part.Memory part.Outcome → Prop
  | .poller _, activity => activity.Conducts node (fun _ _ => True) now
  | .walker, activity => activity.Conducts node (Walker.Fit node) now
  | .fetcher, activity => ∃ past events, Fetches feed node shared received now activity past events

/-- What every step preserves. -/
structure Invariant (feed : Feed) (node : History) (s : Pipeline) : Prop where
  accords : s.shared.Accords node s.time
  holds : ∀ part, Holds feed node s.shared s.received s.time part (s.activity part)

/-- Whatever is preserved of a part is preserved when others go on. -/
theorem Holds.share {part : Part} {activity : Activity part.Memory part.Outcome}
    (h : Holds feed node shared received now part activity) (houtbox : shared'.outbox = shared.outbox)
    (haccords : shared'.Accords node now) : Holds feed node shared' received now part activity := by
  cases part with
  | poller kind => exact h
  | walker => exact h
  | fetcher =>
    obtain ⟨past, events, hfetches⟩ := h
    exact ⟨past, events, hfetches.share houtbox haccords⟩

theorem Holds.mono {part : Part} {activity : Activity part.Memory part.Outcome}
    (h : Holds feed node shared received now part activity) (hle : now ≤ now') :
    Holds feed node shared received now' part activity := by
  cases part with
  | poller kind => exact Activity.Conducts.mono History.lasts_true h hle
  | walker => exact Activity.Conducts.mono (Walker.lasts_fit node) h hle
  | fetcher =>
    obtain ⟨past, events, hfetches⟩ := h
    exact ⟨past, events, hfetches.mono hle⟩

/-- When one part goes on, the others stay as they are. -/
theorem holds_turn {part : Part} {activity : Activity part.Memory part.Outcome}
    (hpart : Holds feed node shared received now part activity)
    (hothers : ∀ other, other ≠ part → Holds feed node shared received now other (s.activity other)) :
    ∀ other, Holds feed node shared received now other ((s.turn part activity).activity other) :=
  (Function.forall_update_iff s.activity fun other activity =>
    Holds feed node shared received now other activity).mpr ⟨hpart, hothers⟩

/-- A part that is at rest may begin work. -/
theorem Invariant.begin {depth : Nat} (hinv : s.Invariant feed node)
    (hagrees : node.Agrees depth) (hdepth : depth ≤ feed.walker.confirmationDepth.toNat)
    (hstart : ∀ now, node.Stands now feed.walker.startPoint.tip) {part : Part} {memory : part.Memory}
    {run : Run Surroundings part.Memory part.Outcome} (h : s.activity part = .resting memory)
    (hbegins : feed.Begins part memory run) :
    Holds feed node s.shared s.received s.time part (.working s.time run) := by
  have hholds := hinv.holds part
  rw [h] at hholds
  cases part with
  | poller kind =>
    obtain rfl := hbegins
    exact Activity.conducts_of_stays (History.stays_poll (feed.poller kind)) trivial
  | walker =>
    rcases hbegins with rfl | ⟨error, rfl⟩
    · exact Activity.conducts_of_stays (Walker.stays_advance hagrees hdepth hstart) hholds
    · exact Activity.conducts_of_stays (Walker.stays_recover hstart error) hholds
  | fetcher =>
    obtain rfl := hbegins
    obtain ⟨past, events, hfetches⟩ := hholds
    exact ⟨_, _, hfetches.begin⟩

/-- A part that waits may get an answer. The shared values go on according with the history, and nobody
but the fetcher changes the queue. -/
theorem Invariant.answer (hinv : s.Invariant feed node) {part : Part} {since : Nat}
    {memory : part.Memory} {query : Surroundings.Query}
    {resume : query.Answer → Run Surroundings part.Memory part.Outcome} {answer : query.Answer}
    (h : s.activity part = .working since (.wait memory query resume))
    (hanswer : s.shared.Answers query answer shared)
    (htold : node.Tells since s.time query answer) :
    shared.Accords node s.time ∧
      Holds feed node shared s.received s.time part (.working s.time (resume answer)) ∧
      (part ≠ .fetcher → shared.outbox = s.shared.outbox) := by
  have hholds := hinv.holds part
  rw [h] at hholds
  have hinforms := hinv.accords.informs hanswer htold
  cases part with
  | poller kind =>
    have hconducts : Activity.Conducts node (fun _ _ => True) s.time
        (.working since (.wait memory query resume)) := hholds
    obtain ⟨haccords, houtbox⟩ := hconducts.accords hinv.accords hanswer
    exact ⟨haccords, hconducts.answer hinforms, fun _ => houtbox⟩
  | walker =>
    have hconducts : Activity.Conducts node (Walker.Fit node) s.time
        (.working since (.wait memory query resume)) := hholds
    obtain ⟨haccords, houtbox⟩ := hconducts.accords hinv.accords hanswer
    exact ⟨haccords, hconducts.answer hinforms, fun _ => houtbox⟩
  | fetcher =>
    obtain ⟨past, events, hfetches⟩ := hholds
    have hallows := hfetches.stream.phase.allows
    refine ⟨hinv.accords.answers (publishes_of_allows hallows) hanswer,
      ⟨past, _, hfetches.answer hanswer hinforms⟩, ?_⟩
    intro hne
    exact absurd rfl hne

/-- A part may come to rest when it is done, and when it is given up. -/
theorem Invariant.rest (hinv : s.Invariant feed node) {part : Part} {since : Nat}
    {run : Run Surroundings part.Memory part.Outcome} (h : s.activity part = .working since run)
    (hrest : (∃ memory outcome, run = .done memory outcome) ∨ part = .walker ∨
      ∃ memory query resume, run = .wait memory query resume ∧ query.isElsewhere = true) :
    Holds feed node s.shared s.received s.time part (.resting run.memory) := by
  have hholds := hinv.holds part
  rw [h] at hholds
  cases part with
  | poller kind => exact Activity.Conducts.rest History.lasts_true hholds
  | walker => exact Activity.Conducts.rest (Walker.lasts_fit node) hholds
  | fetcher =>
    obtain ⟨past, events, hfetches⟩ := hholds
    refine ⟨past, events, hfetches.rest ?_⟩
    -- the fetcher is only given up while a call is under way
    rcases hrest with ⟨memory, outcome, rfl⟩ | hwalker | ⟨memory, query, resume, rfl, helsewhere⟩
    · exact hfetches.stream.step (.finish rfl)
    · cases hwalker
    · exact hfetches.stream.step (.abandon rfl helsewhere)

/-- Blocks that the consumer takes have been in the queue. -/
theorem Invariant.receive (hinv : s.Invariant feed node) {limit : Option Nat} {blocks : List Block}
    (h : s.shared.drain limit = (some blocks, shared)) :
    Invariant feed node { s with shared, received := s.received ++ blocks } where
  accords := by
    have hshared : shared = (s.shared.drain limit).2 := by rw [h]
    subst hshared
    exact ⟨hinv.accords.best, hinv.accords.cached⟩
  holds part := by
    have hholds := hinv.holds part
    cases part with
    | poller kind => exact hholds
    | walker => exact hholds
    | fetcher =>
      obtain ⟨past, events, hfetches⟩ := hholds
      exact ⟨past, events, hfetches.stream.step (.receive limit h), hfetches.since, hfetches.learnt⟩

/-- The invariant holds at the beginning. -/
theorem Invariant.start (hstart : ∀ now, node.Stands now feed.walker.startPoint.tip) (horizon : Nat) :
    Invariant feed node (start feed horizon) where
  accords := FeedState.accords_of_empty rfl rfl
  holds part := by
    cases part with
    | poller kind => trivial
    | walker => exact hstart 0
    | fetcher =>
      refine ⟨[], [], ?_, le_rfl, ?_⟩
      · exact Fetcher.Stream.Invariant.start rfl (fun _ _ _ hmem => nomatch hmem)
      · intro iteration hmem
        rw [List.mem_singleton.mp hmem]
        exact Fetcher.learnt_nil

/-- The invariant is kept by every step. -/
theorem Invariant.step {depth : Nat} (hinv : s.Invariant feed node) (hagrees : node.Agrees depth)
    (hdepth : depth ≤ feed.walker.confirmationDepth.toNat)
    (hstart : ∀ now, node.Stands now feed.walker.startPoint.tip) (hstep : Step feed node s s') :
    s'.Invariant feed node := by
  cases hstep with
  | begin part h hbegins =>
    have hpart := hinv.begin hagrees hdepth hstart h hbegins
    exact ⟨hinv.accords, holds_turn hpart fun other _ => hinv.holds other⟩
  | @answer part since memory query resume answer shared h hanswer htold =>
    obtain ⟨haccords, hpart, houtbox⟩ := hinv.answer h hanswer htold
    refine ⟨haccords, holds_turn hpart fun other hne => ?_⟩
    by_cases hfetcher : part = .fetcher
    · -- the others take no notice of what the fetcher does
      have hother := hinv.holds other
      cases other with
      | poller kind => exact hother
      | walker => exact hother
      | fetcher => exact absurd hfetcher.symm hne
    · exact (hinv.holds other).share (houtbox hfetcher) haccords
  | finish part h =>
    have hpart := hinv.rest h (.inl ⟨_, _, rfl⟩)
    exact ⟨hinv.accords, holds_turn hpart fun other _ => hinv.holds other⟩
  | abandon part h hcall =>
    have hpart := hinv.rest h (.inr (hcall.imp_right fun hcall => ⟨_, _, _, rfl, hcall⟩))
    exact ⟨hinv.accords, holds_turn hpart fun other _ => hinv.holds other⟩
  | receive limit h => exact hinv.receive h
  | pass time h => exact ⟨hinv.accords.mono h, fun part => (hinv.holds part).mono h⟩

/-- The invariant holds in every state that can be reached. -/
theorem invariant_of_reachable {depth : Nat} (hagrees : node.Agrees depth)
    (hdepth : depth ≤ feed.walker.confirmationDepth.toNat)
    (hstart : ∀ now, node.Stands now feed.walker.startPoint.tip) (h : Reachable feed node s) :
    s.Invariant feed node := by
  induction h with
  | start horizon => exact .start hstart horizon
  | step _ hstep ih => exact ih.step hagrees hdepth hstart hstep

end Pipeline

end BlockFeed
