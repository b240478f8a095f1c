import BlockFeed.Proofs.Fetcher.Stream
import BlockFeed.Proofs.Fetcher.Tally

/-!
# The balance of heights

A fetcher runs iteration after iteration, and nobody else counts heights or moves the height up to which
everything has been handed on. Other parts of the feed, the consumer, the node and the hint service do as they
like; in particular the consumer may go away, and calls may fail.

Main statement, for every state that such a run can reach: when an iteration has handed a batch on, the heights
that have been counted as fetched or as skipped are as many as there are from the initial height up to the one
that is given out, and besides those that have been skipped in vain, by iterations which have come to nothing
(`balance_of_reachable`). There can be such heights: an iteration counts what it skips before it fetches
anything, and the next one counts it again if that fails (`unbalanced_after_failure`).
-/

namespace BlockFeed

/-- The sum of the counts. -/
def LabelledCounts.total : LabelledCounts → UInt64
  | [] => 0
  | (_, count) :: rest => count + LabelledCounts.total rest

theorem LabelledCounts.total_add (values : List String) (count : UInt64) (counts : LabelledCounts) :
    (counts.add values count).total = counts.total + count := by
  induction counts with
  | nil => exact UInt64.add_comm _ _
  | cons entry rest ih =>
    obtain ⟨present, n⟩ := entry
    unfold add
    split
    · rw [total, total, UInt64.add_assoc, UInt64.add_assoc, UInt64.add_comm count]
    · rw [total, total, ih, UInt64.add_assoc]

namespace Fetcher

open Surroundings (Query Event)

/-! ## Counts of events -/

/-- The number of heights that events have counted as fetched. -/
def fetchedIn : List Event → Nat
  | [] => 0
  | event :: rest => event.query.fetched + fetchedIn rest

/-- The number of heights that events have counted as skipped. -/
def skippedIn : List Event → Nat
  | [] => 0
  | event :: rest => event.query.skipped + skippedIn rest

/-- The events of an iteration have handed a batch on. -/
def settledIn (events : List Event) : Bool := events.any fun event => event.query.settles

/-- What the events of an iteration have counted. -/
def tallyOf (buffered : Option UInt64) (events : List Event) : Tally :=
  ⟨buffered, fetchedIn events, skippedIn events, settledIn events⟩

/-- The iterations that have come to nothing. -/
def fruitless (iterations : List (List Event)) : List (List Event) :=
  iterations.filter fun events => !settledIn events

namespace Stream

/-- The number of heights that have been counted as fetched. -/
def fetched (s : Stream) : Nat := fetchedIn s.iterations.flatten

/-- The number of heights that have been counted as skipped. -/
def skipped (s : Stream) : Nat := skippedIn s.iterations.flatten

/-- The number of heights that have been counted as skipped by iterations which have come to nothing. -/
def skippedInVain (s : Stream) : Nat := skippedIn (fruitless s.iterations).flatten

/-- What the last iteration has counted. -/
def tally (s : Stream) : Tally := tallyOf s.shared.outbox.buffered s.events

end Stream

/-! ## Runs -/

namespace Metered

/-- A step of a run. -/
inductive Step (plan : Plan) : Stream → Stream → Prop
  | begin {s : Stream} {memory : BypassRanges} (h : s.phase = .resting memory) :
      Step plan s { s with
        phase := .working ((iterate plan).start memory), past := s.iterations, events := [] }
  | answer {s : Stream} {memory : BypassRanges} {query : Query}
      {resume : query.Answer → Run Surroundings BypassRanges (Except (Abort FetchError) Outcome)}
      {answer : query.Answer} {shared : FeedState}
      (h : s.phase = .working (.wait memory query resume))
      (hanswer : s.shared.Answers query answer shared) :
      Step plan s { s with
        shared, phase := .working (resume answer), events := ⟨query, answer⟩ :: s.events }
  | finish {s : Stream} {memory : BypassRanges} {outcome : Except (Abort FetchError) Outcome}
      (h : s.phase = .working (.done memory outcome)) : Step plan s { s with phase := .resting memory }
  /-- An iteration is given up while it waits. -/
  | abandon {s : Stream} {memory : BypassRanges} {query : Query}
      {resume : query.Answer → Run Surroundings BypassRanges (Except (Abort FetchError) Outcome)}
      (h : s.phase = .working (.wait memory query resume)) (hlong : query.isLong = true) :
      Step plan s { s with phase := .resting memory }
  /-- Others change what they share with the fetcher, but for its counts and what it has handed on. -/
  | drift {s : Stream} {shared : FeedState} (hbuffered : shared.outbox.buffered = s.shared.outbox.buffered)
      (hfetched : shared.metrics.blocksFetched = s.shared.metrics.blocksFetched)
      (hskipped : shared.metrics.heightsSkipped = s.shared.metrics.heightsSkipped) :
      Step plan s { s with shared }

/-- A state that a run can reach which begins with nothing handed on and nothing counted. -/
inductive Reachable (plan : Plan) (bypass : BypassRanges) : Stream → Prop
  | start {shared : FeedState} (hbuffered : shared.outbox.buffered = none)
      (hfetched : shared.metrics.blocksFetched = 0) (hskipped : shared.metrics.heightsSkipped = []) :
      Reachable plan bypass { shared, phase := .resting bypass }
  | step {s s' : Stream} (h : Reachable plan bypass s) (hstep : Step plan s s') :
      Reachable plan bypass s'

end Metered

section
variable {plan : Plan} {bypass : BypassRanges} {before buffered : Option UInt64} {events : List Event}
  {past : List (List Event)} {s s' : Stream}

/-! ## Balanced iterations -/

/-- Iterations have counted every height once that has been handed on, and besides those that have been skipped
in vain. -/
structure Balanced (plan : Plan) (buffered : Option UInt64) (iterations : List (List Event)) : Prop where
  started : plan.settings.initialHeight.toNat ≤ Ledger.next plan { buffered }
  counted : fetchedIn iterations.flatten + skippedIn iterations.flatten
    = Ledger.next plan { buffered } - plan.settings.initialHeight.toNat
      + skippedIn (fruitless iterations).flatten

theorem fetchedIn_append (events more : List Event) :
    fetchedIn (events ++ more) = fetchedIn events + fetchedIn more := by
  induction events with
  | nil => exact (Nat.zero_add _).symm
  | cons event rest ih => rw [List.cons_append, fetchedIn, ih, fetchedIn, Nat.add_assoc]

theorem skippedIn_append (events more : List Event) :
    skippedIn (events ++ more) = skippedIn events + skippedIn more := by
  induction events with
  | nil => exact (Nat.zero_add _).symm
  | cons event rest ih => rw [List.cons_append, skippedIn, ih, skippedIn, Nat.add_assoc]

/-- At first nothing has been counted. -/
theorem balanced_empty : Balanced plan none [[]] := ⟨le_rfl, (Nat.sub_self _).symm⟩

/-- What an iteration has skipped that comes to nothing it has skipped in vain. -/
theorem Balanced.pending {skipped : Nat} (h : Balanced plan before past)
    (htally : tallyOf buffered events = .pending before skipped) :
    Balanced plan buffered (events :: past) := by
  obtain ⟨rfl, hfetched, -, hsettled⟩ := Tally.mk.inj htally
  refine ⟨h.started, ?_⟩
  have hcounted := h.counted
  have hvain : fruitless (events :: past) = events :: fruitless past :=
    List.filter_cons_of_pos (by rw [hsettled]; rfl)
  rw [hvain, List.flatten_cons, List.flatten_cons, fetchedIn_append, skippedIn_append, skippedIn_append]
  omega

/-- An iteration that has handed a batch on has counted each height of it. -/
theorem Balanced.closed {height : UInt64} (h : Balanced plan before past)
    (hclosed : (tallyOf buffered events).Closed plan before height) :
    Balanced plan buffered (events :: past) := by
  obtain ⟨hsettled, hbuffered, hadvances, hnew⟩ := hclosed
  obtain rfl : buffered = some height := hbuffered
  have hnext : Ledger.next plan { buffered := some height } = height.toNat + 1 := rfl
  have hstarted := h.started
  have hcounted := h.counted
  dsimp only [tallyOf] at hsettled hnew
  have hvain : fruitless (events :: past) = fruitless past :=
    List.filter_cons_of_neg (by simpa using hsettled)
  refine ⟨by omega, ?_⟩
  rw [hvain, hnext, List.flatten_cons, fetchedIn_append, skippedIn_append]
  omega

/-! ## Counters -/

/-- What an answer changes of the counts that are shared. -/
structure Moves (query : Query) (shared shared' : FeedState) : Prop where
  buffered : shared'.outbox.buffered = (Tally.after { buffered := shared.outbox.buffered } query).buffered
  fetched : shared'.metrics.blocksFetched = shared.metrics.blocksFetched + UInt64.ofNat query.fetched
  skipped : shared'.metrics.heightsSkipped.total
    = shared.metrics.heightsSkipped.total + UInt64.ofNat query.skipped

/-- A question that takes no heights down changes none of the counts. -/
theorem Moves.nothing {query : Query} {shared shared' : FeedState}
    (hbuffered : shared'.outbox.buffered = (Tally.after { buffered := shared.outbox.buffered } query).buffered)
    (hfetched : shared'.metrics.blocksFetched = shared.metrics.blocksFetched)
    (hskipped : shared'.metrics.heightsSkipped = shared.metrics.heightsSkipped)
    (hquiet : query.fetched = 0 ∧ query.skipped = 0) : Moves query shared shared' := by
  refine ⟨hbuffered, ?_, ?_⟩
  · rw [hquiet.1, hfetched]
    exact (UInt64.add_zero _).symm
  · rw [hquiet.2, hskipped]
    exact (UInt64.add_zero _).symm

theorem moves_note (shared : FeedState) (m : Measurement) :
    Moves (.note m) shared { shared with metrics := shared.metrics.note m } := by
  cases m with
  | blocksFetched count =>
    exact ⟨rfl, by rw [Query.fetched, UInt64.ofNat_toNat]; rfl, (UInt64.add_zero _).symm⟩
  | heightsSkipped reason count =>
    refine ⟨rfl, (UInt64.add_zero _).symm, ?_⟩
    rw [Query.skipped, UInt64.ofNat_toNat]
    exact LabelledCounts.total_add [reason] count _
  | _ => exact .nothing rfl rfl rfl ⟨rfl, rfl⟩

theorem moves_of_reply {shared shared' : FeedState} {now : Nat} {query : Query} {answer : query.Answer}
    (h : shared.reply now query = (.answered answer, shared')) : Moves query shared shared' := by
  cases query with
  | note m =>
    cases h
    exact moves_note shared m
  | send block =>
    have hsend : shared.send block = (.answered answer, shared') := h
    unfold FeedState.send at hsend
    split at hsend
    · cases hsend
      exact .nothing rfl rfl rfl ⟨rfl, rfl⟩
    · split at hsend
      · cases hsend
      · cases hsend
        exact .nothing rfl rfl rfl ⟨rfl, rfl⟩
  | writeCache =>
    obtain ⟨-, rfl⟩ | ⟨-, rfl⟩ := FeedState.of_reply_writeCache h <;> exact .nothing rfl rfl rfl ⟨rfl, rfl⟩
  | tipHeader | fetchBlock | pointsAfter | findIntersect | hints => cases h
  | _ =>
    cases h
    exact .nothing rfl rfl rfl ⟨rfl, rfl⟩

theorem moves_of_answers {shared shared' : FeedState} {query : Query} {answer : query.Answer}
    (h : shared.Answers query answer shared') : Moves query shared shared' := by
  cases h with
  | shared now h => exact moves_of_reply h
  | elsewhere _ h =>
    cases query with
    | tipHeader | fetchBlock | pointsAfter | findIntersect | hints =>
      exact .nothing rfl rfl rfl ⟨rfl, rfl⟩
    | _ => cases h
  | unreadable | unwritable => exact .nothing rfl rfl rfl ⟨rfl, rfl⟩

/-- The surroundings say of the queue what is true of it. -/
theorem permits_of_answers {shared shared' : FeedState} {query : Query} {answer : query.Answer} {T : Tally}
    (h : shared.Answers query answer shared') (hbuffered : T.buffered = shared.outbox.buffered) :
    T.Permits query answer := by
  cases query with
  | buffered =>
    cases h with
    | shared now h =>
      cases h
      exact hbuffered.symm
    | elsewhere _ h => cases h
  | _ => exact trivial

/-! ## Whole runs -/

namespace Metered

/-- What every step preserves. -/
structure Invariant (plan : Plan) (s : Stream) : Prop where
  fetched : s.shared.metrics.blocksFetched = UInt64.ofNat s.fetched
  skipped : s.shared.metrics.heightsSkipped.total = UInt64.ofNat s.skipped
  phase : match s.phase with
    | .resting _ => Balanced plan s.shared.outbox.buffered s.iterations
    | .working run => ∃ before, Balanced plan before s.past ∧ run.Keeps (counting before)
        (Routine.ended (fun T _ outcome => T.Concluded plan before outcome)
          fun T _ _ => T.IsPending before) s.tally

/-- However an iteration has ended, the iterations are balanced. -/
theorem Invariant.balanced_of_done {memory : BypassRanges} {outcome : Except (Abort FetchError) Outcome}
    (hinv : Invariant plan s) (h : s.phase = .working (.done memory outcome)) :
    Balanced plan s.shared.outbox.buffered s.iterations := by
  have hphase := hinv.phase
  rw [h] at hphase
  obtain ⟨before, hpast, hends⟩ := hphase
  cases outcome with
  | error =>
    obtain ⟨n, htally⟩ := hends
    exact hpast.pending htally
  | ok outcome =>
    cases outcome with
    | dispatched => exact hpast.closed hends
    | backpressure | aheadOfTip =>
      obtain ⟨n, htally⟩ := hends
      exact hpast.pending htally

theorem Invariant.start {shared : FeedState} {memory : BypassRanges}
    (hbuffered : shared.outbox.buffered = none) (hfetched : shared.metrics.blocksFetched = 0)
    (hskipped : shared.metrics.heightsSkipped = []) :
    Invariant plan { shared, phase := .resting memory } where
  fetched := hfetched
  skipped := by
    rw [hskipped]
    rfl
  phase := by
    show Balanced plan shared.outbox.buffered [[]]
    rw [hbuffered]
    exact balanced_empty

/-- The counters show what has been counted after an answer, too. -/
theorem Invariant.answer {query : Query} {shared : FeedState} (hinv : Invariant plan s)
    (answer : query.Answer) (phase : Phase) (hmoves : Moves query s.shared shared) :
    let s' : Stream := { s with shared, phase, events := ⟨query, answer⟩ :: s.events }
    s'.shared.metrics.blocksFetched = UInt64.ofNat s'.fetched ∧
      s'.shared.metrics.heightsSkipped.total = UInt64.ofNat s'.skipped ∧
      s'.tally = s.tally.after query := by
  refine ⟨?_, ?_, ?_⟩
  · show shared.metrics.blocksFetched = UInt64.ofNat (query.fetched + s.fetched)
    rw [hmoves.fetched, hinv.fetched, UInt64.ofNat_add, UInt64.add_comm]
  · show shared.metrics.heightsSkipped.total = UInt64.ofNat (query.skipped + s.skipped)
    rw [hmoves.skipped, hinv.skipped, UInt64.ofNat_add, UInt64.add_comm]
  · show Tally.mk shared.outbox.buffered (query.fetched + fetchedIn s.events)
      (query.skipped + skippedIn s.events) (query.settles || settledIn s.events) = s.tally.after query
    rw [hmoves.buffered, Nat.add_comm query.fetched, Nat.add_comm query.skipped]
    rfl

/-- The invariant is kept by every step. -/
theorem Invariant.step (hinv : Invariant plan s) (hstep : Step plan s s') : Invariant plan s' := by
  have hphase := hinv.phase
  cases hstep with
  | @begin memory h =>
    rw [h] at hphase
    exact ⟨hinv.fetched, hinv.skipped, _, hphase, concludes_iterate memory⟩
  | @answer memory query resume answer shared h hanswer =>
    rw [h] at hphase
    obtain ⟨before, hpast, hkeeps⟩ := hphase
    obtain ⟨hfetched, hskipped, htally⟩ := hinv.answer answer (.working (resume answer))
      (moves_of_answers hanswer)
    refine ⟨hfetched, hskipped, before, hpast, ?_⟩
    rw [htally]
    exact hkeeps.answer ⟨permits_of_answers hanswer rfl, rfl⟩
  | @finish memory outcome h => exact ⟨hinv.fetched, hinv.skipped, hinv.balanced_of_done h⟩
  | @abandon memory query resume h hlong =>
    rw [h] at hphase
    obtain ⟨before, hpast, hkeeps⟩ := hphase
    obtain ⟨n, htally⟩ := hkeeps.allows hlong
    exact ⟨hinv.fetched, hinv.skipped, hpast.pending htally⟩
  | @drift shared hbuffered hfetched hskipped =>
    refine ⟨hfetched.trans hinv.fetched, by rw [hskipped]; exact hinv.skipped, ?_⟩
    have htally : Stream.tally { s with shared } = s.tally := by
      rw [Stream.tally, Stream.tally, hbuffered]
    show match s.phase with | .resting _ => _ | .working _ => _
    rw [htally, hbuffered]
    exact hphase

theorem invariant_of_reachable (h : Reachable plan bypass s) : Invariant plan s := by
  induction h with
  | start hbuffered hfetched hskipped => exact .start hbuffered hfetched hskipped
  | step _ hstep ih => exact ih.step hstep

/-- The counters show what the iterations have counted. When an iteration has handed a batch on, this is every
height from the initial one up to the one that is given out, and besides those that have been skipped in
vain. -/
theorem balance_of_reachable (h : Reachable plan bypass s) :
    s.shared.metrics.blocksFetched = UInt64.ofNat s.fetched ∧
      s.shared.metrics.heightsSkipped.total = UInt64.ofNat s.skipped ∧
      ∀ window count height, s.EndsWith (.ok (.dispatched window count height)) →
        s.shared.outbox.buffered = some height ∧ plan.settings.initialHeight ≤ height ∧
        s.fetched + s.skipped
          = height.toNat - plan.settings.initialHeight.toNat + 1 + s.skippedInVain := by
  have hinv := invariant_of_reachable h
  refine ⟨hinv.fetched, hinv.skipped, ?_⟩
  rintro window count height ⟨memory, hends⟩
  have hphase := hinv.phase
  rw [hends] at hphase
  obtain ⟨before, hpast, hclosed⟩ := hphase
  have hbuffered : s.shared.outbox.buffered = some height := hclosed.buffered
  obtain ⟨-, hcounted⟩ := hinv.balanced_of_done hends
  rw [hbuffered] at hcounted
  have hreach : plan.settings.initialHeight.toNat ≤ height.toNat := hpast.started.trans hclosed.advances
  refine ⟨hbuffered, UInt64.le_iff_toNat_le.mpr hreach, hcounted.trans ?_⟩
  have hnext : Ledger.next plan { buffered := some height } = height.toNat + 1 := rfl
  rw [hnext, Nat.sub_add_comm hreach]
  rfl

/-! ## Rehearsed runs -/

open Simulation (World ScriptedNode proceed)

/-- How work has ended, if it has. -/
def ending? : Run Surroundings BypassRanges (Except (Abort FetchError) Outcome) →
    Option (BypassRanges × Except (Abort FetchError) Outcome)
  | .done memory outcome => some (memory, outcome)
  | .wait _ _ _ => none

/-- An iteration that is driven to its end through a world is one of the run. -/
theorem reachable_of_ending {w : World} {memory memory' : BypassRanges}
    {outcome : Except (Abort FetchError) Outcome} (h : Reachable plan bypass s)
    (hphase : s.phase = .resting memory) (hshared : s.shared = w.toFeedState)
    (hending : ending? (proceed w ((iterate plan).start memory)).2.1 = some (memory', outcome)) :
    ∃ s', Reachable plan bypass s' ∧
      s'.shared = (proceed w ((iterate plan).start memory)).1.toFeedState ∧
      s'.phase = .working (.done memory' outcome) := by
  cases hproceed : proceed w ((iterate plan).start memory) with
  | mk w' rest =>
    obtain ⟨run, stall⟩ := rest
    rw [hproceed] at hending
    cases run with
    | wait => cases hending
    | done =>
      cases hending
      obtain ⟨s', hreach, hshared', -, hphase'⟩ := exists_of_proceed
        (fun hreach hphase hanswers => hreach.step (.answer hphase hanswers)) (h.step (.begin hphase)) rfl
        hshared hproceed
      exact ⟨s', hreach, hshared', hphase'⟩

/-- Of three heights the first is fetched, and the others are passed over on a hint. The second one lies in a
bypass range as well, and is counted once all the same. -/
theorem balance_of_reachable_hinted :
    ∃ s, Reachable ⟨{ initialHeight := 1, maxBatchSize := 3 }, some ⟨[]⟩⟩ ⟨[⟨2, 3⟩]⟩ s ∧
      s.EndsWith (.ok (.dispatched ⟨1, 3⟩ 1 3)) ∧
      s.shared.metrics.blocksFetched = 1 ∧ s.shared.metrics.heightsSkipped.total = 2 ∧
      s.fetched + s.skipped = 3 + s.skippedInVain := by
  have hrun : let run := proceed (sampleWorld 3 ⟨[1], 3⟩) ((iterate
        ⟨{ initialHeight := 1, maxBatchSize := 3 }, some ⟨[]⟩⟩).start ⟨[⟨2, 3⟩]⟩)
      ending? run.2.1 = some (⟨[]⟩, .ok (.dispatched ⟨1, 3⟩ 1 3)) ∧
        run.1.metrics.blocksFetched = 1 ∧ run.1.metrics.heightsSkipped.total = 2 := by decide +kernel
  obtain ⟨hending, hfetched, hskipped⟩ := hrun
  obtain ⟨s, hreach, hshared, hphase⟩ := reachable_of_ending (.start rfl rfl rfl) rfl rfl hending
  refine ⟨s, hreach, ⟨_, hphase⟩, by rw [hshared]; exact hfetched, by rw [hshared]; exact hskipped, ?_⟩
  exact ((balance_of_reachable hreach).2.2 _ _ _ ⟨_, hphase⟩).2.2

/-- The counters need not balance. Of three heights the second lies in a bypass range. The first iteration
counts it as skipped and then fails, as the node does not answer; the second one hands the blocks of the others
on, and counts it again. -/
theorem unbalanced_after_failure :
    ¬ ∀ (plan : Plan) (bypass : BypassRanges) (s : Stream) (window : Window) (count : Nat) (height : UInt64),
      Reachable plan bypass s → s.EndsWith (.ok (.dispatched window count height)) →
      s.shared.metrics.blocksFetched + s.shared.metrics.heightsSkipped.total
        = height - plan.settings.initialHeight + 1 := by
  intro hclaim
  let plan : Plan := { settings := { initialHeight := 1, maxBatchSize := 3 } }
  let w : World := { sampleWorld 3 default with
    node := { chain := ScriptedNode.sampleChain 20, script := [{ error := some (.timeout ⟨1⟩) }] } }
  have hrun : let first := proceed w ((iterate plan).start ⟨[⟨2, 3⟩]⟩)
      let second := proceed first.1 ((iterate plan).start ⟨[⟨2, 3⟩]⟩)
      ending? first.2.1 = some (⟨[⟨2, 3⟩]⟩, .error (.failed (.node 1 (.timeout ⟨1⟩)))) ∧
        ending? second.2.1 = some (⟨[]⟩, .ok (.dispatched ⟨1, 3⟩ 2 3)) ∧
        second.1.metrics.blocksFetched = 2 ∧ second.1.metrics.heightsSkipped.total = 2 := by
    decide +kernel
  obtain ⟨hfirst, hsecond, hfetched, hskipped⟩ := hrun
  obtain ⟨s, hreach, hshared, hphase⟩ := reachable_of_ending (.start rfl rfl rfl) rfl rfl hfirst
  obtain ⟨s', hreach', hshared', hphase'⟩ := reachable_of_ending (hreach.step (.finish hphase)) rfl hshared
    hsecond
  have hbalanced := hclaim plan _ s' _ _ _ hreach' ⟨_, hphase'⟩
  rw [hshared'] at hbalanced
  rw [show _ = _ from hfetched, show _ = _ from hskipped] at hbalanced
  exact absurd hbalanced (by decide)

end Metered

end

end Fetcher

end BlockFeed
