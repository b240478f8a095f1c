import BlockFeed.Proofs.Fetcher.Readiness
import BlockFeed.Proofs.Fetcher.Stream
import BlockFeed.Proofs.Walker.Bounded
import BlockFeed.Proofs.Walker.Rehearsed

/-!
# From the walker to the fetcher

Walker and fetcher meet in a cache that is empty at first. They go on in any order, and in between the
observed heights, the queue and the metrics change as they like. Entries of the cache expire, the walker is
moved back and writes others in their place, calls fail, and walker and fetcher are given up.

In every state that can be reached the walker keeps its distance to the best height that it has read at the
beginning of a walk. A block that the fetcher asks for is that of the height whose turn it is: its point is
that of the tip which the walker has written under this height, as it has written the tips of all heights of
the window (`handover_of_reachable`). What the two parts do on their own is said by their contracts,
`Walker.bounded` and `Fetcher.readiness`; the cache joins them, as all that is in it has been written
(`Handover.Invariant`).
-/

namespace BlockFeed

open Surroundings (Event Query)

/-- Walker and fetcher, which share a cache. -/
structure Handover where
  /-- The walker, and what it shares with the fetcher. -/
  course : Walker.Course
  fetching : Fetcher.Phase
  /-- The events of the last iteration of the fetcher, the latest first. -/
  asked : List Event := []

namespace Handover

variable {settings : WalkerSettings} {plan : Fetcher.Plan} {bypass : BypassRanges} {s s' : Handover}

/-- A step of one of them, or of others who do not use the cache. -/
inductive Step (settings : WalkerSettings) (plan : Fetcher.Plan) : Handover → Handover → Prop
  /-- The walker goes on, or somebody else changes what is shared. -/
  | walk {s : Handover} {course : Walker.Course}
      (h : Walker.Course.Step .numbering settings s.course course) :
      Step settings plan s { s with course }
  | begin {s : Handover} {memory : BypassRanges} (h : s.fetching = .resting memory) :
      Step settings plan s { s with
        fetching := .working ((Fetcher.iterate plan).start memory), asked := [] }
  | answer {s : Handover} {memory : BypassRanges} {query : Query}
      {resume : query.Answer →
        Run Surroundings BypassRanges (Except (Abort FetchError) Fetcher.Outcome)}
      {answer : query.Answer} {shared : FeedState}
      (h : s.fetching = .working (.wait memory query resume))
      (hanswer : s.course.shared.Answers query answer shared) :
      Step settings plan s { s with
        course := { s.course with shared }, fetching := .working (resume answer),
        asked := ⟨query, answer⟩ :: s.asked }
  | finish {s : Handover} {memory : BypassRanges}
      {outcome : Except (Abort FetchError) Fetcher.Outcome}
      (h : s.fetching = .working (.done memory outcome)) :
      Step settings plan s { s with fetching := .resting memory }
  /-- An iteration is given up while it waits. -/
  | abandon {s : Handover} {memory : BypassRanges} {query : Query}
      {resume : query.Answer →
        Run Surroundings BypassRanges (Except (Abort FetchError) Fetcher.Outcome)}
      (h : s.fetching = .working (.wait memory query resume)) :
      Step settings plan s { s with fetching := .resting memory }

/-- A state that a new walker and a new fetcher can reach which find an empty cache. -/
inductive Reachable (settings : WalkerSettings) (plan : Fetcher.Plan) (bypass : BypassRanges) :
    Handover → Prop
  | start {shared : FeedState} (hcache : shared.cache.entries = []) :
      Reachable settings plan bypass {
        course := { shared, phase := .resting (Walker.new settings) }, fetching := .resting bypass }
  | step {s s' : Handover} (h : Reachable settings plan bypass s) (hstep : Step settings plan s s') :
      Reachable settings plan bypass s'

/-- The fetcher, which remembers some bypass ranges, asks for the block at a point. -/
def Fetches (s : Handover) (remembered : BypassRanges) (point : Point) : Prop :=
  ∃ resume, s.fetching = .working (.wait remembered (.fetchBlock point) resume)

/-- The fetcher has read a tip under its height, where the walker has written it. -/
structure Passed (s : Handover) (tip : Tip) : Prop where
  written : (heightKey tip.number, tip.toCacheText) ∈ s.course.written
  read : Fetcher.Read s.asked tip.number tip

/-- What every step preserves. -/
structure Invariant (settings : WalkerSettings) (plan : Fetcher.Plan) (s : Handover) : Prop where
  course : s.course.Bounded settings
  fetching : match s.fetching with
    | .resting _ => True
    | .working run => run.Keeps (Fetcher.readiness plan) (fun _ _ _ => True) s.asked
  read : ∀ key text, ⟨.readCache key, .ok (some text)⟩ ∈ s.asked → (key, text) ∈ s.course.written

/-! ## Steps -/

/-- What an iteration may ask does not add to the cache. -/
theorem cache_subset_of_allows {memory : BypassRanges} {query : Query} {answer : query.Answer}
    {shared shared' : FeedState} (hallows : (Fetcher.readiness plan).allows s.asked memory query)
    (hanswer : shared.Answers query answer shared') : shared'.cache.entries ⊆ shared.cache.entries := by
  intro entry hmem
  rcases FeedState.mem_cache_of_answers hanswer hmem with hmem | ⟨lifetime, rfl⟩
  · exact hmem
  · exact hallows.elim

/-- The invariant holds at the beginning. -/
theorem Invariant.start {shared : FeedState} (hcache : shared.cache.entries = []) :
    Invariant settings plan {
      course := { shared, phase := .resting (Walker.new settings) }, fetching := .resting bypass } where
  course := .start hcache
  fetching := trivial
  read := nofun

/-- The invariant is kept by every step. -/
theorem Invariant.step (h : s.Invariant settings plan) (hstep : Step settings plan s s') :
    s'.Invariant settings plan := by
  have hfetching := h.fetching
  cases hstep with
  | walk hwalk =>
    exact ⟨h.course.step hwalk, hfetching, fun key text hmem => hwalk.written_subset (h.read key text hmem)⟩
  | begin => exact ⟨h.course, Fetcher.keeps_iterate _, nofun⟩
  | answer hwait hanswer =>
    rw [hwait] at hfetching
    refine ⟨h.course.share (cache_subset_of_allows hfetching.allows hanswer), hfetching.answer rfl,
      fun key text hmem => ?_⟩
    rcases List.mem_cons.mp hmem with heq | hmem
    · cases heq
      obtain ⟨entry, hentry, rfl⟩ := FeedState.exists_mem_of_answers hanswer rfl
      exact h.course.holds _ hentry
    · exact h.read key text hmem
  | finish => exact ⟨h.course, trivial, h.read⟩
  | abandon => exact ⟨h.course, trivial, h.read⟩

/-- The invariant holds in every state that can be reached. -/
theorem invariant_of_reachable (h : Reachable settings plan bypass s) : s.Invariant settings plan := by
  induction h with
  | start hcache => exact .start hcache
  | step _ hstep ih => exact ih.step hstep

/-- A tip that has been read under a height is one of this height, which the walker has written. -/
theorem Invariant.passed (h : s.Invariant settings plan) {height : UInt64} {tip : Tip}
    (hread : Fetcher.Read s.asked height tip) : tip.number = height ∧ s.Passed tip := by
  obtain ⟨text, hmem, htip⟩ := hread
  have hwritten := h.read _ _ hmem
  rcases h.course.records _ hwritten with hcursor | ⟨other, heq⟩
  · exact absurd hcursor (heightKey_ne_cursorKey height)
  · obtain ⟨hkey, rfl⟩ := Prod.mk.inj heq
    obtain rfl := heightKey_inj.mp hkey
    rw [Tip.ofCacheText?_toCacheText] at htip
    cases htip
    exact ⟨rfl, hwritten, _, hmem, Tip.ofCacheText?_toCacheText _⟩

/-- A walk asks the node only while its cursor is below what is confirmed by the best height that it has
read first, and then for at least one and at most a batch of points. It writes no tip above that height, and
nobody else writes any. The fetcher asks for a block only once it has read the tips of all heights of the
window that it has planned; the walker has written each of them under its height. The block is that of a
height whose place among those wanted is the number of the blocks that have been asked for before, and the
point is that of the tip which has been written and read under this height. -/
theorem handover_of_reachable (h : Reachable settings plan bypass s) :
    (∀ began query, s.course.HasAsked .advance began query → query.isElsewhere = true →
      ∃ best limit, Walker.BestRead s.course.events best ∧
        query = .pointsAfter began.cursor.point limit ∧ 1 ≤ limit ∧ limit ≤ settings.maxBatchSize ∧
        began.cursor.number < Word.satSub best settings.confirmationDepth) ∧
    (∀ call began height text lifetime,
      s.course.HasAsked call began (.writeCache (heightKey height) text lifetime) →
      call = .advance ∧ ∃ best, Walker.BestRead s.course.events best ∧
        height ≤ Word.satSub best settings.confirmationDepth) ∧
    ∀ remembered point, s.Fetches remembered point →
      ∃ window last, Fetcher.Planned plan s.asked window ∧ window.last = .ok last ∧
        (∀ height ∈ Window.heightsBetween window.start last,
          ∃ tip, tip.number = height ∧ s.Passed tip) ∧
        ∃ height ∈ Window.heightsBetween window.start last,
          (Fetcher.wantedHeights plan remembered s.asked window last)[Fetcher.fetchesIn s.asked]?
            = some height ∧
          ∃ tip, tip.number = height ∧ s.Passed tip ∧ tip.point = point := by
  have hinv := invariant_of_reachable h
  refine ⟨fun began query hasked helsewhere => ?_, fun call began height text lifetime hasked => ?_,
    fun remembered point hfetches => ?_⟩
  · have hbounds := hinv.course.bounds hasked
    cases query with
    | pointsAfter start limit =>
      obtain ⟨-, rfl, best, hread, hpos, hbatch, hroom⟩ := hbounds
      rw [UInt64.lt_iff_toNat_lt, UInt64.toNat_zero] at hpos
      refine ⟨best, limit, hread, rfl, ?_, hbatch, ?_⟩
      · rw [UInt64.le_iff_toNat_le]
        exact hpos
      · rw [UInt64.lt_iff_toNat_lt]
        omega
    | findIntersect => cases hbounds
    | tipHeader | fetchBlock | hints => exact hbounds.elim
    | _ => cases helsewhere
  · rcases hinv.course.bounds hasked with hcursor | ⟨tip, hkey, -, hcall, best, hread, hle⟩
    · exact absurd hcursor (heightKey_ne_cursorKey height)
    · rw [heightKey_inj.mp hkey]
      exact ⟨hcall, best, hread, hle⟩
  · obtain ⟨resume, hwait⟩ := hfetches
    have hfetching := hinv.fetching
    rw [hwait] at hfetching
    obtain ⟨window, last, height, tip, hdue, hpoint⟩ := hfetching.allows
    obtain ⟨hnumber, hpassed⟩ := hinv.passed hdue.read
    refine ⟨window, last, hdue.planned, hdue.ends, fun other hother => ?_, height, hdue.within, hdue.place,
      tip, hnumber, hpassed, hpoint⟩
    obtain ⟨other', hread⟩ := hdue.ready other hother
    exact ⟨other', hinv.passed hread⟩

/-! ## Rehearsed steps -/

open Simulation (World Followed ScriptedNode answers_of_answer? follow follow_induction)

/-- The course of the walker goes on while the fetcher stays where it is. -/
theorem Reachable.walk {course : Walker.Course} (h : Reachable settings plan bypass s)
    (hpath : Walker.Course.GoesOn .numbering settings s.course course) :
    Reachable settings plan bypass { s with course } := by
  induction hpath with
  | refl => exact h
  | tail _ hstep ih => exact ih.step (.walk hstep)

/-- An iteration that is followed through a world is one of the fetcher. -/
theorem Reachable.iterate {w : World} {memory : BypassRanges}
    {f : Followed BypassRanges (Except (Abort FetchError) Fetcher.Outcome)}
    (h : Reachable settings plan bypass s) (hrests : s.fetching = .resting memory)
    (hshared : s.course.shared = w.toFeedState)
    (hfollow : follow (fun _ _ _ _ => true) w [] ((Fetcher.iterate plan).start memory) = some f) :
    ∃ s', Reachable settings plan bypass s' ∧
      s'.course = { s.course with shared := f.world.toFeedState } ∧ s'.fetching = .working f.run ∧
      s'.asked = f.events := by
  refine follow_induction (motive := fun w events run => ∃ s', Reachable settings plan bypass s' ∧
    s'.course = { s.course with shared := w.toFeedState } ∧ s'.fetching = .working run ∧
    s'.asked = events) ?_ ⟨_, h.step (.begin hrests), ?_, rfl, rfl⟩ hfollow
  · rintro w w' events memory query resume answer hanswer - ⟨s', hreach, hcourse, hfetching, rfl⟩
    have hanswers : s'.course.shared.Answers query answer w'.toFeedState := by
      rw [hcourse]
      exact .of_world (answers_of_answer? hanswer)
    refine ⟨_, hreach.step (.answer hfetching hanswers), ?_, rfl, rfl⟩
    simp only [hcourse]
  · rw [← hshared]

/-- A walker is followed into a call after other calls, and then the fetcher into its first iteration. -/
theorem exists_reachable_of_follow {world w : World} {calls : List Walker.Call} {call : Walker.Call}
    {r : Walker.Rehearsed} {f : Followed Walker (Option WalkerError)}
    {g : Followed BypassRanges (Except (Abort FetchError) Fetcher.Outcome)}
    (hcalls : Walker.Rehearsed.calls .numbering settings { world, memory := Walker.new settings } calls
      = some r)
    (hwalked : follow (Walker.provides .numbering) r.world [] (call.work settings r.memory) = some f)
    (hfetched : follow (fun _ _ _ _ => true) w [] ((Fetcher.iterate plan).start bypass) = some g)
    (hcache : world.cache.entries = []) (hshared : f.world.toFeedState = w.toFeedState) :
    ∃ s, Reachable settings plan bypass s ∧ s.course.phase = .working call r.memory f.run ∧
      s.course.events = f.events ∧ s.fetching = .working g.run ∧ s.asked = g.events := by
  obtain ⟨c₁, hpath₁, hshows₁⟩ := (Walker.Rehearsed.shows_start world (Walker.new settings)).calls hcalls
  obtain ⟨c₂, hpath₂, hshelf, hphase, hevents⟩ := hshows₁.begin trivial hwalked
  have hreach : Reachable settings plan bypass { course := c₂, fetching := .resting bypass } :=
    Reachable.walk (.start hcache) (hpath₁.trans hpath₂)
  have hfound : c₂.shared = w.toFeedState := (congrArg Walker.Shelf.shared hshelf).trans hshared
  obtain ⟨s, hreach, hcourse, hfetching, hasked⟩ := hreach.iterate rfl hfound hfetched
  refine ⟨s, hreach, ?_, ?_, hfetching, hasked⟩
  · rw [hcourse]
    exact hphase
  · rw [hcourse]
    exact hevents

/-- The points that an event asks for. -/
def pointsAsked? : Event → Option (Point × UInt64)
  | ⟨.pointsAfter start limit, _⟩ => some (start, limit)
  | _ => none

/-- The key that an event writes under. -/
def keyWritten? : Event → Option String
  | ⟨.writeCache key _ _, _⟩ => some key
  | _ => none

/-- The memory of work that waits for a block, and the point of this block. -/
def pointFetched? {σ α : Type} : Run Surroundings σ α → Option (σ × Point)
  | .wait memory (.fetchBlock point) _ => some (memory, point)
  | _ => none

theorem exists_answer_of_pointsAsked? {events : List Event} {start : Point} {limit : UInt64}
    (h : (start, limit) ∈ events.filterMap pointsAsked?) :
    ∃ answer, ⟨.pointsAfter start limit, answer⟩ ∈ events := by
  obtain ⟨⟨query, answer⟩, hmem, heq⟩ := List.mem_filterMap.mp h
  cases query with
  | pointsAfter =>
    cases heq
    exact ⟨answer, hmem⟩
  | _ => cases heq

theorem exists_answer_of_keyWritten? {events : List Event} {key : String}
    (h : key ∈ events.filterMap keyWritten?) :
    ∃ text lifetime answer, ⟨.writeCache key text lifetime, answer⟩ ∈ events := by
  obtain ⟨⟨query, answer⟩, hmem, heq⟩ := List.mem_filterMap.mp h
  cases query with
  | writeCache =>
    cases heq
    exact ⟨_, _, answer, hmem⟩
  | _ => cases heq

theorem exists_wait_of_pointFetched? {σ α : Type} {run : Run Surroundings σ α} {memory : σ} {point : Point}
    (h : pointFetched? run = some (memory, point)) :
    ∃ resume, run = .wait memory (.fetchBlock point) resume := by
  cases run with
  | done => cases h
  | wait memory query resume =>
    cases query with
    | fetchBlock =>
      cases h
      exact ⟨resume, rfl⟩
    | _ => cases h

/-- A walker that leaves two blocks alone has walked from the second of five blocks to the third one, and the
fetcher has got the first one and asks for the second. -/
theorem handover_of_reachable_sample :
    ∃ s began text lifetime, Reachable { confirmationDepth := 2, maxBatchSize := 2 }
        { settings := { initialHeight := 1, maxBatchSize := 2 } } ⟨[]⟩ s ∧
      s.course.HasAsked .advance began (.pointsAfter (Tip.sample 2 0).point 1) ∧
      s.course.HasAsked .advance began (.writeCache (heightKey 3) text lifetime) ∧
      s.Fetches ⟨[]⟩ (Tip.sample 2 0).point ∧ Fetcher.fetchesIn s.asked = 1 ∧
      (∃ best, Walker.BestRead s.course.events best ∧ began.cursor.number < Word.satSub best 2) ∧
      (∃ best, Walker.BestRead s.course.events best ∧ 3 ≤ Word.satSub best 2) ∧
      ∃ window last tip, (Fetcher.wantedHeights { settings := { initialHeight := 1, maxBatchSize := 2 } }
        ⟨[]⟩ s.asked window last)[1]? = some tip.number ∧ s.Passed tip ∧
        tip.point = (Tip.sample 2 0).point := by
  let first : Walker.Rehearsed := {
    world := {
      heights := { best := 5 }
      outbox := .new 8
      node := { chain := ScriptedNode.sampleChain 5 } }
    memory := Walker.new { confirmationDepth := 2, maxBatchSize := 2 } }
  -- the node answers the walker, and the fetcher once
  have hrun : ((first.calls .numbering { confirmationDepth := 2, maxBatchSize := 2 }
        [.advance, .advance, .advance]).bind fun r =>
      (follow (Walker.provides .numbering) r.world []
        (Walker.Call.advance.work { confirmationDepth := 2, maxBatchSize := 2 } r.memory)).bind fun f =>
      (follow (fun _ _ _ _ => true)
        { f.world with node := { f.world.node with script := [{}, { hang := true }] } } []
        ((Fetcher.iterate { settings := { initialHeight := 1, maxBatchSize := 2 } }).start ⟨[]⟩)).map
        fun g => (f.events.filterMap pointsAsked?, f.events.filterMap keyWritten?, pointFetched? g.run,
          Fetcher.fetchesIn g.events))
      = some ([((Tip.sample 2 0).point, 1)], [cursorKey, heightKey 3],
          some (⟨[]⟩, (Tip.sample 2 0).point), 1) := by
    decide +kernel
  obtain ⟨r, hcalls, hr⟩ := Option.bind_eq_some_iff.mp hrun
  obtain ⟨f, hwalked, hf⟩ := Option.bind_eq_some_iff.mp hr
  obtain ⟨g, hfetched, hg⟩ := Option.map_eq_some_iff.mp hf
  obtain ⟨hpoints, hkeys, hpoint, hcount⟩ : f.events.filterMap pointsAsked? = [((Tip.sample 2 0).point, 1)] ∧
      f.events.filterMap keyWritten? = [cursorKey, heightKey 3] ∧
      pointFetched? g.run = some (⟨[]⟩, (Tip.sample 2 0).point) ∧ Fetcher.fetchesIn g.events = 1 := by
    simpa only [Prod.mk.injEq] using hg
  obtain ⟨s, hreach, hphase, hevents, hfetching, hevents'⟩ :=
    exists_reachable_of_follow hcalls hwalked hfetched rfl rfl
  obtain ⟨next, hnext⟩ : ∃ answer, ⟨.pointsAfter (Tip.sample 2 0).point 1, answer⟩ ∈ s.course.events :=
    exists_answer_of_pointsAsked? (by rw [hevents, hpoints]; exact List.mem_singleton_self _)
  obtain ⟨text, lifetime, stored, hstored⟩ : ∃ text lifetime answer,
      ⟨.writeCache (heightKey 3) text lifetime, answer⟩ ∈ s.course.events :=
    exists_answer_of_keyWritten? (by rw [hevents, hkeys]; exact List.mem_cons_of_mem _ List.mem_cons_self)
  have hasked : s.course.HasAsked .advance r.memory (.pointsAfter (Tip.sample 2 0).point 1) :=
    ⟨f.run, hphase, .inl ⟨next, hnext⟩⟩
  have hwrites : s.course.HasAsked .advance r.memory (.writeCache (heightKey 3) text lifetime) :=
    ⟨f.run, hphase, .inl ⟨stored, hstored⟩⟩
  obtain ⟨resume, hwait⟩ := exists_wait_of_pointFetched? hpoint
  have hfetches : s.Fetches ⟨[]⟩ (Tip.sample 2 0).point := ⟨resume, by rw [hfetching, hwait]⟩
  obtain ⟨hwalks, hbounds, hpassed⟩ := handover_of_reachable hreach
  obtain ⟨best, -, hread, -, -, -, hbelow⟩ := hwalks _ _ hasked rfl
  obtain ⟨-, best', hread', hwithin⟩ := hbounds _ _ _ _ _ hwrites
  obtain ⟨window, last, -, -, -, _, -, hplace, tip, rfl, htip, hat⟩ := hpassed _ _ hfetches
  rw [hevents', hcount] at hplace
  exact ⟨s, r.memory, text, lifetime, hreach, hasked, hwrites, hfetches, by rw [hevents', hcount],
    ⟨best, hread, hbelow⟩, ⟨best', hread', hwithin⟩, window, last, tip, by rw [hevents', hplace], htip, hat⟩

end Handover

end BlockFeed
