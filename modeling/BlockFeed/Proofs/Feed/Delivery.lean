import BlockFeed.Proofs.Feed.Pipeline
import BlockFeed.Proofs.Simulation.TruthfulNode

/-!
# Delivery

What the consumer has received is at any moment the beginning of what it is to receive: the blocks of all
heights outside the bypass ranges from the initial one on, in order, as every later chain of the node
holds them (`Pipeline.received_of_reachable`).

This asks of the node that its chains agree but for their last blocks, and of the settings that the walk
begins at the origin and keeps to blocks that are confirmed by as many others.
-/

namespace BlockFeed

namespace Feed

/-- The feed of a configuration asks no hint service. -/
theorem hinting_of_ofConfig {config : Config} {feed : Feed} (h : ofConfig config = .ok feed) :
    feed.fetch.hinting = none ∧ feed.walker = config.walker := by
  unfold ofConfig at h
  cases hranges : config.bypassRanges with
  | error e =>
    rw [hranges] at h
    cases h
  | ok ranges =>
    rw [hranges] at h
    cases h
    exact ⟨rfl, rfl⟩

end Feed

namespace Pipeline

variable {feed : Feed} {node : History} {s : Pipeline}

/-- Blocks that have been handed on are settled. -/
theorem Invariant.settled (hinv : s.Invariant feed node) {block : Block}
    (hblock : block ∈ s.received) : node.Settled s.time block := by
  obtain ⟨past, events, hfetches⟩ := hinv.holds .fetcher
  have horderly := hfetches.stream.orderly
  obtain ⟨iteration, hiteration, hsupplied⟩ :=
    horderly.supplied block (List.mem_append_left _ hblock)
  exact ((hfetches.learnt iteration hiteration).settled hsupplied).mono hfetches.since

/-- No height is missing, repeated or out of order. -/
theorem Invariant.heights_isPrefix (hinv : s.Invariant feed node) (hhinting : feed.fetch.hinting = none) :
    s.received.map Block.height <+: feed.wantedHeights := by
  obtain ⟨past, events, hfetches⟩ := hinv.holds .fetcher
  have hdelivered := hfetches.stream.heights_isPrefix (.inl hhinting)
  apply List.IsPrefix.trans _ hdelivered
  rw [Fetcher.Stream.delivered, List.map_append]
  exact List.prefix_append _ _

/-- What the consumer has received are the blocks of the first heights that it is to receive, and each of
them is the one that the node's chain holds at its height from now on. -/
theorem received_of_reachable {config : Config} {depth : Nat}
    (hfeed : Feed.ofConfig config = .ok feed)
    (horigin : config.walker.startPoint.tip.point.isOrigin = true)
    (hzero : config.walker.startPoint.tip.number = 0)
    (hagrees : node.Agrees depth) (hdepth : depth ≤ config.walker.confirmationDepth.toNat)
    (h : Reachable feed node s) :
    s.received.map Block.height <+: feed.wantedHeights ∧
      ∀ block ∈ s.received, ∀ t, s.time ≤ t → (node t).blockAt? block.height = some block := by
  obtain ⟨hhinting, hwalker⟩ := Feed.hinting_of_ofConfig hfeed
  rw [← hwalker] at horigin hzero hdepth
  have hinv := invariant_of_reachable hagrees hdepth
    (fun _ => History.stands_of_origin horigin hzero) h
  refine ⟨hinv.heights_isPrefix hhinting, ?_⟩
  intro block hblock t ht
  exact Chain.blockAt?_eq_some_iff.mpr ⟨hinv.settled hblock t ht, rfl⟩

/-! ## Rehearsed turns -/

open Simulation (World ScriptedNode proceed proceed_induction exists_done_of_stall)

theorem turn_turn (part : Part) (first second : Activity part.Memory part.Outcome) :
    (s.turn part first).turn part second = s.turn part second := by
  unfold turn
  rw [Function.update_idem]

/-- Work that is driven to its end through a world, whose node holds the chain of the moment, is a turn
of its part. -/
theorem reachable_of_proceed {w : World} {part : Part} {memory : part.Memory}
    {run : Run Surroundings part.Memory part.Outcome} (h : Reachable feed node s)
    (hrest : s.activity part = .resting memory) (hbegins : feed.Begins part memory run)
    (hshared : s.shared = w.toFeedState) (hmirrors : History.Mirrors w (node s.time))
    (hstall : (proceed w run).2.2 = none) :
    Reachable feed node ({ s with shared := (proceed w run).1.toFeedState }.turn part
        (.resting (proceed w run).2.1.memory)) ∧
      History.Mirrors (proceed w run).1 (node s.time) := by
  obtain ⟨memory', outcome, hdone⟩ := exists_done_of_stall hstall
  have hproceed : proceed w run = ((proceed w run).1, .done memory' outcome, none) := by
    rw [← hdone, ← hstall]
  have hend : Reachable feed node ({ s with shared := (proceed w run).1.toFeedState }.turn part
        (.working s.time (.done memory' outcome))) ∧
      History.Mirrors (proceed w run).1 (node s.time) := by
    refine proceed_induction (motive := fun w run => Reachable feed node
      ({ s with shared := w.toFeedState }.turn part (.working s.time run)) ∧
        History.Mirrors w (node s.time)) ?_ ?_ hproceed
    · rintro w w' memory query resume answer hanswer ⟨hreach, hmirrors⟩
      obtain ⟨htold, hmirrors'⟩ := History.tells_of_answers hmirrors le_rfl le_rfl hanswer
      have hwaits : ({ s with shared := w.toFeedState }.turn part
          (.working s.time (.wait memory query resume))).activity part
          = .working s.time (.wait memory query resume) := Function.update_self _ _ _
      have hnext := hreach.step (.answer part hwaits (.of_world hanswer) htold)
      exact ⟨by simpa only [turn, Function.update_idem] using hnext, hmirrors'⟩
    · have hbegun := h.step (.begin part hrest hbegins)
      rw [← hshared]
      exact ⟨hbegun, hmirrors⟩
  have hdone' : (proceed w run).2.1.memory = memory' := by
    rw [hdone]
    rfl
  refine ⟨?_, hend.2⟩
  have hfinish := hend.1.step (.finish part (Function.update_self _ _ _))
  rw [turn_turn] at hfinish
  rw [hdone']
  exact hfinish

/-- A world in which parts take turns, with what they remember in between. -/
structure Rehearsed where
  world : World
  memory : (part : Part) → part.Memory

namespace Rehearsed

/-- A part works once, if its work comes to an end. -/
def turn (feed : Feed) (r : Rehearsed) (part : Part) : Option Rehearsed :=
  let (world, run, stall) := proceed r.world (feed.work part (r.memory part))
  if stall = none then some ⟨world, Function.update r.memory part run.memory⟩ else none

/-- Parts take turns. -/
def turns (feed : Feed) (r : Rehearsed) (parts : List Part) : Option Rehearsed :=
  parts.foldlM (turn feed) r

/-- What is rehearsed is a state of the pipeline. -/
structure Shows (node : History) (r : Rehearsed) (s : Pipeline) : Prop where
  shared : s.shared = r.world.toFeedState
  memory : ∀ part, s.activity part = .resting (r.memory part)
  mirrors : History.Mirrors r.world (node s.time)

variable {r r' : Rehearsed}

/-- A turn leads from a state of the pipeline to another. -/
theorem Shows.turn {part : Part} (h : r.Shows node s) (hreach : Reachable feed node s)
    (hturn : r.turn feed part = some r') :
    ∃ s', Reachable feed node s' ∧ r'.Shows node s' ∧ s'.time = s.time ∧ s'.received = s.received := by
  unfold Rehearsed.turn at hturn
  simp only at hturn
  split at hturn
  · rename_i hstall
    cases hturn
    obtain ⟨hreach', hmirrors⟩ := reachable_of_proceed hreach (h.memory part)
      (feed.begins_work part (r.memory part)) h.shared h.mirrors hstall
    refine ⟨_, hreach', ⟨rfl, ?_, hmirrors⟩, rfl, rfl⟩
    intro other
    by_cases hother : other = part
    · subst hother
      simp only [Pipeline.turn, Function.update_self]
    · simp only [Pipeline.turn, Function.update_of_ne hother]
      exact h.memory other
  · cases hturn

theorem Shows.turns {parts : List Part} (h : r.Shows node s) (hreach : Reachable feed node s)
    (hturns : r.turns feed parts = some r') :
    ∃ s', Reachable feed node s' ∧ r'.Shows node s' ∧ s'.time = s.time ∧ s'.received = s.received := by
  unfold Rehearsed.turns at hturns
  induction parts generalizing r s with
  | nil =>
    cases hturns
    exact ⟨s, hreach, h, rfl, rfl⟩
  | cons part rest ih =>
    rw [List.foldlM_cons, Option.bind_eq_bind, Option.bind_eq_some_iff] at hturns
    obtain ⟨middle, hturn, hrest⟩ := hturns
    obtain ⟨s₁, hreach₁, hshows₁, htime₁, hreceived₁⟩ := h.turn hreach hturn
    obtain ⟨s₂, hreach₂, hshows₂, htime₂, hreceived₂⟩ := ih hshows₁ hreach₁ hrest
    exact ⟨s₂, hreach₂, hshows₂, htime₂.trans htime₁, hreceived₂.trans hreceived₁⟩

/-- The node holds another chain. -/
def onChain (r : Rehearsed) (c : Chain) : Rehearsed :=
  { r with world := { r.world with node := { r.world.node with chain := c.blocks } } }

theorem Shows.pass {t : Nat} (h : r.Shows node s) : (r.onChain (node t)).Shows node { s with time := t } :=
  ⟨h.shared, h.memory, h.mirrors.1, rfl⟩

end Rehearsed

/-! ## A chain that is reorganised -/

/-- At first there are three blocks. Then the last one is replaced, and another one follows. -/
def sampleHistory : History := fun t =>
  if t = 0 then
    { blocks := ScriptedNode.sampleChain 3
      numbered := by decide +kernel
      distinct := by decide +kernel
      placed := by decide +kernel }
  else
    { blocks := (ScriptedNode.sampleChain 4).map (ScriptedNode.forkedBlock 2 1)
      numbered := by decide +kernel
      distinct := by decide +kernel
      placed := by decide +kernel }

theorem agrees_sampleHistory : sampleHistory.Agrees 1 := by
  intro s t hle height hheight
  by_cases hs : s = 0
  · subst hs
    by_cases ht : t = 0
    · rw [ht]
    · -- the chains have their first two blocks in common
      have hcommon : ∀ n < 3, (sampleHistory 0).blockAt? (UInt64.ofNat n)
          = (sampleHistory 1).blockAt? (UInt64.ofNat n) := by decide +kernel
      have hlater : sampleHistory t = sampleHistory 1 := by
        unfold sampleHistory
        rw [if_neg ht, if_neg Nat.one_ne_zero]
      have hlength : (sampleHistory 0).length = 3 := by decide +kernel
      rw [hlater, ← UInt64.ofNat_toNat (x := height)]
      exact hcommon height.toNat (by omega)
  · have ht : t ≠ 0 := by omega
    unfold sampleHistory
    rw [if_neg hs, if_neg ht]

/-- A feed that confirms blocks by another one and begins at the first height. -/
def sampleConfig : Config where
  walker := { confirmationDepth := 1 }
  fetch := { initialHeight := 1, maxBatchSize := 2 }

/-- The feed of the sample configuration. -/
def sampleFeed : Feed where
  node := sampleConfig.node
  best := .best sampleConfig.pollers.bestInterval
  finalized := .finalized sampleConfig.pollers.finalizedInterval sampleConfig.pollers.finalityDepth
  walker := sampleConfig.walker
  fetch := { settings := sampleConfig.fetch }
  bypass := ⟨[]⟩

theorem ofConfig_sampleConfig : Feed.ofConfig sampleConfig = .ok sampleFeed := by
  have hbypass : sampleConfig.bypassRanges = .ok ⟨[]⟩ := by decide +kernel
  unfold Feed.ofConfig
  rw [hbypass]
  rfl

/-- The points of two blocks are found on one chain, and their bodies on the next. -/
theorem received_of_reachable_reorganised :
    ∃ s, Reachable sampleFeed sampleHistory s ∧ s.received.map Block.height = [1, 2] ∧
      s.received.map Block.height <+: sampleFeed.wantedHeights ∧
      ∀ block ∈ s.received, ∀ t, s.time ≤ t →
        (sampleHistory t).blockAt? block.height = some block := by
  let first : Rehearsed :=
    ⟨{ outbox := Outbox.new Feed.queueCapacity, node := { chain := (sampleHistory 0).blocks } },
      sampleFeed.firstMemory⟩
  have hrun : (((first.turns sampleFeed [.poller .best, .walker, .walker, .walker]).bind fun r =>
      (r.onChain (sampleHistory 1)).turns sampleFeed [.fetcher]).map fun r =>
        (r.world.outbox.connected, r.world.outbox.queue.map Block.height)) = some (true, [1, 2]) := by
    decide +kernel
  obtain ⟨r₂, hr₂, hqueue⟩ := Option.map_eq_some_iff.mp hrun
  obtain ⟨r₁, hwalked, hfetched⟩ := Option.bind_eq_some_iff.mp hr₂
  have hfirst : first.Shows sampleHistory (start sampleFeed first.world.cache.horizon) :=
    ⟨rfl, fun _ => rfl, rfl, rfl⟩
  obtain ⟨s₁, hreach₁, hshows₁, htime₁, hreceived₁⟩ := hfirst.turns (.start _) hwalked
  have hpassed := hreach₁.step (.pass 1 (by rw [htime₁]; exact Nat.zero_le 1))
  obtain ⟨s₂, hreach₂, hshows₂, htime₂, hreceived₂⟩ := hshows₁.pass.turns hpassed hfetched
  have hdrain : s₂.shared.drain none
      = (some r₂.world.outbox.queue, (r₂.world.toFeedState.drain none).2) := by
    rw [hshows₂.shared]
    unfold FeedState.drain
    rw [(Prod.mk.inj hqueue).1]
    simp [Outbox.receive]
  have hreach := hreach₂.step (.receive none hdrain)
  refine ⟨_, hreach, ?_, ?_⟩
  · rw [hreceived₂, hreceived₁]
    exact (Prod.mk.inj hqueue).2
  · exact received_of_reachable ofConfig_sampleConfig (by decide) rfl agrees_sampleHistory (by decide)
      hreach

end Pipeline

end BlockFeed
