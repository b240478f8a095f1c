import BlockFeed.Proofs.Fetcher.Confined
import BlockFeed.Proofs.Fetcher.Scene

/-!
# Iterations that come to nothing

An iteration that does not hand a batch on leaves nothing behind that matters: no block has entered the
queue, the height up to which everything has been handed on and the bypass ranges are as before, and all
later iterations do what they would have done without it (`unnoticed_of_failed`). The node, the hint service
and the cache may have answered it as they like, or failed.

An iteration keeps the contract `restraint`. Before its first block or its height is handed on it can fail,
and remembers what it did before (`restrained_iterate`); afterwards it cannot fail any more, as long as the
consumer is there. Up to that moment it only looks, and the shared values answer alike with it and without
it (`untouched_of_play`).
-/

namespace BlockFeed.Fetcher

open Surroundings (Query)
open Simulation (ScriptedNode)

/-! ## Restraint of an iteration -/

/-- What is asked of an iteration, in worlds that tell whether a block or a height has been handed on: it
writes nothing that others share with it. The queue takes every block. -/
def restraint : Contract Surroundings BypassRanges Bool where
  allows _ _ query := AsksFor (fun _ => True) True query
  answers handed query answer handed' :=
    match query, answer with
    | .send _, taken => taken = true ∧ handed' = true
    | .commit _, _ => handed' = true
    | _, _ => handed' = handed

/-- An outcome that a batch has been handed on. -/
def IsDispatched (outcome : Except (Abort FetchError) Outcome) : Prop :=
  ∃ window fetched buffered, outcome = .ok (.dispatched window fetched buffered)

/-- Nothing has been handed on, and what is remembered is as before. -/
abbrev Untouched (memory : BypassRanges) (handed : Bool) (memory' : BypassRanges) : Prop :=
  handed = false ∧ memory' = memory

section
variable {α : Type} {plan : Plan} {memory : BypassRanges} {window : Window} {latest : UInt64}

/-- Work that only looks. -/
def Looks (task : Task α) : Prop :=
  ∀ memory, task.Confined (· = memory) (AsksFor (fun _ => True) False)

/-- Work that only looks leaves everything untouched. -/
theorem Looks.keeps {task : Task α} (h : Looks task) :
    task.Keeps restraint (fun handed memory' _ => Untouched memory handed memory')
      (fun handed memory' _ => Untouched memory handed memory') false memory := by
  refine (h memory).keeps ?_ ?_ ?_ ?_
  · intro handed memory' query _ _ hasks
    cases query with
    | send | commit => exact hasks.elim
    | _ => exact hasks
  · intro handed query answer handed' hhanded hasks hanswers
    cases query with
    | send | commit => exact hasks.elim
    | _ => exact hanswers.trans hhanded
  · rfl
  · rfl

/-- Work that hands a batch on or leaves everything untouched. -/
def Restrained (memory : BypassRanges) (task : Task Outcome) : Prop :=
  task.Keeps restraint
    (fun handed memory' outcome => Untouched memory handed memory' ∨ IsDispatched (.ok outcome))
    (fun handed memory' _ => Untouched memory handed memory') false memory

/-- Work that only looks may come first. -/
theorem Looks.restrained {task : Task α} {f : α → Task Outcome} (h : Looks task)
    (hf : ∀ value, Restrained memory (f value)) : Restrained memory (task >>= f) := by
  refine Routine.keeps_bind.mpr (h.keeps.mono ?_ fun _ _ _ huntouched => huntouched)
  rintro handed memory' value ⟨rfl, rfl⟩
  exact hf value

theorem restrained_pure (outcome : Outcome) : Restrained memory (Pure.pure outcome) :=
  Routine.keeps_pure.mpr (.inl ⟨rfl, rfl⟩)

/-- Every block enters the queue. -/
theorem keeps_sendAll_restraint (blocks : List Block) (handed : Bool) :
    (sendAll blocks).Keeps restraint (fun _ _ _ => True) (fun _ _ _ => False) handed memory := by
  induction blocks generalizing handed with
  | nil => exact Routine.keeps_pure.mpr trivial
  | cons block rest ih =>
    refine Routine.keeps_bind.mpr (Routine.keeps_ask.mpr ⟨trivial, ?_⟩)
    rintro taken handed' ⟨rfl, rfl⟩
    exact ih true

/-- A batch may be refused before it is handed on, but not afterwards. -/
theorem keeps_enqueue_restraint (blocks : List Block) (height : UInt64) :
    (enqueue blocks height).Keeps restraint (fun _ _ _ => True)
      (fun handed memory' _ => Untouched memory handed memory') false memory := by
  refine Routine.keeps_bind.mpr (Routine.keeps_ask.mpr ⟨trivial, ?_⟩)
  rintro previous handed rfl
  refine Routine.keeps_bind.mpr (Routine.keeps_ofExcept.mpr ?_)
  cases Outbox.checkBatch previous blocks height with
  | error refusal => exact ⟨rfl, rfl⟩
  | ok =>
    refine Routine.keeps_bind.mpr ((keeps_sendAll_restraint blocks false).mono ?_ fun _ _ _ => False.elim)
    intro handed memory' _ _
    exact Routine.keeps_ask.mpr ⟨trivial, fun _ _ _ => trivial⟩

theorem restrained_dispatch : Restrained memory (dispatch plan window latest) := by
  refine Looks.restrained (fun _ => confined_windowTips) fun tips => ?_
  refine Looks.restrained (fun _ => Routine.confined_ask trivial) fun started => ?_
  refine Looks.restrained (fun _ => confined_consultHints) fun hint => ?_
  refine Looks.restrained (fun _ => confined_fetchPlanned (fun _ _ _ => trivial) hint) ?_
  rintro ⟨blocks, height⟩
  refine Routine.keeps_bind.mpr ((keeps_enqueue_restraint blocks height).mono ?_
    fun _ _ _ huntouched => huntouched)
  intro handed memory' _ _
  -- nothing fails from here on
  refine Routine.keeps_bind.mpr (Routine.keeps_remember.mpr ?_)
  refine Routine.keeps_bind.mpr (Routine.keeps_ask.mpr ⟨trivial, fun _ _ _ => ?_⟩)
  refine Routine.keeps_bind.mpr (Routine.keeps_ask.mpr ⟨trivial, fun _ _ _ => ?_⟩)
  refine Routine.keeps_bind.mpr (Routine.keeps_ask.mpr ⟨trivial, fun ended _ _ => ?_⟩)
  refine Routine.keeps_bind.mpr (Routine.keeps_ask.mpr ⟨trivial, fun _ _ _ => ?_⟩)
  exact Routine.keeps_pure.mpr (.inr ⟨window, blocks.length, height, rfl⟩)

theorem restrained_iterate : Restrained memory (iterate plan) := by
  refine Looks.restrained (fun _ => confined_nextHeight) fun start => ?_
  refine Looks.restrained (fun _ => Routine.confined_ask trivial) fun free => ?_
  show Restrained memory (if min (UInt64.ofNat free) plan.settings.maxBatchSize = 0 then _ else _)
  split
  · exact restrained_pure _
  · refine Looks.restrained (fun _ => confined_latestHeight _) fun latest => ?_
    refine Looks.restrained (fun _ => Routine.confined_ofExcept _ _) fun clamped => ?_
    cases clamped with
    | none => exact restrained_pure _
    | some window => exact restrained_dispatch

end

/-! ## What is left of a failed iteration -/

/-- Nobody but the consumer itself makes it go away. -/
theorem connected_reply (s : FeedState) (now : Nat) (query : Query) :
    (s.reply now query).2.outbox.connected = s.outbox.connected := by
  cases query with
  | send block =>
    simp only [FeedState.reply, FeedState.send]
    split
    · rfl
    · split <;> rfl
  | writeCache key text lifetime =>
    obtain ⟨cache, hcache⟩ := FeedState.reply_writeCache_snd now s key text lifetime
    rw [hcache]
  | _ => rfl

/-- Where nothing is handed on the queue stays as it is. -/
theorem outbox_reply {query : Query} (h : handsOn query = false) (s : FeedState) (now : Nat) :
    (s.reply now query).2.outbox = s.outbox := by
  cases query with
  | send | commit => cases h
  | writeCache key text lifetime =>
    obtain ⟨cache, hcache⟩ := FeedState.reply_writeCache_snd now s key text lifetime
    rw [hcache]
  | _ => rfl

/-- Looking at one of two alike is not noticed. -/
theorem alike_reply_left {now : Nat} {s t : FeedState} (h : s.Alike now t) {query : Query}
    (hasks : AsksFor (fun _ => True) False query) : (s.reply now query).2.Alike now t := by
  cases query with
  | readCache key => exact ⟨h.heights, h.outbox, h.cache.get_left key⟩
  | writeCache | publishBest | publishFinalized | send | commit => exact hasks.elim
  | _ => exact ⟨h.heights, h.outbox, h.cache⟩

theorem Scene.reply_of_answer? {s s' : Scene} {query : Query} {answer : query.Answer}
    (h : s.answer? query = some (s', answer)) :
    ∃ shared, s.shared.reply s.now query = (.answered answer, shared) ∧ s' = { s with shared } := by
  unfold Scene.answer? at h
  split at h
  · rename_i hreply
    cases h
    exact ⟨_, hreply, rfl⟩
  · cases h

section
variable {s t s' : Scene} {attempt attempt' : Attempt} {handed : Bool} {happening : Happening}
  {post : Bool → BypassRanges → Except (Abort FetchError) Outcome → Prop}

/-- The shared values answer as the contract has it, and unless the answer is about handing on, the scene
after it is like the one before. -/
theorem restrained_answer {query : Query} {answer : query.Answer} {shared : FeedState}
    (hallows : AsksFor (fun _ => True) True query) (halike : handed = false → s.Alike t)
    (hconnected : s.shared.outbox.connected = true)
    (hreply : s.shared.reply s.now query = (.answered answer, shared)) :
    ∃ handed', restraint.answers handed query answer handed' ∧
      (handed' = false → handed = false ∧ Scene.Alike { s with shared } t) := by
  have hlooks (hasks : AsksFor (fun _ => True) False query) (hhanded : handed = false) :
      Scene.Alike { s with shared } t := by
    have hleft := alike_reply_left (halike hhanded).shared hasks
    rw [hreply] at hleft
    exact ⟨(halike hhanded).now, (halike hhanded).received, hleft⟩
  cases query with
  | send block =>
    refine ⟨true, ⟨?_, rfl⟩, nofun⟩
    simp only [FeedState.reply, FeedState.send, hconnected] at hreply
    split at hreply
    · contradiction
    · split at hreply
      · cases hreply
      · cases hreply
        rfl
  | commit height => exact ⟨true, rfl, nofun⟩
  | writeCache | publishBest | publishFinalized | tipHeader | pointsAfter | findIntersect =>
    exact hallows.elim
  | _ => exact ⟨handed, rfl, fun hhanded => ⟨hhanded, hlooks trivial hhanded⟩⟩

/-- An iteration keeps its contract whatever happens. Unless something has been handed on by then, what
happens to it leads to a scene that is like the one without it. -/
theorem restrained_turn (hkeeps : attempt.Keeps restraint post handed)
    (halike : handed = false → s.Alike t) (hconnected : s.shared.outbox.connected = true)
    (hturn : s.turn attempt happening = some (s', attempt')) :
    ∃ handed', attempt'.Keeps restraint post handed' ∧
      (handed' = false → handed = false ∧ s'.Alike (t.around happening)) ∧
      s'.shared.outbox.connected = true := by
  cases happening with
  | answer =>
    cases attempt with
    | done => cases hturn
    | wait memory query resume =>
      obtain ⟨⟨_, answer⟩, hanswer, hafter⟩ := Option.bind_eq_some_iff.mp hturn
      cases hafter
      obtain ⟨shared, hreply, rfl⟩ := Scene.reply_of_answer? hanswer
      have hstays : shared.outbox.connected = true := by
        have hsame := connected_reply s.shared s.now query
        rw [hreply] at hsame
        exact hsame.trans hconnected
      obtain ⟨handed', hanswers, hlooks⟩ :=
        restrained_answer hkeeps.allows halike hconnected hreply
      exact ⟨handed', hkeeps.answer hanswers, hlooks, hstays⟩
  | reply peers =>
    cases attempt with
    | done => cases hturn
    | wait memory query resume =>
      obtain ⟨answer, hanswer, hafter⟩ := Option.bind_eq_some_iff.mp hturn
      cases hafter
      refine ⟨handed, hkeeps.answer ?_, fun hhanded => ⟨hhanded, halike hhanded⟩, hconnected⟩
      cases query with
      | fetchBlock | hints => rfl
      | _ => cases hanswer
  | fault error =>
    simp only [Scene.turn] at hturn
    split at hturn
    · cases hturn
      exact ⟨handed, hkeeps.answer rfl, fun hhanded => ⟨hhanded, halike hhanded⟩, hconnected⟩
    · cases hturn
  | others query hothers =>
    cases hturn
    refine ⟨handed, hkeeps, fun hhanded => ⟨hhanded, (halike hhanded).around _⟩, ?_⟩
    exact (connected_reply s.shared s.now query).trans hconnected
  | drain limit =>
    cases hturn
    exact ⟨handed, hkeeps, fun hhanded => ⟨hhanded, (halike hhanded).around _⟩, hconnected⟩

/-- An iteration that ends without a batch has handed nothing on and remembers what it did, and leads to a
scene that is like the one without it. -/
theorem untouched_of_play {memory memory' : BypassRanges} {during : List (Nat × Happening)}
    {outcome : Except (Abort FetchError) Outcome}
    (hkeeps : attempt.Keeps restraint (Routine.ended
      (fun handed memory' outcome => Untouched memory handed memory' ∨ IsDispatched (.ok outcome))
      fun handed memory' _ => Untouched memory handed memory') handed)
    (halike : handed = false → s.Alike t) (hconnected : s.shared.outbox.connected = true)
    (hplay : play s attempt during = some (s', .done memory' outcome))
    (hfailed : ¬ IsDispatched outcome) :
    Untouched memory handed memory' ∧ s'.Alike (t.idle during) := by
  -- if something is handed on after all, the iteration cannot end like this
  induction during generalizing s t attempt handed with
  | nil =>
    cases hplay
    have huntouched : Untouched memory handed memory' := by
      cases outcome with
      | ok => exact hkeeps.resolve_right hfailed
      | error => exact hkeeps
    exact ⟨huntouched, halike huntouched.1⟩
  | cons next rest ih =>
    obtain ⟨⟨s₁, attempt₁⟩, hturn, hrest⟩ := Option.bind_eq_some_iff.mp hplay
    obtain ⟨handed₁, hkeeps₁, halike₁, hconnected₁⟩ :=
      restrained_turn hkeeps (fun hhanded => (halike hhanded).pass next.1) hconnected hturn
    obtain ⟨⟨hhanded₁, hmemory⟩, hleft⟩ :=
      ih hkeeps₁ (fun hhanded => (halike₁ hhanded).2) hconnected₁ hrest
    exact ⟨⟨(halike₁ hhanded₁).1, hmemory⟩, hleft⟩

/-- What happens without any iteration hands no block on. -/
theorem delivered_idle (hconnected : s.shared.outbox.connected = true)
    (during : List (Nat × Happening)) :
    (s.idle during).delivered = s.delivered ∧
      (s.idle during).shared.outbox.buffered = s.shared.outbox.buffered := by
  induction during generalizing s with
  | nil => exact ⟨rfl, rfl⟩
  | cons next rest ih =>
    obtain ⟨elapsed, happening⟩ := next
    have haround : ((s.pass elapsed).around happening).delivered = s.delivered ∧
        ((s.pass elapsed).around happening).shared.outbox.buffered = s.shared.outbox.buffered ∧
        ((s.pass elapsed).around happening).shared.outbox.connected = true := by
      cases happening with
      | others query hothers =>
        have houtbox := outbox_reply hothers s.shared (s.pass elapsed).now
        refine ⟨congrArg (s.received ++ ·.queue) houtbox, congrArg Outbox.buffered houtbox, ?_⟩
        exact (congrArg Outbox.connected houtbox).trans hconnected
      | drain limit =>
        refine ⟨?_, rfl, hconnected⟩
        simp [Scene.around, Scene.pass, Scene.delivered, FeedState.drain, Outbox.receive, hconnected]
      | _ => exact ⟨rfl, rfl, hconnected⟩
    obtain ⟨hdelivered, hbuffered, hstays⟩ := haround
    have hrest := ih hstays
    exact ⟨hrest.1.trans hdelivered, hrest.2.trans hbuffered⟩

/-- An iteration that ends without a batch, for whatever reason, goes unnoticed as long as the consumer is
there. It hands no block on, the height up to which everything has been handed on and the bypass ranges are
as before, and any later iterations end and hand blocks on as they would have done if it had never begun. -/
theorem unnoticed_of_failed {plan : Plan} {start : Scene} {memory memory' : BypassRanges}
    {during : List (Nat × Happening)} {outcome : Except (Abort FetchError) Outcome}
    (hconnected : start.shared.outbox.connected = true) (hcache : start.shared.cache.Distinct)
    (hplay : play start ((iterate plan).start memory) during = some (s, .done memory' outcome))
    (hfailed : ¬ IsDispatched outcome) :
    memory' = memory ∧ s.delivered = start.delivered ∧
      s.shared.outbox.buffered = start.shared.outbox.buffered ∧
      ∀ later, (iterations plan s memory' later).map seen
        = (iterations plan (start.idle during) memory later).map seen := by
  have halike : start.Alike start := ⟨rfl, rfl, rfl, rfl, .refl hcache⟩
  obtain ⟨⟨-, rfl⟩, hleft⟩ :=
    untouched_of_play restrained_iterate (fun _ => halike) hconnected hplay hfailed
  obtain ⟨hdelivered, hbuffered⟩ := delivered_idle hconnected during
  refine ⟨rfl, ?_, ?_, fun later => (hleft.iterations plan memory' later).map_seen⟩
  · rw [← hdelivered, Scene.delivered, Scene.delivered, hleft.received, hleft.shared.outbox]
  · rw [← hbuffered, hleft.shared.outbox]

end

/-- The tips of two blocks are cached, and there is room in the queue. -/
def sampleScene : Scene where
  now := 0
  shared := {
    heights := { best := 2 }
    cache := (ScriptedNode.sampleChain 2).foldl
      (fun cache block => cache.insertTip 0 block.tip 1000) {}
    outbox := .new 8 }

/-- An iteration that asks a node for two blocks, and what comes before and after that. -/
def fetchingTwo (node : ScriptedNode) (before after : Nat) : List (Nat × Happening) :=
  List.replicate before (0, .answer) ++ List.replicate 2 (0, .reply ⟨node.body, fun _ _ => none⟩)
    ++ List.replicate after (0, .answer)

/-- What a failed iteration remembers, and why it has failed. -/
def failure? : Attempt → Option (BypassRanges × Abort FetchError)
  | .done memory (.error cause) => some (memory, cause)
  | _ => none

theorem eq_done_of_failure? {attempt : Attempt} {memory : BypassRanges} {cause : Abort FetchError}
    (h : failure? attempt = some (memory, cause)) : attempt = .done memory (.error cause) := by
  unfold failure? at h
  split at h
  · cases h
    rfl
  · cases h

/-- The node does not have the second of two blocks. The next iteration hands both on. -/
theorem unnoticed_of_failed_missing :
    ∃ s memory' outcome,
      play sampleScene ((iterate { settings := { initialHeight := 1 } }).start ⟨[]⟩)
        (fetchingTwo { chain := ScriptedNode.sampleChain 1 } 6 0) = some (s, .done memory' outcome) ∧
      ¬ IsDispatched outcome ∧ memory' = ⟨[]⟩ ∧ s.delivered = [] ∧
      s.shared.outbox.buffered = none ∧
      (iterations { settings := { initialHeight := 1 } } s memory'
        [fetchingTwo { chain := ScriptedNode.sampleChain 2 } 6 8]).map (Prod.snd ∘ seen)
          = some (ScriptedNode.sampleChain 2, some 2) := by
  have hfails : ((play sampleScene ((iterate { settings := { initialHeight := 1 } }).start ⟨[]⟩)
      (fetchingTwo { chain := ScriptedNode.sampleChain 1 } 6 0)).bind fun p => failure? p.2)
        = some (⟨[]⟩, .failed (.node 2 (.notFound (.block (Tip.sample 2 0).point)))) := by
    decide +kernel
  have hagain : (iterations { settings := { initialHeight := 1 } }
      (sampleScene.idle (fetchingTwo { chain := ScriptedNode.sampleChain 1 } 6 0)) ⟨[]⟩
        [fetchingTwo { chain := ScriptedNode.sampleChain 2 } 6 8]).map (Prod.snd ∘ seen)
          = some (ScriptedNode.sampleChain 2, some 2) := by
    decide +kernel
  obtain ⟨⟨s, attempt⟩, hplay, hfailure⟩ := Option.bind_eq_some_iff.mp hfails
  obtain rfl := eq_done_of_failure? hfailure
  have hfailed (cause : Abort FetchError) : ¬ IsDispatched (.error cause) := nofun
  obtain ⟨hmemory, hdelivered, hbuffered, hlater⟩ :=
    unnoticed_of_failed rfl (by decide +kernel) hplay (hfailed _)
  refine ⟨s, _, _, hplay, hfailed _, hmemory, hdelivered, hbuffered, ?_⟩
  have hsame := congrArg (Option.map Prod.snd)
    (hlater [fetchingTwo { chain := ScriptedNode.sampleChain 2 } 6 8])
  rw [Option.map_map, Option.map_map] at hsame
  exact hsame.trans hagain

end BlockFeed.Fetcher
