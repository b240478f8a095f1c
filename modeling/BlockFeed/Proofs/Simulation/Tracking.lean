import BlockFeed.Proofs.Node.Calls
import BlockFeed.Simulation.Network

/-!
# The tracker of a simulated network

The tracker of a simulated network is told by the transcript of the call that is carried out in it
(`Caller.tracker_ask`, `Caller.Tracks`). So a call to a node that has ended has left it as it was, whatever the
peers do (`Network.tracker_carryOutOne`).
-/

namespace BlockFeed

theorem Tracker.tryEnter_snd (t : Tracker) : t.tryEnter.2 = t.after ⟨.tryGate, t.tryEnter.1⟩ := by
  unfold tryEnter
  split
  · rename_i hopening
    simp [after, force, hopening]
  · rfl

namespace Simulation

variable {σ α : Type}

theorem Network.tracker_nextGreeting (n : Network) : n.nextGreeting.2.tracker = n.tracker := by
  unfold nextGreeting
  split <;> rfl

theorem Network.tracker_of_converse {τ ε : Type} {n next : Network} {index : Nat} {x : Exchange τ ε α}
    {outcome : Option (Except ε α)} (h : n.converse index x = (outcome, next)) : next.tracker = n.tracker :=
  (congrArg (fun result => result.2.tracker) h).symm

namespace Caller

variable {n : Network} {c : Caller σ α}

theorem tracker_connect (n : Network) (c : Caller σ α) (address : String) (limit : Duration) :
    (connect n c address limit).2.1.tracker = n.tracker := by
  have hgreeting := n.tracker_nextGreeting
  unfold connect
  split
  · rfl
  · cases hnext : n.nextGreeting with
    | mk greeting next =>
      rw [hnext] at hgreeting
      cases greeting <;> exact hgreeting

/-- The tracker changes with every question as its answer tells. -/
theorem tracker_ask (n : Network) (c : Caller σ α) (query : Link.Query) :
    (c.ask n query).2.1.tracker = n.tracker.after ⟨query, (c.ask n query).1.answer⟩ := by
  cases query with
  | tryGate => exact n.tracker.tryEnter_snd
  | connect address limit => exact tracker_connect n c address limit
  | negotiate magic limit =>
    show (c.ask n (.negotiate magic limit)).2.1.tracker = n.tracker
    dsimp only [ask]
    split <;> exact Network.tracker_of_converse ‹_›
  | converse conversation =>
    show (c.ask n (.converse conversation)).2.1.tracker = n.tracker
    dsimp only [ask]
    split <;> exact Network.tracker_of_converse ‹_›
  | _ => rfl

/-- A call has come this far with a transcript that tells how the tracker has changed since. -/
def Tracks (start : Run Link σ (Except NodeError α)) (t : Tracker) (n : Network) (c : Caller σ α) : Prop :=
  ∃ log, start.Reaches log c.next ∧ n.tracker = t.afterAll log

theorem tracks_advance (n : Network) (c : Caller σ α) (run : Run Link σ (Except NodeError α)) :
    Tracks run n.tracker (c.advance n run).1 (c.advance n run).2 := by
  induction run generalizing n c with
  | done memory value => exact ⟨[], .refl _, rfl⟩
  | wait memory query resume ih =>
    have hask := tracker_ask n c query
    unfold advance
    cases hasked : c.ask n query with
    | mk due asked =>
      obtain ⟨n', c'⟩ := asked
      rw [hasked] at hask
      dsimp only at hask ⊢
      split
      · exact ⟨[⟨query, due.answer⟩], .wait _ (.refl _), hask⟩
      · obtain ⟨log, hreaches, htracker⟩ := ih due.answer n' c'
        refine ⟨⟨query, due.answer⟩ :: log, .wait _ hreaches, ?_⟩
        rw [htracker, hask]
        rfl

theorem Tracks.turn {start : Run Link σ (Except NodeError α)} {t : Tracker} (h : Tracks start t n c) :
    Tracks start t (c.turn n).1 (c.turn n).2 := by
  unfold Caller.turn
  split
  · obtain ⟨log, hreaches, htracker⟩ := h
    obtain ⟨more, hmore, htracker'⟩ := tracks_advance n c c.next
    refine ⟨log ++ more, hreaches.trans hmore, ?_⟩
    rw [htracker', htracker, Tracker.afterAll_append]
  · exact h

/-- A call by itself goes on from turn to turn. -/
theorem Tracks.runAll {start : Run Link σ (Except NodeError α)} {t : Tracker} (h : Tracks start t n c)
    (turns : Nat) : ∃ c', (Caller.runAll turns n [c]).2 = [c']
      ∧ Tracks start t (Caller.runAll turns n [c]).1 c' := by
  induction turns generalizing n c with
  | zero => exact ⟨c, rfl, h⟩
  | succ turns ih =>
    unfold Caller.runAll
    split
    · rename_i time _
      have hlater : Tracks start t { n with clock := max n.clock time } c := h
      exact ih hlater.turn
    · exact ⟨c, rfl, h⟩

theorem exists_ends_of_outcome {start : Run Link σ (Except NodeError α)} {t : Tracker}
    (h : Tracks start t n c) {outcome : Except NodeError α} (houtcome : c.outcome? = some outcome) :
    ∃ log memory, start.Ends log memory outcome ∧ n.tracker = t.afterAll log := by
  obtain ⟨log, hreaches, htracker⟩ := h
  unfold outcome? at houtcome
  split at houtcome
  · rename_i memory value _ hnext
    cases houtcome
    rw [hnext] at hreaches
    exact ⟨log, memory, hreaches, htracker⟩
  · cases houtcome

end Caller

/-- A call that has ended has a transcript, which tells how the tracker has changed. -/
theorem Network.exists_ends_of_carryOutOne {n : Network} {memory : σ} {call : Attempt σ α}
    {outcome : Except NodeError α} (h : (n.carryOutOne memory call).2 = some outcome) :
    ∃ log after, (call.start memory).Ends log after outcome
      ∧ (n.carryOutOne memory call).1.tracker = n.tracker.afterAll log := by
  have hstart : Caller.Tracks (call.start memory) n.tracker n
      { next := call.start memory, time := some n.clock } := ⟨[], .refl _, rfl⟩
  obtain ⟨c, hc, htracks⟩ := hstart.runAll Caller.turnLimit
  have houtcome : c.outcome? = some outcome := by
    have hsingle : (n.carryOutOne memory call).2
        = ((Caller.runAll Caller.turnLimit n [{ next := call.start memory, time := some n.clock }]).2.map
            Caller.outcome?).head?.join := rfl
    rw [hsingle, hc] at h
    exact h
  exact Caller.exists_ends_of_outcome htracks houtcome

/-- A call to a node that has ended leaves the tracker as it was, whatever the peers do. -/
theorem Network.tracker_carryOutOne {n : Network} {memory : σ} {s : NodeSettings} {call : NodeCall}
    {outcome : Except NodeError call.Result} (h : (n.carryOutOne memory (call.run s)).2 = some outcome) :
    (n.carryOutOne memory (call.run s)).1.tracker = n.tracker := by
  obtain ⟨log, after, hends, htracker⟩ := exists_ends_of_carryOutOne h
  rw [htracker]
  exact (NodeCall.balanced_of_ends hends).settled n.tracker

end Simulation

end BlockFeed
