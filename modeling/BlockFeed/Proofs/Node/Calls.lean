import BlockFeed.Proofs.Node.Connections
import BlockFeed.Proofs.Node.Retries

/-!
# Calls end and release what they have opened

However a node and its surroundings behave, a call comes to an end after the tries that are due. Each of
them is an attempt with a time limit, which opens connections of its own, one at a time, and ends them. So
the tracker is the same after the call as it was before (`NodeCall.exists_tries_ending`).
-/

namespace BlockFeed

open Attempt (Path isConnect)

variable {σ : Type}

/-- What is asked between attempts has nothing to do with the tracker. -/
theorem Tracker.after_of_isRest {event : Link.Event} (h : isRest event = true) (t : Tracker) :
    t.after event = t := by
  obtain ⟨query, answer⟩ := event
  cases query <;> first | rfl | cases h

theorem Balanced.of_isRest {log : List Link.Event} (h : ∀ event ∈ log, isRest event = true) :
    Balanced log := by
  induction log with
  | nil => exact .nil
  | cons event rest ih =>
    rw [List.forall_mem_cons] at h
    exact (Balanced.singleton (Tracker.after_of_isRest h.1)).append (ih h.2)

/-- Tries are balanced if each of their attempts is. -/
theorem Balanced.transcript {α : Type} {tries : List (Try σ α)} (hlogs : ∀ t ∈ tries, Balanced t.log)
    (hrests : ∀ t ∈ tries, ∀ event ∈ t.rest, isRest event = true) : Balanced (Try.transcript tries) := by
  induction tries with
  | nil => exact .nil
  | cons t more ih =>
    rw [List.forall_mem_cons] at hlogs hrests
    exact (hlogs.1.append (.of_isRest hrests.1)).append (ih hlogs.2 hrests.2)

namespace NodeCall

/-- An attempt begins with its time limit. -/
theorem exists_steps_of_ends {s : NodeSettings} {call : NodeCall} {before after : σ}
    {log : List Link.Event} {outcome : Except NodeError call.Result}
    (h : ((call.limitedAttempt s).start before).Ends log after outcome) :
    ∃ steps, log = ⟨.beginAttempt s.callTimeout, ()⟩ :: steps
      ∧ ((call.attempt s).start before).Ends steps after outcome := by
  cases h with
  | wait answer h => exact ⟨_, rfl, h⟩

/-- An attempt that has ended leaves the tracker as it was. -/
theorem balanced_of_attempt_ends {s : NodeSettings} {call : NodeCall} {before after : σ}
    {log : List Link.Event} {outcome : Except NodeError call.Result}
    (h : ((call.limitedAttempt s).start before).Ends log after outcome) : Balanced log := by
  obtain ⟨steps, rfl, hends⟩ := exists_steps_of_ends h
  exact (Balanced.singleton fun _ => rfl).append (at_of_ends hends).path.balanced

/-- A call that has ended leaves the tracker as it was. -/
theorem balanced_of_ends {s : NodeSettings} {call : NodeCall} {memory after : σ}
    {log : List Link.Event} {outcome : Except NodeError call.Result}
    (h : ((call.run s).start memory).Ends log after outcome) : Balanced log := by
  obtain ⟨tries, rfl, hmade⟩ := RetryPolicy.exists_tries_of_ends h
  exact .transcript (fun t ht => balanced_of_attempt_ends (hmade.made t ht)) hmade.rests

/-- How a call ends, given what the node and all others do. -/
def ending (s : NodeSettings) (call : NodeCall) (memory : σ) (b : Behaviour Link) :
    Run.Ending Link σ (Except NodeError call.Result) :=
  ((call.run s).start memory).against b

/-- Whatever is answered, a call ends, and its transcript is that of its tries. Their number is told by their
outcomes: the first that is a success, or that the node does not have what was asked for, is the last one,
and as many attempts are made as the policy admits if there is none. At no moment is more than one connection
open in addition to those before, and it is gone in the end. Each try is an attempt that begins and ends
without a connection, and opens at most one, or two one after the other for the last header. -/
theorem exists_tries_ending (s : NodeSettings) (call : NodeCall) (memory : σ) (b : Behaviour Link) :
    ∃ tries : List (Try σ call.Result),
      (ending s call memory b).log = Try.transcript tries
      ∧ tries.getLast?.map Try.outcome = some (ending s call memory b).value
      ∧ tries.length = RetryPolicy.due s.retryPolicy.maxAttempts (tries.map Try.outcome)
      ∧ tries.length ≤ s.retryPolicy.maxAttempts
      ∧ Balanced (ending s call memory b).log
      ∧ ∀ t ∈ tries, (∀ event ∈ t.rest, isRest event = true)
        ∧ ∃ steps, t.log = ⟨.beginAttempt s.callTimeout, ()⟩ :: steps
          ∧ ((call.attempt s).start t.before).Ends steps t.after t.outcome
          ∧ Path .idle steps .idle ∧ steps.countP isConnect ≤ call.connections := by
  have hends := Run.ends_against ((call.run s).start memory) b
  obtain ⟨tries, hlog, hmade⟩ := RetryPolicy.exists_tries_of_ends hends
  refine ⟨tries, hlog, hmade.last, hmade.number, hmade.number_le, balanced_of_ends hends, fun t ht => ?_⟩
  obtain ⟨steps, hbegin, hattempt⟩ := exists_steps_of_ends (hmade.made t ht)
  have hat := at_of_ends hattempt
  exact ⟨hmade.rests t ht, steps, hbegin, hattempt, hat.path, hat.connects_le⟩

end NodeCall

end BlockFeed
