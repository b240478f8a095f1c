import Std.Async.Select
import Std.Async.Timer
import Std.Sync.CancellationToken

/-!
# Waiting in real time

Times are those of a clock in milliseconds that never goes back. A wait ends with what is waited
for, or because a time has come, or because the work it belongs to is abandoned: the program has been
told to stop, or the round of work has exceeded its limit.
-/

namespace BlockFeed.Live

open Std.Async

/-- How a wait ends. -/
inductive Arrival (α : Type) where
  | came (value : α)
  /-- The time of the wait has come first. -/
  | late
  /-- The work is abandoned. -/
  | abandoned

/-- What makes work be abandoned. -/
structure Patience where
  /-- The signal to stop, if it is heeded. -/
  stopping : Option Std.CancellationToken
  /-- The time at which the round of work exceeds its limit. -/
  roundEnd : Option Nat := none

namespace Patience

/-- A source that gives something when a time has come. -/
def alarm (time : Nat) : Async (Selector Unit) := do
  let now ← IO.monoMsNow
  Selector.sleep ⟨((time - now : Nat) : Int)⟩

/-- A source that gives what a task yields. -/
def ofTask {α : Type} (task : AsyncTask α) : Selector α where
  tryFn := do
    if ← IO.hasFinished task then return some (← MonadAwait.await task) else return none
  registerFn waiter := do
    discard <| IO.mapTask (t := task) fun outcome => do
      waiter.race (return ()) fun promise => promise.resolve outcome
  unregisterFn := return ()

/-- Waits for a source, and at most until a time. -/
def await {α : Type} (p : Patience) (time : Option Nat) (source : Selector α) : IO (Arrival α) :=
  let choice : Async (Arrival α) := do
    let mut cases : Array (Selectable (Arrival α)) := #[.case source fun a => return .came a]
    if let some token := p.stopping then
      cases := cases.push (.case token.selector fun _ => return .abandoned)
    if let some limit := p.roundEnd then
      cases := cases.push (.case (← alarm limit) fun _ => return .abandoned)
    if let some limit := time then
      cases := cases.push (.case (← alarm limit) fun _ => return .late)
    Selectable.one cases
  choice.block

/-- Waits until a time; false if the work is abandoned before. -/
def sleepUntil (p : Patience) (time : Nat) : IO Bool := do
  match ← p.await none (← (alarm time).block) with
  | .came _ => return true
  | _ => return false

/-- The work is abandoned by now. -/
def isOver (p : Patience) : IO Bool := do
  if let some token := p.stopping then
    if ← token.isCancelled then return true
  match p.roundEnd with
  | some limit => return limit ≤ (← IO.monoMsNow)
  | none => return false

end Patience

end BlockFeed.Live
