import Mathlib.Logic.Relation
import BlockFeed.Proofs.Answers
import BlockFeed.Proofs.Contract
import BlockFeed.Proofs.Fetcher.Ledger
import BlockFeed.Walker.Basic

/-!
# The course of a walker

A walker is called again and again, to do the work of its stage or to recover from a failure. While it
works it asks the shared values and the node. Reads and writes of the cache may fail, and so may calls to
the node; the walker may be given up whenever it waits. A write of which the walker does not learn that it
has come off may have come off all the same.

What a walker can rely on differs from statement to statement, and is kept in `Rules`: which calls may be
made, when the cache may be used, and what the walker may be told.
-/

namespace BlockFeed

/-- What has been written once a question has been answered, the latest first. -/
def Surroundings.Query.logged (written : List (String × String)) :
    (query : Surroundings.Query) → query.Answer → List (String × String)
  | .writeCache key text _, .ok () => (key, text) :: written
  | _, _ => written

namespace Walker

open Surroundings (Event Query)

/-- What a walker is called for. -/
inductive Call where
  | advance
  | recover (error : WalkerError)
  deriving DecidableEq

/-- What a walker can rely on. -/
structure Rules where
  /-- A call may be made, given what the walker remembers and the failure that the last call has left. -/
  calls : Walker → Option WalkerError → Call → Prop := fun _ _ _ => True
  /-- The cache may be used at a time. -/
  admits : PointCache → Nat → Prop := fun _ _ => True
  /-- What a walker may be told. -/
  tells : Walker → (query : Query) → query.Answer → Prop := fun _ _ _ => True

/-- What a walker may be told by a node that numbers on: the next points are numbered consecutively from
the cursor on, and there are no more of them than it has been asked for. -/
def NumbersOn (asker : Walker) : (query : Query) → query.Answer → Prop
  | .pointsAfter _ limit, answer => ∀ next, answer = Except.ok next →
    next.tips.map (·.number.toNat) = List.range' (asker.cursor.number.toNat + 1) next.tips.length ∧
      next.tips.length ≤ limit.toNat
  | _, _ => True

namespace Call

/-- The call that a service makes when the last one has left a failure behind, or none. -/
def IsDue (owed : Option WalkerError) : Call → Prop
  | .advance => owed = none
  | .recover error => owed = some error

/-- The call is for a recovery. -/
def recovers : Call → Bool
  | .advance => false
  | .recover _ => true

/-- The failure that work leaves behind. -/
def failure? {α : Type} : Except (Abort WalkerError) α → Option WalkerError
  | .error (.failed cause) => some cause
  | _ => none

/-- The work of a call; it ends with the failure that it leaves behind. -/
def work (settings : WalkerSettings) :
    Call → Walker → Run Surroundings Walker (Option WalkerError)
  | .advance, memory => ((Walker.advance settings).start memory).map failure?
  | .recover error, memory => ((Walker.recover settings error).start memory).map failure?

end Call

/-- What a walker is doing. -/
inductive Phase where
  | resting (memory : Walker)
  /-- A call is under way that began with a memory. -/
  | working (call : Call) (began : Walker) (run : Run Surroundings Walker (Option WalkerError))

/-- What the walker remembers at the moment. -/
def Phase.memory : Phase → Walker
  | .resting memory => memory
  | .working _ _ run => run.memory

/-- The shared values, with all that has been written to the cache, the latest first. -/
structure Shelf where
  shared : FeedState
  written : List (String × String) := []

namespace Shelf

variable {rules : Rules} {asker : Walker} {s s' : Shelf} {query : Query} {answer : query.Answer}

/-- The shared values answer a question while the cache may be used. -/
inductive Serves (rules : Rules) (s : Shelf) (query : Query) (answer : query.Answer) : Shelf → Prop
  | reply {shared : FeedState} (now : Nat) (htime : rules.admits s.shared.cache now)
      (h : s.shared.reply now query = (.answered answer, shared)) :
      Serves rules s query answer ⟨shared, query.logged s.written answer⟩

/-- What is left when the walker does not learn of an answer: the question has been served, or not. -/
inductive Leaves (rules : Rules) (s : Shelf) (query : Query) : Shelf → Prop
  | untouched : Leaves rules s query s
  | served {answer : query.Answer} {s' : Shelf} (h : s.Serves rules query answer s') :
      Leaves rules s query s'

/-- An answer that a walker may get. -/
inductive Answers (rules : Rules) (asker : Walker) (s : Shelf) :
    (query : Query) → query.Answer → Shelf → Prop
  | served {query : Query} {answer : query.Answer} {s' : Shelf} (h : s.Serves rules query answer s')
      (htold : rules.tells asker query answer) : Answers rules asker s query answer s'
  | elsewhere {query : Query} {answer : query.Answer} (h : query.isElsewhere = true)
      (htold : rules.tells asker query answer) : Answers rules asker s query answer s
  | unreadable (key : String) (error : CacheError) :
      Answers rules asker s (.readCache key) (.error error) s
  /-- A write that fails may have come off. -/
  | unwritable (key text : String) (lifetime : Duration) (error : CacheError) {s' : Shelf}
      (h : s.Leaves rules (.writeCache key text lifetime) s') :
      Answers rules asker s (.writeCache key text lifetime) (.error (.failed error)) s'

/-- An answer leaves no more behind than a question whose answer is not learnt of. -/
theorem Answers.leaves (h : s.Answers rules asker query answer s') : s.Leaves rules query s' := by
  cases h with
  | served h => exact .served h
  | elsewhere => exact .untouched
  | unreadable => exact .untouched
  | unwritable _ _ _ _ h => exact h

/-- A question leaves what has been written as it is, or adds to it what it writes. -/
theorem Leaves.written (h : s.Leaves rules query s') :
    s'.written = s.written ∨
      ∃ key text lifetime, query = .writeCache key text lifetime ∧ s'.written = (key, text) :: s.written := by
  cases h with
  | untouched => exact .inl rfl
  | @served answer _ h =>
    cases h
    cases query with
    | writeCache key text lifetime =>
      cases answer with
      | ok => exact .inr ⟨key, text, lifetime, rfl, rfl⟩
      | error => exact .inl rfl
    | _ => exact .inl rfl

/-- What has been written stays written. -/
theorem Leaves.written_subset (h : s.Leaves rules query s') : s.written ⊆ s'.written := by
  rcases h.written with hsame | ⟨key, text, lifetime, -, hlogged⟩
  · rw [hsame]
    exact List.Subset.refl _
  · rw [hlogged]
    exact List.subset_cons_self _ _

end Shelf

/-- A walker in its surroundings. -/
structure Course extends Shelf where
  phase : Phase
  /-- The failure that the last call has left behind. -/
  owed : Option WalkerError := none
  /-- The events of the last call, the latest first. -/
  events : List Event := []

namespace Course

variable {rules : Rules} {settings : WalkerSettings} {s s' : Course}

/-- What the walker remembers at the moment. -/
abbrev memory (s : Course) : Walker := s.phase.memory

/-- A question waits for its answer. -/
def Asks (s : Course) (query : Query) : Prop :=
  ∃ call began memory resume, s.phase = .working call began (.wait memory query resume)

/-- A step of the course. -/
inductive Step (rules : Rules) (settings : WalkerSettings) : Course → Course → Prop
  | call {s : Course} {memory : Walker} (call : Call) (h : s.phase = .resting memory)
      (hcall : rules.calls memory s.owed call) :
      Step rules settings s { s with
        phase := .working call memory (call.work settings memory), events := [] }
  | answer {s : Course} {call : Call} {began memory : Walker} {query : Query}
      {resume : query.Answer → Run Surroundings Walker (Option WalkerError)}
      {answer : query.Answer} {shelf : Shelf}
      (h : s.phase = .working call began (.wait memory query resume))
      (hanswer : s.toShelf.Answers rules memory query answer shelf) :
      Step rules settings s { s with
        toShelf := shelf, phase := .working call began (resume answer),
        events := ⟨query, answer⟩ :: s.events }
  | finish {s : Course} {call : Call} {began memory : Walker} {failure : Option WalkerError}
      (h : s.phase = .working call began (.done memory failure)) :
      Step rules settings s { s with phase := .resting memory, owed := failure }
  /-- A call is given up while it waits. -/
  | abandon {s : Course} {call : Call} {began memory : Walker} {query : Query}
      {resume : query.Answer → Run Surroundings Walker (Option WalkerError)} {shelf : Shelf}
      (h : s.phase = .working call began (.wait memory query resume))
      (hleaves : s.toShelf.Leaves rules query shelf) :
      Step rules settings s { s with
        toShelf := shelf, phase := .resting memory, owed := some (.stalled settings.watchdog) }
  /-- Others change what they share with the walker, but for the cache. -/
  | drift {s : Course} {shared : FeedState} (h : shared.cache = s.shared.cache) :
      Step rules settings s { s with shared }

/-- What has been written stays written. -/
theorem Step.written_subset (h : Step rules settings s s') : s.written ⊆ s'.written := by
  cases h with
  | answer _ hanswer => exact hanswer.leaves.written_subset
  | abandon _ hleaves => exact hleaves.written_subset
  | call | finish | drift => exact List.Subset.refl _

/-- A state that a new walker can reach which finds an empty cache. -/
inductive Reachable (rules : Rules) (settings : WalkerSettings) : Course → Prop
  | start {shared : FeedState} (hcache : shared.cache.entries = []) :
      Reachable rules settings { shared, phase := .resting (Walker.new settings) }
  | step {s s' : Course} (h : Reachable rules settings s) (hstep : Step rules settings s s') :
      Reachable rules settings s'

/-- A state to which the course goes on. -/
abbrev GoesOn (rules : Rules) (settings : WalkerSettings) : Course → Course → Prop :=
  Relation.ReflTransGen (Step rules settings)

theorem Reachable.goesOn (h : Reachable rules settings s) (hpath : GoesOn rules settings s s') :
    Reachable rules settings s' := by
  induction hpath with
  | refl => exact h
  | tail _ hstep ih => exact ih.step hstep

end Course

end Walker

end BlockFeed
