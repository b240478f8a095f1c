import BlockFeed.Fetcher
import BlockFeed.Proofs.Answers

/-!
# An iteration among other things that happen

While an iteration is under way it is given answers, the other parts of the feed go on with their work, and
the consumer takes blocks (`Happening`). What happens is told apart from the iteration itself, so that the
same can happen with it (`play`) and without it (`Scene.idle`), and to iterations one after the other
(`iterations`).

The answers of the node and the hint service depend on what they are asked, those of the shared values on
these and on the time. In scenes whose shared values answer alike the same happens to iterations
(`Scene.Alike.iterations`).
-/

namespace BlockFeed.Fetcher

open Surroundings (Query)

/-- An iteration that is under way or has ended. -/
abbrev Attempt : Type := Run Surroundings BypassRanges (Except (Abort FetchError) Outcome)

/-- The shared values at a time, with the blocks that the consumer has received. -/
structure Scene where
  now : Nat
  shared : FeedState
  received : List Block := []

/-- What the node says to a request for a block, and the hint service about heights. -/
structure Peers where
  block : Point → Except NodeError Bytes
  hints : UInt64 → UInt64 → Option HintReply

/-- The answer of node or hint service to a question of an iteration. -/
def Peers.answer? (p : Peers) : (query : Query) → Option query.Answer
  | .fetchBlock point => some (p.block point)
  | .hints first last => some (p.hints first last)
  | _ => none

/-- A question hands blocks or their height on. -/
def handsOn : Query → Bool
  | .send _ | .commit _ => true
  | _ => false

/-- What happens while an iteration is under way. -/
inductive Happening where
  /-- The question that waits is answered from the shared values. -/
  | answer
  /-- The node or the hint service answers the question that waits. -/
  | reply (peers : Peers)
  /-- The cache fails to be read. -/
  | fault (error : CacheError)
  /-- Another part of the feed asks or tells something. Only the fetcher hands blocks on. -/
  | others (query : Query) (h : handsOn query = false)
  /-- The consumer takes blocks. -/
  | drain (limit : Option Nat)

namespace Scene

/-- The blocks that have been handed on, received or not. -/
def delivered (s : Scene) : List Block := s.received ++ s.shared.outbox.queue

/-- Time passes. -/
def pass (s : Scene) (elapsed : Nat) : Scene := { s with now := s.now + elapsed }

/-- What happens without regard to any iteration. -/
def around (s : Scene) : Happening → Scene
  | .others query _ => { s with shared := (s.shared.reply s.now query).2 }
  | .drain limit => { s with
      shared := (s.shared.drain limit).2
      received := s.received ++ (s.shared.drain limit).1.getD [] }
  | _ => s

/-- What the shared values answer to a question, if they do. -/
def answer? (s : Scene) (query : Query) : Option (Scene × query.Answer) :=
  match s.shared.reply s.now query with
  | (.answered answer, shared) => some ({ s with shared }, answer)
  | _ => none

/-- What happens, with an iteration; `none` if that cannot happen. -/
def turn (s : Scene) (attempt : Attempt) : Happening → Option (Scene × Attempt)
  | .answer =>
    match attempt with
    | .done _ _ => none
    | .wait _ query resume => do
      let (s, answer) ← s.answer? query
      return (s, resume answer)
  | .reply peers =>
    match attempt with
    | .done _ _ => none
    | .wait _ query resume => do
      let answer ← peers.answer? query
      return (s, resume answer)
  | .fault error =>
    match attempt with
    | .wait _ (.readCache _) resume =>
      some (s, resume (Except.error error : Except CacheError (Option String)))
    | _ => none
  | happening => some (s.around happening, attempt)

/-- All that happens one after the other, each with the time that has elapsed before, but for the
iteration. -/
def idle : Scene → List (Nat × Happening) → Scene
  | s, [] => s
  | s, (elapsed, happening) :: rest => ((s.pass elapsed).around happening).idle rest

end Scene

/-- All that happens one after the other, with an iteration. -/
def play : Scene → Attempt → List (Nat × Happening) → Option (Scene × Attempt)
  | s, attempt, [] => some (s, attempt)
  | s, attempt, (elapsed, happening) :: rest => do
    let (s, attempt) ← (s.pass elapsed).turn attempt happening
    play s attempt rest

/-- Iterations one after the other, with all that happens in the course of each. One that has not ended by
then is given up. -/
def iterations (plan : Plan) :
    Scene → BypassRanges → List (List (Nat × Happening)) → Option (Scene × List Attempt)
  | s, _, [] => some (s, [])
  | s, memory, during :: rest => do
    let (s, attempt) ← play s ((iterate plan).start memory) during
    let (s, attempts) ← iterations plan s attempt.memory rest
    return (s, attempt :: attempts)

/-- What can be seen of iterations: how they have ended, the blocks that have been handed on, and the height
up to which everything has been. -/
def seen : Scene × List Attempt → List Attempt × List Block × Option UInt64
  | (s, attempts) => (attempts, s.delivered, s.shared.outbox.buffered)

/-! ## Scenes that are alike -/

/-- The shared values answer the same in two scenes, and the consumer has received the same. -/
structure Scene.Alike (s t : Scene) : Prop where
  now : s.now = t.now
  received : s.received = t.received
  shared : s.shared.Alike s.now t.shared

/-- Of two courses of events either none is possible, or both lead to the same in scenes that are alike. -/
inductive Same {α : Type} : Option (Scene × α) → Option (Scene × α) → Prop where
  | none : Same none none
  | some {s t : Scene} (a : α) (h : s.Alike t) : Same (some (s, a)) (some (t, a))

/-- What follows may go the same way. -/
theorem Same.bind {α β : Type} {x y : Option (Scene × α)} {f : Scene × α → Option (Scene × β)}
    (h : Same x y) (hf : ∀ s t a, s.Alike t → Same (f (s, a)) (f (t, a))) :
    Same (x >>= f) (y >>= f) := by
  cases h with
  | none => exact .none
  | some a halike => exact hf _ _ a halike

namespace Scene.Alike

variable {s t : Scene}

theorem pass (h : s.Alike t) (elapsed : Nat) : (s.pass elapsed).Alike (t.pass elapsed) where
  now := congrArg (· + elapsed) h.now
  received := h.received
  shared := h.shared.later (Nat.le_add_right _ _)

theorem around (h : s.Alike t) (happening : Happening) :
    (s.around happening).Alike (t.around happening) := by
  obtain ⟨now, shared, received⟩ := s
  obtain ⟨now', shared', received'⟩ := t
  obtain ⟨rfl, rfl, hshared⟩ := h
  cases happening with
  | others query _ => exact ⟨rfl, rfl, (hshared.reply query).2⟩
  | drain limit =>
    obtain ⟨htaken, hleft⟩ := hshared.drain limit
    exact ⟨rfl, congrArg (fun taken => received ++ Option.getD taken []) htaken, hleft⟩
  | _ => exact ⟨rfl, rfl, hshared⟩

/-- A question is answered in the same way in both. -/
theorem answer? (h : s.Alike t) (query : Query) : Same (s.answer? query) (t.answer? query) := by
  obtain ⟨now, shared, received⟩ := s
  obtain ⟨now', shared', received'⟩ := t
  obtain ⟨rfl, rfl, hshared⟩ := h
  obtain ⟨hsame, hleft⟩ := hshared.reply query
  simp only [Scene.answer?]
  generalize shared.reply now query = replied at hsame hleft
  generalize shared'.reply now query = replied' at hsame hleft
  obtain ⟨reply, left⟩ := replied
  obtain ⟨reply', left'⟩ := replied'
  obtain rfl : reply = reply' := hsame
  cases reply with
  | answered answer => exact .some answer ⟨rfl, rfl, hleft⟩
  | noRoom => exact .none
  | elsewhere => exact .none

/-- The same happens to an iteration in both. -/
theorem turn (h : s.Alike t) (attempt : Attempt) (happening : Happening) :
    Same (s.turn attempt happening) (t.turn attempt happening) := by
  cases happening with
  | answer =>
    cases attempt with
    | done => exact .none
    | wait memory query resume => exact (h.answer? query).bind fun _ _ _ h => .some _ h
  | reply peers =>
    cases attempt with
    | done => exact .none
    | wait memory query resume =>
      simp only [Scene.turn]
      cases peers.answer? query with
      | none => exact .none
      | some answer => exact .some _ h
  | fault error =>
    simp only [Scene.turn]
    split
    · exact .some _ h
    · exact .none
  | others query hothers => exact .some _ (h.around (.others query hothers))
  | drain limit => exact .some _ (h.around (.drain limit))

theorem play (h : s.Alike t) (attempt : Attempt) (during : List (Nat × Happening)) :
    Same (play s attempt during) (play t attempt during) := by
  induction during generalizing s t attempt with
  | nil => exact .some _ h
  | cons next rest ih =>
    exact ((h.pass next.1).turn attempt next.2).bind fun _ _ attempt h => ih h attempt

/-- In scenes that are alike iterations go the same way. -/
theorem iterations (h : s.Alike t) (plan : Plan) (memory : BypassRanges)
    (later : List (List (Nat × Happening))) :
    Same (iterations plan s memory later) (iterations plan t memory later) := by
  induction later generalizing s t memory with
  | nil => exact .some _ h
  | cons during rest ih =>
    exact (h.play ((iterate plan).start memory) during).bind fun _ _ attempt h =>
      (ih h attempt.memory).bind fun _ _ _ h => .some _ h

end Scene.Alike

/-- Where both are possible the same can be seen. -/
theorem Same.map_seen {x y : Option (Scene × List Attempt)} (h : Same x y) :
    x.map seen = y.map seen := by
  cases h with
  | none => rfl
  | some attempts h =>
    simp only [Option.map_some, seen, Scene.delivered, h.received, h.shared.outbox]

end BlockFeed.Fetcher
