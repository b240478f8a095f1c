import BlockFeed.Proofs.Fetcher.Ledger
import BlockFeed.Proofs.Simulation.Drive

/-!
# Followed work

Work can be followed through a world for rehearsals until it ends or the world does not answer, and all
that it has asked is taken down. Answers which are not meant to be given end the rehearsal. What every answer
preserves holds wherever work has been followed to (`follow_induction`).
-/

namespace BlockFeed

/-- What an event has added to the cache. -/
def Surroundings.Event.entries : Surroundings.Event → List (String × String)
  | ⟨.writeCache key text _, .ok _⟩ => [(key, text)]
  | _ => []

namespace Simulation

open Surroundings (Event Query)

/-- The answer in which a reaction ends, if there is one. -/
def settled? (query : Query) : Response query × World → Option (query.Answer × World)
  | (.answered answer, w) => some (answer, w)
  | (.noRoom, _) => none
  | (.called, w) => (w.finishCall query).1.map fun answer => (answer, (w.finishCall query).2)

/-- What a world answers in the end, if it does. -/
def answer? (w : World) (query : Query) : Option (query.Answer × World) :=
  settled? query (w.react query)

/-- Work that has been followed through a world, with the events since it began, the latest first. -/
structure Followed (σ α : Type) where
  world : World
  events : List Event
  run : Run Surroundings σ α

/-- What the work has added to the cache, the latest first. -/
def Followed.entries {σ α : Type} (f : Followed σ α) : List (String × String) :=
  f.events.flatMap Event.entries

section
variable {σ α : Type} (may : World → σ → (query : Query) → query.Answer → Bool)

/-- Lets work go on until it ends or the world does not answer; `none` if an answer may not be given. -/
def follow (w : World) (events : List Event) : Run Surroundings σ α → Option (Followed σ α)
  | .done memory value => some ⟨w, events, .done memory value⟩
  | .wait memory query resume =>
    match answer? w query with
    | none => some ⟨w, events, .wait memory query resume⟩
    | some (answer, w') =>
      if may w memory query answer then follow w' (⟨query, answer⟩ :: events) (resume answer)
      else none

variable {may} {w w' : World} {query : Query} {answer : query.Answer}

/-- What a world answers in the end it answers. -/
theorem answers_of_answer? (h : answer? w query = some (answer, w')) : w.Answers query answer w' := by
  unfold answer? at h
  cases hreact : w.react query with
  | mk response reacted =>
    rw [hreact] at h
    cases response with
    | answered =>
      cases h
      exact .react hreact
    | noRoom => cases h
    | called =>
      obtain ⟨answer, hanswer, heq⟩ := Option.map_eq_some_iff.mp h
      cases heq
      exact .call hreact (Prod.ext hanswer rfl)

/-- What every answer preserves holds wherever work has been followed to. -/
theorem follow_induction {motive : World → List Event → Run Surroundings σ α → Prop}
    (hanswer : ∀ {w w' : World} {events : List Event} {memory : σ} {query : Query}
      {resume : query.Answer → Run Surroundings σ α} {answer : query.Answer},
      answer? w query = some (answer, w') → may w memory query answer = true →
      motive w events (.wait memory query resume) →
      motive w' (⟨query, answer⟩ :: events) (resume answer))
    {events : List Event} {run : Run Surroundings σ α} {f : Followed σ α} (h : motive w events run)
    (hfollow : follow may w events run = some f) : motive f.world f.events f.run := by
  -- the induction is on the run: every answer leads to a smaller one, in another world
  induction run generalizing w events with
  | done =>
    cases hfollow
    exact h
  | wait memory query resume ih =>
    unfold follow at hfollow
    cases hfound : answer? w query with
    | none =>
      rw [hfound] at hfollow
      cases hfollow
      exact h
    | some answered =>
      obtain ⟨answer, w₁⟩ := answered
      rw [hfound] at hfollow
      dsimp only at hfollow
      split at hfollow
      · rename_i hmay
        exact ih answer (hanswer hfound hmay h) hfollow
      · cases hfollow

end

end Simulation

end BlockFeed
