import BlockFeed.Simulation.Drive

/-!
# Driven work

Work that is driven through a world gets its answers one by one. What every answer preserves holds of
the work once it has ended (`proceed_induction`).
-/

namespace BlockFeed.Simulation

/-- The world answers a question, at once or after a call to the node. -/
inductive World.Answers (w : World) (query : Surroundings.Query) (answer : query.Answer)
    (w' : World) : Prop
  | react (h : w.react query = (.answered answer, w'))
  | call {called : World} (h : w.react query = (.called, called))
      (hfinish : called.finishCall query = (some answer, w'))

variable {σ α : Type}

/-- What every answer preserves holds where driven work ends. -/
theorem proceed_induction {motive : World → Run Surroundings σ α → Prop}
    (hanswer : ∀ {w w' : World} {memory : σ} {query : Surroundings.Query}
      {resume : query.Answer → Run Surroundings σ α} {answer : query.Answer},
      w.Answers query answer w' → motive w (.wait memory query resume) → motive w' (resume answer))
    {run : Run Surroundings σ α} {w w' : World} {memory : σ} {value : α} {stall : Option Stall}
    (h : motive w run) (hproceed : proceed w run = (w', .done memory value, stall)) :
    motive w' (.done memory value) := by
  -- the induction is on the run: every answer leads to a smaller one, in another world
  induction run generalizing w with
  | done => cases hproceed; exact h
  | wait memory query resume ih =>
    unfold proceed at hproceed
    cases hreact : w.react query with
    | mk response reacted =>
      rw [hreact] at hproceed
      cases response with
      | answered answer => exact ih answer (hanswer (.react hreact) h) hproceed
      | noRoom => cases hproceed
      | called =>
        simp only at hproceed
        split at hproceed
        · cases hfinish : reacted.finishCall query with
          | mk answer finished =>
            rw [hfinish] at hproceed
            cases answer with
            | some answer => exact ih answer (hanswer (.call hreact hfinish) h) hproceed
            | none => cases hproceed
        · cases hproceed

/-- Driven work that has not stalled has ended. -/
theorem exists_done_of_stall {run : Run Surroundings σ α} {w : World}
    (h : (proceed w run).2.2 = none) : ∃ memory value, (proceed w run).2.1 = .done memory value := by
  induction run generalizing w with
  | done memory value => exact ⟨memory, value, rfl⟩
  | wait memory query resume ih =>
    revert h
    unfold proceed
    split
    · exact fun h => ih _ h
    · intro h
      cases h
    · split
      · split
        · exact fun h => ih _ h
        · intro h
          cases h
      · intro h
        cases h

end BlockFeed.Simulation
