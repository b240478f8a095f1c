import BlockFeed.Proofs.Contract

/-!
# Transcripts of routines

A routine that has come to its end has asked a number of questions and got an answer to each. `Run.Ends` says
which transcripts, memories and values a routine can end with, and `Run.against` is how it ends against
surroundings whose behaviour is given. There always is an end, whatever they answer (`Run.ends_against`).

A contract about transcripts (`recorded`) turns what is shown of the parts of a routine into statements about
whole transcripts (`Run.keeps_recorded_iff`). Where the behaviour is given, the contract that all answers come
from it (`following`) does the same for the one end that there is then (`Run.keeps_following_iff`).
-/

namespace BlockFeed

/-- A question with its answer. -/
abbrev Interface.Event (I : Interface) : Type := (query : I.Query) × I.Answer query

/-- What surroundings answer to each question, in view of all that has been asked and answered before. -/
abbrev Behaviour (I : Interface) : Type := List I.Event → (query : I.Query) → I.Answer query

variable {I : Interface} {σ α β ε ε' : Type}

/-- The behaviour from then on. -/
def Behaviour.after (b : Behaviour I) (past : List I.Event) : Behaviour I := fun more => b (past ++ more)

/-- How work has ended. -/
structure Run.Ending (I : Interface) (σ α : Type) where
  log : List I.Event
  memory : σ
  value : α

namespace Run

/-- How work ends against a behaviour. -/
def against (b : Behaviour I) : Run I σ α → Ending I σ α
  | .done memory value => ⟨[], memory, value⟩
  | .wait _ query resume =>
    let event : I.Event := ⟨query, b [] query⟩
    let rest := (resume (b [] query)).against (b.after [event])
    { rest with log := event :: rest.log }

/-- Work can come with a transcript to the work that is left then. -/
inductive Reaches : Run I σ α → List I.Event → Run I σ α → Prop
  | refl (r : Run I σ α) : Reaches r [] r
  | wait {memory : σ} {query : I.Query} {resume : I.Answer query → Run I σ α} {log : List I.Event}
      {r : Run I σ α} (answer : I.Answer query) (h : (resume answer).Reaches log r) :
      Reaches (.wait memory query resume) (⟨query, answer⟩ :: log) r

/-- Work can end with a transcript, a memory and a value. -/
def Ends (r : Run I σ α) (log : List I.Event) (memory : σ) (value : α) : Prop :=
  r.Reaches log (.done memory value)

theorem Reaches.trans {r r' r'' : Run I σ α} {log more : List I.Event} (h : r.Reaches log r')
    (hmore : r'.Reaches more r'') : r.Reaches (log ++ more) r'' := by
  induction h with
  | refl => exact hmore
  | wait answer _ ih => exact .wait answer (ih hmore)

/-- Work ends, whatever the behaviour is. -/
theorem ends_against (r : Run I σ α) (b : Behaviour I) :
    r.Ends (r.against b).log (r.against b).memory (r.against b).value := by
  induction r generalizing b with
  | done => exact .refl _
  | wait memory query resume ih => exact .wait _ (ih _ _)

end Run

/-- Everything may be asked and answered; the world is the transcript. -/
def recorded (I : Interface) (σ : Type) : Contract I σ (List I.Event) where
  allows _ _ _ := True
  answers log query answer log' := log' = log ++ [⟨query, answer⟩]

/-- What holds of a routine that keeps transcripts holds of all its ends. -/
theorem Run.keeps_recorded_iff {r : Run I σ α} {post : List I.Event → σ → α → Prop}
    {past : List I.Event} :
    r.Keeps (recorded I σ) post past
      ↔ ∀ log memory value, r.Ends log memory value → post (past ++ log) memory value := by
  induction r generalizing past with
  | done memory value =>
    constructor
    · intro h log memory' value' hends
      cases hends
      rwa [List.append_nil]
    · intro h
      have hend := h [] memory value (.refl _)
      rwa [List.append_nil] at hend
  | wait memory query resume ih =>
    constructor
    · intro h log memory' value hends
      cases hends with
      | wait answer hends =>
        have hend := (ih answer).mp (h.2 answer _ rfl) _ memory' value hends
        rwa [List.append_assoc] at hend
    · refine fun h => ⟨trivial, ?_⟩
      rintro answer _ rfl
      refine (ih answer).mpr fun log memory' value hends => ?_
      rw [List.append_assoc]
      exact h _ memory' value (.wait answer hends)

/-- Answers are given as a behaviour gives them; the world is the transcript. -/
def following (b : Behaviour I) (σ : Type) : Contract I σ (List I.Event) where
  allows _ _ _ := True
  answers log query answer log' := answer = b log query ∧ log' = log ++ [⟨query, answer⟩]

theorem Behaviour.after_append (b : Behaviour I) (past more : List I.Event) :
    (b.after past).after more = b.after (past ++ more) := by
  funext rest
  exact congrArg b (List.append_assoc past more rest).symm

/-- What holds of a routine where a behaviour answers holds of its end against that behaviour. -/
theorem Run.keeps_following_iff {r : Run I σ α} {b : Behaviour I} {post : List I.Event → σ → α → Prop}
    {past : List I.Event} :
    r.Keeps (following b σ) post past
      ↔ post (past ++ (r.against (b.after past)).log) (r.against (b.after past)).memory
          (r.against (b.after past)).value := by
  induction r generalizing past with
  | done memory value =>
    rw [Run.against, List.append_nil]
    rfl
  | wait memory query resume ih =>
    have hnow : b.after past [] query = b past query := congrArg (b · query) (List.append_nil past)
    rw [Run.against, Behaviour.after_append, hnow, List.append_cons]
    refine Iff.trans ⟨fun h => h.2 _ _ ⟨rfl, rfl⟩, fun h => ⟨trivial, ?_⟩⟩ (ih (b past query))
    rintro _ _ ⟨rfl, rfl⟩
    exact h

/-- What holds all along of the memory of confined work holds at its end. -/
theorem Run.Confined.against {holds : σ → Prop} {asks : I.Query → Prop} {r : Run I σ α}
    (h : r.Confined holds asks) (b : Behaviour I) : holds (r.against b).memory := by
  induction r generalizing b with
  | done => exact h
  | wait memory query resume ih => exact ih _ (h.2.2 _) _

namespace Routine

/-- A question is answered as the behaviour answers it. -/
theorem keeps_following_ask {query : I.Query} {b : Behaviour I} {past : List I.Event} {memory : σ}
    {ok : List I.Event → σ → I.Answer query → Prop} {failed : List I.Event → σ → ε → Prop} :
    (ask query : Routine I σ ε _).Keeps (following b σ) ok failed past memory
      ↔ ok (past ++ [⟨query, b past query⟩]) memory (b past query) := by
  refine keeps_ask.trans ⟨fun h => h.2 _ _ ⟨rfl, rfl⟩, fun h => ⟨trivial, ?_⟩⟩
  rintro _ _ ⟨rfl, rfl⟩
  exact h

/-- What holds of either end of a routine where a behaviour answers holds of its end against that behaviour. -/
theorem against_of_keeps {r : Routine I σ ε α} {b : Behaviour I} {memory : σ}
    {post : Run.Ending I σ (Except ε α) → Prop}
    (h : r.Keeps (following b σ) (fun log memory value => post ⟨log, memory, .ok value⟩)
      (fun log memory cause => post ⟨log, memory, .error cause⟩) [] memory) :
    post ((r.start memory).against b) := by
  have hended : ended _ _ ([] ++ _) _ ((r.start memory).against b).value := Run.keeps_following_iff.mp h
  show post ⟨_, _, ((r.start memory).against b).value⟩
  cases hvalue : ((r.start memory).against b).value <;> rw [hvalue] at hended <;> exact hended

/-- A question is answered in one way or another. -/
theorem keeps_recorded_ask {query : I.Query} {past : List I.Event} {memory : σ}
    {ok : List I.Event → σ → I.Answer query → Prop} {failed : List I.Event → σ → ε → Prop} :
    (ask query : Routine I σ ε _).Keeps (recorded I σ) ok failed past memory
      ↔ ∀ answer, ok (past ++ [⟨query, answer⟩]) memory answer := by
  refine keeps_ask.trans ⟨fun h answer => h.2 answer _ rfl, fun h => ⟨trivial, ?_⟩⟩
  rintro answer _ rfl
  exact h answer

/-- A routine adds to the transcript what it can end with. -/
theorem keeps_recorded_ends (r : Routine I σ ε α) (past : List I.Event) (memory : σ) :
    r.Keeps (recorded I σ)
      (fun log after value => ∃ own, log = past ++ own ∧ (r.start memory).Ends own after (.ok value))
      (fun log after cause => ∃ own, log = past ++ own ∧ (r.start memory).Ends own after (.error cause))
      past memory :=
  Run.keeps_recorded_iff.mpr fun own after outcome hends => by
    cases outcome <;> exact ⟨own, rfl, hends⟩

end Routine

end BlockFeed
