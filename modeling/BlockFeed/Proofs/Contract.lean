import BlockFeed.Surroundings

/-!
# Contracts of routines

A contract says what a routine has to see to before it asks its surroundings, and how they may answer.
What there is to say about the surroundings is kept in a world, which changes with every answer.

`Run.Keeps` says of work under way that it keeps its contract whatever the answers are, and that it
ends only in worlds as they are promised. It holds of a whole routine when it holds of its parts:
there is one lemma for each way in which routines are put together (`Routine.keeps_bind` and those
around it).

Often it is enough to know which questions a routine asks at all, and that a condition of its memory goes
on holding: it is confined to them. Such a routine keeps every contract that allows those questions
(`Routine.Confined.keeps`).
-/

namespace BlockFeed

/-- What is asked of routines with memory `σ` and of their surroundings, in worlds `W`. -/
structure Contract (I : Interface) (σ W : Type) where
  /-- What holds of the world and the memory as long as a question waits for its answer. -/
  allows : W → σ → I.Query → Prop
  /-- An answer that may be given in a world, with the world it leaves. -/
  answers : W → (query : I.Query) → I.Answer query → W → Prop

variable {I : Interface} {σ W α β ε ε' : Type} {c : Contract I σ W}

namespace Run

/-- Work under way keeps its contract in a world, and where it ends a condition holds. -/
def Keeps (c : Contract I σ W) (post : W → σ → α → Prop) : Run I σ α → W → Prop
  | .done memory value => fun w => post w memory value
  | .wait memory query resume => fun w => c.allows w memory query ∧
      ∀ answer w', c.answers w query answer w' → (resume answer).Keeps c post w'

/-- The question that waits is allowed. -/
theorem Keeps.allows {post : W → σ → α → Prop} {memory : σ} {query : I.Query}
    {resume : I.Answer query → Run I σ α} {w : W}
    (h : (Run.wait memory query resume).Keeps c post w) : c.allows w memory query :=
  h.1

/-- The contract is kept after an answer. -/
theorem Keeps.answer {post : W → σ → α → Prop} {memory : σ} {query : I.Query}
    {resume : I.Answer query → Run I σ α} {w w' : W}
    (h : (Run.wait memory query resume).Keeps c post w) {answer : I.Answer query}
    (hanswer : c.answers w query answer w') : (resume answer).Keeps c post w' :=
  h.2 answer w' hanswer

/-- Less may be promised for the end. -/
theorem Keeps.mono {post post' : W → σ → α → Prop} {r : Run I σ α} {w : W}
    (h : r.Keeps c post w) (hpost : ∀ w memory value, post w memory value → post' w memory value) :
    r.Keeps c post' w := by
  induction r generalizing w with
  | done memory value => exact hpost _ _ _ h
  | wait memory query resume ih =>
    exact ⟨h.1, fun answer w' hanswer => ih answer (h.2 answer w' hanswer)⟩

/-- The same may be promised in other words. -/
theorem keeps_congr {post post' : W → σ → α → Prop} {r : Run I σ α} {w : W}
    (h : ∀ w memory value, post w memory value ↔ post' w memory value) :
    r.Keeps c post w ↔ r.Keeps c post' w :=
  ⟨fun hkeeps => hkeeps.mono fun w memory value => (h w memory value).mp,
    fun hkeeps => hkeeps.mono fun w memory value => (h w memory value).mpr⟩

/-- Further work keeps the contract if it does so wherever the first part ends. -/
theorem keeps_bind {post : W → σ → β → Prop} {r : Run I σ α} {f : σ → α → Run I σ β} {w : W} :
    (r.bind f).Keeps c post w ↔
      r.Keeps c (fun w memory value => (f memory value).Keeps c post w) w := by
  induction r generalizing w with
  | done memory value => exact Iff.rfl
  | wait memory query resume ih =>
    constructor
    · exact fun h => ⟨h.1, fun answer w' hanswer => (ih answer).mp (h.2 answer w' hanswer)⟩
    · exact fun h => ⟨h.1, fun answer w' hanswer => (ih answer).mpr (h.2 answer w' hanswer)⟩

end Run

namespace Routine

/-- What is promised for either end of a routine. -/
def ended (ok : W → σ → α → Prop) (failed : W → σ → ε → Prop) (w : W) (memory : σ) :
    Except ε α → Prop
  | .ok value => ok w memory value
  | .error cause => failed w memory cause

/-- A routine that begins in a world with a memory keeps its contract; one condition holds where it
ends with a value, and another where it fails. -/
def Keeps (c : Contract I σ W) (r : Routine I σ ε α) (ok : W → σ → α → Prop)
    (failed : W → σ → ε → Prop) (w : W) (memory : σ) : Prop :=
  (r.start memory).Keeps c (ended ok failed) w

variable {ok : W → σ → α → Prop} {failed : W → σ → ε → Prop} {w : W} {memory : σ}

/-- Less may be promised for the ends. -/
theorem Keeps.mono {r : Routine I σ ε α} {ok' : W → σ → α → Prop} {failed' : W → σ → ε → Prop}
    (h : r.Keeps c ok failed w memory)
    (hok : ∀ w memory value, ok w memory value → ok' w memory value)
    (hfailed : ∀ w memory cause, failed w memory cause → failed' w memory cause) :
    r.Keeps c ok' failed' w memory := by
  refine Run.Keeps.mono h fun w memory outcome houtcome => ?_
  cases outcome with
  | ok value => exact hok w memory value houtcome
  | error cause => exact hfailed w memory cause houtcome

theorem keeps_pure {value : α} :
    (pure value : Routine I σ ε α).Keeps c ok failed w memory ↔ ok w memory value :=
  Iff.rfl

theorem keeps_fail {cause : ε} :
    (fail cause : Routine I σ ε α).Keeps c ok failed w memory ↔ failed w memory cause :=
  Iff.rfl

/-- What follows must keep the contract wherever the first part ends with a value. -/
theorem keeps_bind {r : Routine I σ ε β} {f : β → Routine I σ ε α} :
    (r >>= f).Keeps c ok failed w memory ↔
      r.Keeps c (fun w memory value => (f value).Keeps c ok failed w memory) failed w memory := by
  refine Run.keeps_bind.trans (Run.keeps_congr fun w memory outcome => ?_)
  -- a failure ends the routine at once, and its condition holds already
  cases outcome <;> exact Iff.rfl

/-- A question must be allowed; whatever the answer is, the routine ends with it. -/
theorem keeps_ask {query : I.Query} {ok : W → σ → I.Answer query → Prop} :
    (ask query : Routine I σ ε _).Keeps c ok failed w memory ↔
      c.allows w memory query ∧
        ∀ answer w', c.answers w query answer w' → ok w' memory answer :=
  Iff.rfl

theorem keeps_current {ok : W → σ → σ → Prop} :
    (current : Routine I σ ε σ).Keeps c ok failed w memory ↔ ok w memory memory :=
  Iff.rfl

theorem keeps_remember {change : σ → σ} {ok : W → σ → Unit → Prop} :
    (remember change : Routine I σ ε Unit).Keeps c ok failed w memory ↔ ok w (change memory) () :=
  Iff.rfl

theorem keeps_ofExcept {rename : ε' → ε} {value : Except ε' α} :
    (ofExcept rename value : Routine I σ ε α).Keeps c ok failed w memory ↔
      match value with
      | .ok value => ok w memory value
      | .error cause => failed w memory (rename cause) := by
  cases value <;> exact Iff.rfl

/-- A routine whose failure is an outcome like any other. -/
theorem keeps_outcome {r : Routine I σ ε α} {failed : W → σ → ε' → Prop}
    {ok : W → σ → Except ε α → Prop} :
    (r.outcome : Routine I σ ε' _).Keeps c ok failed w memory ↔
      r.Keeps c (fun w memory value => ok w memory (.ok value))
        (fun w memory cause => ok w memory (.error cause)) w memory := by
  refine Run.keeps_bind.trans (Run.keeps_congr fun w memory outcome => ?_)
  cases outcome <;> exact Iff.rfl

end Routine

/-! ## Confined routines -/

/-- Whatever the answers are, work under way asks nothing but certain questions, and a condition of its
memory holds all along. -/
def Run.Confined (holds : σ → Prop) (asks : I.Query → Prop) : Run I σ α → Prop
  | .done memory _ => holds memory
  | .wait memory query resume =>
    holds memory ∧ asks query ∧ ∀ answer, (resume answer).Confined holds asks

theorem Run.Confined.bind {holds : σ → Prop} {asks : I.Query → Prop} {r : Run I σ α}
    {f : σ → α → Run I σ β} (h : r.Confined holds asks)
    (hf : ∀ memory value, holds memory → (f memory value).Confined holds asks) :
    (r.bind f).Confined holds asks := by
  induction r with
  | done memory value => exact hf memory value h
  | wait memory query resume ih => exact ⟨h.1, h.2.1, fun answer => ih answer (h.2.2 answer)⟩

/-- Less may be said of the memory. -/
theorem Run.Confined.mono {holds holds' : σ → Prop} {asks : I.Query → Prop} {r : Run I σ α}
    (h : r.Confined holds asks) (himp : ∀ memory, holds memory → holds' memory) :
    r.Confined holds' asks := by
  induction r with
  | done memory value => exact himp memory h
  | wait memory query resume ih => exact ⟨himp memory h.1, h.2.1, fun answer => ih answer (h.2.2 answer)⟩

namespace Routine

/-- A routine that may begin wherever a condition holds, and is confined then. -/
def Confined (holds : σ → Prop) (asks : I.Query → Prop) (r : Routine I σ ε α) : Prop :=
  ∀ memory, holds memory → (r.start memory).Confined holds asks

variable {holds : σ → Prop} {asks : I.Query → Prop}

theorem Confined.bind {r : Routine I σ ε β} {f : β → Routine I σ ε α} (h : r.Confined holds asks)
    (hf : ∀ value, (f value).Confined holds asks) : (r >>= f).Confined holds asks := by
  intro memory hmemory
  refine Run.Confined.bind (h memory hmemory) fun memory outcome hmemory => ?_
  cases outcome with
  | ok value => exact hf value memory hmemory
  | error => exact hmemory

theorem confined_pure (value : α) : (pure value : Routine I σ ε α).Confined holds asks :=
  fun _ hmemory => hmemory

theorem confined_fail (cause : ε) : (fail cause : Routine I σ ε α).Confined holds asks :=
  fun _ hmemory => hmemory

theorem confined_ask {query : I.Query} (h : asks query) :
    (ask query : Routine I σ ε _).Confined holds asks :=
  fun _ hmemory => ⟨hmemory, h, fun _ => hmemory⟩

theorem confined_current : (current : Routine I σ ε σ).Confined holds asks :=
  fun _ hmemory => hmemory

theorem confined_remember {change : σ → σ} (h : ∀ memory, holds memory → holds (change memory)) :
    (remember change : Routine I σ ε Unit).Confined holds asks :=
  h

theorem confined_ofExcept (rename : ε' → ε) (value : Except ε' α) :
    (ofExcept rename value : Routine I σ ε α).Confined holds asks := by
  cases value <;> exact fun _ hmemory => hmemory

theorem Confined.outcome {r : Routine I σ ε α} (h : r.Confined holds asks) :
    (r.outcome : Routine I σ ε' _).Confined holds asks :=
  fun memory hmemory => Run.Confined.bind (h memory hmemory) fun _ _ hmemory => hmemory

end Routine

/-- Confined work keeps a contract that allows its questions, in worlds that stay as they should be when
these are answered. -/
theorem Run.Confined.keeps {holds : σ → Prop} {asks : I.Query → Prop} {stays : W → Prop}
    {r : Run I σ α} (h : r.Confined holds asks)
    (hallows : ∀ w memory query, stays w → holds memory → asks query → c.allows w memory query)
    (hanswers : ∀ w query answer w', stays w → asks query → c.answers w query answer w' → stays w')
    {w : W} (hw : stays w) : r.Keeps c (fun w memory _ => stays w ∧ holds memory) w := by
  induction r generalizing w with
  | done memory value => exact ⟨hw, h⟩
  | wait memory query resume ih =>
    obtain ⟨hmemory, hasks, hresume⟩ := h
    exact ⟨hallows w memory query hw hmemory hasks, fun answer w' hanswer =>
      ih answer (hresume answer) (hanswers w query answer w' hw hasks hanswer)⟩

/-- A confined routine keeps such a contract. -/
theorem Routine.Confined.keeps {holds : σ → Prop} {asks : I.Query → Prop} {stays : W → Prop}
    {r : Routine I σ ε α} (h : r.Confined holds asks)
    (hallows : ∀ w memory query, stays w → holds memory → asks query → c.allows w memory query)
    (hanswers : ∀ w query answer w', stays w → asks query → c.answers w query answer w' → stays w')
    {w : W} (hw : stays w) {memory : σ} (hmemory : holds memory) :
    r.Keeps c (fun w memory _ => stays w ∧ holds memory) (fun w memory _ => stays w ∧ holds memory)
      w memory := by
  refine Run.Keeps.mono (Run.Confined.keeps (h memory hmemory) hallows hanswers hw) ?_
  intro w memory outcome hends
  cases outcome <;> exact hends

/-! ## Work whose failure is passed over -/

namespace Work

variable {σ W ε ε' : Type} {work : Work σ ε Unit}

/-- A failure that is passed over is an end like any other; a number that left its range is not passed over. -/
theorem keeps_regardless {c : Contract Surroundings σ W} {ok : W → σ → Unit → Prop}
    {failed : W → σ → Abort ε' → Prop} {w : W} {memory : σ} :
    (regardless work : Work σ ε' Unit).Keeps c ok failed w memory ↔
      work.Keeps c ok (fun w memory cause => match cause with
        | .failed _ => ok w memory ()
        | .overflow => failed w memory .overflow) w memory := by
  refine Routine.keeps_bind.trans (Routine.keeps_outcome.trans (Run.keeps_congr fun w memory outcome => ?_))
  match outcome with
  | .ok () => exact Iff.rfl
  | .error (.failed _) => exact Iff.rfl
  | .error .overflow => exact Iff.rfl

theorem confined_regardless {holds : σ → Prop} {asks : Surroundings.Query → Prop}
    (h : Routine.Confined holds asks work) :
    Routine.Confined holds asks (regardless work : Work σ ε' Unit) :=
  h.outcome.bind fun outcome => match outcome with
    | .ok () => Routine.confined_pure _
    | .error (.failed _) => Routine.confined_pure _
    | .error .overflow => Routine.confined_fail _

end Work

end BlockFeed
