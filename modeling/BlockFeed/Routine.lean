/-!
# Routines

A routine is a piece of work that now and then asks its surroundings something and goes on with the
answer. It keeps a memory. While it waits for an answer the memory is there to be seen, so that it is
clear what is left behind when the routine is abandoned at that moment.

`Run` is the tree of a routine under way, one branch for every possible answer, and `Routine` is the
monad of functions from a memory to such a tree. A routine asks finitely often along every branch.
-/

namespace BlockFeed

/-- What can be asked, and what an answer looks like. -/
structure Interface where
  Query : Type
  Answer : Query → Type

/-- Work under way with memory `σ` that ends with a value `α`. -/
inductive Run (I : Interface) (σ α : Type) where
  | done (memory : σ) (value : α)
  | wait (memory : σ) (query : I.Query) (resume : I.Answer query → Run I σ α)

namespace Run

variable {I : Interface} {σ α β : Type}

/-- The memory as it is at the moment. -/
def memory : Run I σ α → σ
  | .done memory _ => memory
  | .wait memory _ _ => memory

/-- Goes on with further work. -/
def bind (f : σ → α → Run I σ β) : Run I σ α → Run I σ β
  | .done memory value => f memory value
  | .wait memory query resume => .wait memory query fun answer => (resume answer).bind f

/-- Goes on with a change of the value. -/
def map (f : α → β) : Run I σ α → Run I σ β :=
  bind fun memory value => .done memory (f value)

end Run

/-- A piece of work that ends with a value or fails with a cause. -/
def Routine (I : Interface) (σ ε α : Type) : Type := σ → Run I σ (Except ε α)

namespace Routine

variable {I : Interface} {σ ε ε' α β : Type}

/-- Begins a routine with a memory. -/
def start (r : Routine I σ ε α) (memory : σ) : Run I σ (Except ε α) := r memory

/-- Ends with a value. -/
protected def pure (value : α) : Routine I σ ε α := fun memory => .done memory (.ok value)

/-- Goes on with further work, unless the first part fails. -/
protected def bind (r : Routine I σ ε α) (f : α → Routine I σ ε β) : Routine I σ ε β :=
  fun memory => (r memory).bind fun memory outcome =>
    match outcome with
    | .ok value => f value memory
    | .error cause => .done memory (.error cause)

instance : Monad (Routine I σ ε) where
  pure := Routine.pure
  bind := Routine.bind

/-- Fails. -/
def fail (cause : ε) : Routine I σ ε α := fun memory => .done memory (.error cause)

/-- Asks the surroundings. -/
def ask (query : I.Query) : Routine I σ ε (I.Answer query) :=
  fun memory => .wait memory query fun answer => .done memory (.ok answer)

/-- The memory. -/
def current : Routine I σ ε σ := fun memory => .done memory (.ok memory)

/-- Changes the memory. -/
def remember (change : σ → σ) : Routine I σ ε Unit := fun memory => .done (change memory) (.ok ())

/-- Ends with a value that has been computed, or fails with its cause under another name. -/
def ofExcept (rename : ε' → ε) : Except ε' α → Routine I σ ε α
  | .ok value => Routine.pure value
  | .error cause => fail (rename cause)

/-- The outcome of a routine, which is no failure then. -/
def outcome (r : Routine I σ ε α) : Routine I σ ε' (Except ε α) :=
  fun memory => (r memory).map .ok

end Routine

end BlockFeed
