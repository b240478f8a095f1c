import BlockFeed.Config
import BlockFeed.Node.Link

/-!
# Retrying

An attempt that fails in a way that may pass is repeated after a wait, up to a number of attempts.
The wait doubles from one attempt to the next up to a greatest one, and is drawn out by chance, by whole
milliseconds and at most by a quarter, so that those who failed together do not come back together.
-/

namespace BlockFeed

/-- How often and after what waits a call is attempted. Waits are counted in nanoseconds. -/
structure RetryPolicy where
  /-- The attempts after the first one. -/
  repeats : Nat
  /-- The wait after the first attempt. -/
  baseNanos : Nat
  /-- The bound on the waits after later attempts. -/
  maxNanos : Nat
  deriving DecidableEq, Repr

namespace RetryPolicy

/-- A policy with a number of attempts; there always is a first one. -/
def ofNanos (attempts baseNanos maxNanos : Nat) : RetryPolicy := ⟨attempts - 1, baseNanos, maxNanos⟩

/-- A policy with a number of attempts and waits of whole milliseconds. -/
def ofAttempts (attempts : Nat) (baseDelay maxDelay : Duration) : RetryPolicy :=
  ofNanos attempts baseDelay.nanos maxDelay.nanos

/-- The greatest number of attempts. -/
def maxAttempts (p : RetryPolicy) : Nat := p.repeats + 1

/-- The whole milliseconds of the wait after the first attempt. -/
def baseDelay (p : RetryPolicy) : Duration := .ofNanos p.baseNanos

/-- The whole milliseconds of the bound on later waits. -/
def maxDelay (p : RetryPolicy) : Duration := .ofNanos p.maxNanos

/-- The wait after another failed attempt. -/
def nextWait (p : RetryPolicy) (wait : Nat) : Nat := min (2 * wait) p.maxNanos

/-- The greatest number of milliseconds by which a wait is drawn out. It is a word, and a wait that is too
long for that has only what is left of it. -/
def spread (wait : Nat) : Nat := wait / Duration.nanosPerMilli / 4 % UInt64.size

variable {σ α : Type}

/-- Waits, drawn out by chance. -/
def rest (wait : Nat) : Attempt σ Unit := do
  if spread wait = 0 then Attempt.tell (.pause wait)
  else
    let more ← Attempt.tell (.draw (spread wait))
    Attempt.tell (.pause (wait + more.val * Duration.nanosPerMilli))

/-- Carries out an attempt, and others after it as long as they are due. -/
def runFrom (p : RetryPolicy) (operation : String) (attempt : Attempt σ α) :
    (repeats : Nat) → (wait : Nat) → Attempt σ α
  | 0, _ => do
    match ← attempt.outcome with
    | .ok value => return value
    | .error e =>
      if e.isRetryable then Attempt.note (.callFailure operation e.kind)
      Routine.fail e
  | repeats + 1, wait => do
    match ← attempt.outcome with
    | .ok value => return value
    | .error e =>
      if !e.isRetryable then Routine.fail e
      else
        Attempt.note (.callRetry operation)
        rest wait
        runFrom p operation attempt repeats (p.nextWait wait)

/-- Carries out attempts until one succeeds, or fails for good, or no more are due. Repeats are
counted, and so is a call that has used all its attempts. -/
def run (p : RetryPolicy) (operation : String) (attempt : Attempt σ α) : Attempt σ α :=
  p.runFrom operation attempt p.repeats p.baseNanos

end RetryPolicy

/-- The policy of some settings. -/
def NodeSettings.retryPolicy (s : NodeSettings) : RetryPolicy :=
  .ofAttempts s.maxAttempts.toNat s.retryBaseDelay s.retryMaxDelay

end BlockFeed
