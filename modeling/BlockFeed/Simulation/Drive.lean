import BlockFeed.Simulation.World

/-!
# Driving work through the world

Work goes on until it ends or has to wait: for the node, for room in the queue, or for ever.
`drive` lets a single piece of work run to its end while the clock moves with it; when it would not
end in a day it is abandoned.
-/

namespace BlockFeed.Simulation

/-- Why work does not go on at the moment. -/
inductive Stall where
  /-- The node answers at a time. -/
  | call (due : Nat)
  /-- The node never answers. -/
  | hung
  /-- There is no room in the queue. -/
  | room
  deriving DecidableEq, Repr

variable {σ α : Type}

/-- Lets work go on as far as it can at the moment. Work that has ended has no stall. -/
def proceed (w : World) : Run Surroundings σ α → World × Run Surroundings σ α × Option Stall
  | .done memory value => (w, .done memory value, none)
  | .wait memory query resume =>
    match w.react query with
    | (.answered answer, w) => proceed w (resume answer)
    | (.noRoom, w) => (w, .wait memory query resume, some .room)
    | (.called, w) =>
      if w.node.latency = 0 then
        match w.finishCall query with
        | (some answer, w) => proceed w (resume answer)
        | (none, w) => (w, .wait memory query resume, some .hung)
      else (w, .wait memory query resume, some (.call (w.clock + w.node.latency)))

/-- Lets work go on whose call the node answers now. -/
def proceedAnswered (w : World) :
    Run Surroundings σ α → World × Run Surroundings σ α × Option Stall
  | .done memory value => (w, .done memory value, none)
  | .wait memory query resume =>
    match w.finishCall query with
    | (some answer, w) => proceed w (resume answer)
    | (none, w) => (w, .wait memory query resume, some .hung)

/-- Lets stalled work go on if what it waits for has come. -/
def proceedStalled (w : World) (run : Run Surroundings σ α) :
    Stall → World × Run Surroundings σ α × Option Stall
  | .call due => if due ≤ w.clock then proceedAnswered w run else (w, run, some (.call due))
  | .hung => (w, run, some .hung)
  | .room => proceed w run

/-- The time after which work that does not end is abandoned, in milliseconds. -/
def patience : Nat := 86400000

/-- Moves the clock with stalled work until it ends or patience does. Each turn answers a call. -/
def driveStalled (deadline : Nat) :
    (turns : Nat) → World → Run Surroundings σ α → Option Stall → World × σ × Option α
  | _, w, .done memory value, _ => (w, memory, some value)
  | 0, w, run, _ => (w, run.memory, none)
  | turns + 1, w, run, stall =>
    match stall with
    | some (.call due) =>
      if due ≤ deadline then
        let (w, run, stall) := proceedAnswered { w with clock := due } run
        driveStalled deadline turns w run stall
      else ({ w with clock := deadline }, run.memory, none)
    | _ => ({ w with clock := deadline }, run.memory, none)

/-- Lets work run to its end; `none` if it is abandoned. The memory it leaves is returned. -/
def drive (w : World) (run : Run Surroundings σ α) : World × σ × Option α :=
  let deadline := w.clock + patience
  let (w, run, stall) := proceed w run
  driveStalled deadline (patience + 1) w run stall

end BlockFeed.Simulation
