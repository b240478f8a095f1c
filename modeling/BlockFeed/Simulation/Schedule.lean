import BlockFeed.Service
import BlockFeed.Simulation.Drive

/-!
# Services side by side

Services run next to one another in one world. Each goes on as far as it can at the current time;
when none can, the clock moves to the next time at which something is due. Once they are stopped,
services end where they are, but for repairs, which are finished first.
-/

namespace BlockFeed.Simulation

/-- What a service is doing. -/
inductive Phase (σ : Type) where
  /-- A round, with its time limit. -/
  | working (run : Run Surroundings σ (Next σ)) (stall : Option Stall) (deadline : Option Nat)
  /-- Repairs before a pause. -/
  | repairing (run : Run Surroundings σ (Except Overflow Unit)) (stall : Option Stall)
      (delay : Duration)
  /-- A pause. -/
  | resting (wake : Nat)
  /-- Waiting for the next tick. -/
  | ticking
  | stopped

/-- A service at work. -/
structure Process (σ : Type) where
  service : Service σ
  memory : σ
  phase : Phase σ
  /-- The time between ticks, if the service has any. -/
  poller : Option Poller := none
  /-- The time of the next tick. -/
  nextTick : Nat := 0

namespace Process

variable {σ : Type}

/-- The beginning of a round. -/
def beginRound (now : Nat) (p : Process σ) : Process σ :=
  let deadline := p.service.limit.map fun limit => now + limit.millis
  { p with phase := .working (p.service.round p.memory) none deadline }

/-- A service that begins with a round. -/
def start (service : Service σ) (memory : σ) : Process σ :=
  beginRound 0 { service, memory, phase := .stopped }

/-- A poller, which begins with a tick. -/
def startPoller (poller : Poller) : Process Unit :=
  { service := Service.poller poller, memory := (), phase := .ticking, poller := some poller }

/-- What follows a round. -/
def follow (now : Nat) (p : Process σ) : Next σ → Process σ
  | .again => p.beginRound now
  | .pause delay => { p with phase := .resting (now + delay.millis) }
  | .tick => { p with phase := .ticking }
  | .repair work delay => { p with phase := .repairing work none delay }
  | .broken => { p with phase := .stopped }

/-- A tick is handled: the time of the next one is fixed, and a round begins. -/
def handleTick (now : Nat) (p : Process σ) : Process σ :=
  let nextTick := match p.poller with
    | some poller => poller.nextTime p.nextTick now
    | none => p.nextTick
  { p with nextTick }.beginRound now

/-- Lets work go on that has not begun yet or has stalled. -/
def proceedFrom {α : Type} (w : World) (run : Run Surroundings σ α) :
    Option Stall → World × Run Surroundings σ α × Option Stall
  | none => proceed w run
  | some stall => proceedStalled w run stall

/-- One turn of a service at the current time: it goes on as far as its phase does. The last value
says that it can go on at once. -/
def turn (w : World) (p : Process σ) : World × Process σ × Bool :=
  match p.phase with
  | .working run stall deadline =>
    match proceedFrom w run stall with
    | (w, .done memory next, _) => (w, { p with memory }.follow w.clock next, true)
    | (w, run, stall) =>
      if deadline.any (· ≤ w.clock) then
        let memory := run.memory
        (w, { p with memory }.follow w.clock (p.service.overrun memory), true)
      else (w, { p with phase := .working run stall deadline }, false)
  | .repairing run stall delay =>
    match proceedFrom w run stall with
    | (w, .done memory (.ok ()), _) => (w, { p with memory }.follow w.clock (.pause delay), true)
    | (w, .done memory (.error _), _) => (w, { p with memory }.follow w.clock .broken, true)
    | (w, run, stall) => (w, { p with phase := .repairing run stall delay }, false)
  | .resting wake => if wake ≤ w.clock then (w, p.beginRound w.clock, true) else (w, p, false)
  | .ticking =>
    if p.nextTick ≤ w.clock then (w, p.handleTick w.clock, true) else (w, p, false)
  | .stopped => (w, p, false)

/-- Turns of a service until it cannot go on at the current time. -/
def settle : (turns : Nat) → World → Process σ → World × Process σ
  | 0, w, p => (w, p)
  | turns + 1, w, p =>
    match p.turn w with
    | (w, p, true) => settle turns w p
    | (w, p, false) => (w, p)

/-- The time at which stalled work goes on. -/
def stallTime : Option Stall → Option Nat
  | some (.call due) => some due
  | _ => none

/-- The earlier of two times. -/
def earlier : Option Nat → Option Nat → Option Nat
  | some a, some b => some (min a b)
  | some a, none => some a
  | none, b => b

/-- The next time at which something is due for a service. -/
def wakeTime (p : Process σ) : Option Nat :=
  match p.phase with
  | .working _ stall deadline => earlier (stallTime stall) deadline
  | .repairing _ stall _ => stallTime stall
  | .resting wake => some wake
  | .ticking => some p.nextTick
  | .stopped => none

/-- The service ends where it is, unless it is repairing. -/
def stop (p : Process σ) : Process σ :=
  match p.phase with
  | .repairing _ _ _ => p
  | _ => { p with phase := .stopped }

/-- The service has ended. -/
def hasEnded (p : Process σ) : Bool :=
  match p.phase with
  | .stopped => true
  | _ => false

end Process

/-- A service of the feed at work. -/
inductive Job where
  | poller (process : Process Unit)
  | walker (process : Process Walker)
  | fetcher (process : Process BypassRanges)

namespace Job

/-- The greatest number of turns at one time. -/
def turnLimit : Nat := 100000

/-- A job goes on until it cannot at the current time. -/
def settle (w : World) : Job → World × Job
  | .poller p =>
    let (w, p) := p.settle turnLimit w
    (w, .poller p)
  | .walker p =>
    let (w, p) := p.settle turnLimit w
    (w, .walker p)
  | .fetcher p =>
    let (w, p) := p.settle turnLimit w
    (w, .fetcher p)

/-- The next time at which something is due. -/
def wakeTime : Job → Option Nat
  | .poller p => p.wakeTime
  | .walker p => p.wakeTime
  | .fetcher p => p.wakeTime

/-- The job is told to stop. -/
def stop : Job → Job
  | .poller p => .poller p.stop
  | .walker p => .walker p.stop
  | .fetcher p => .fetcher p.stop

/-- The job has ended. -/
def hasEnded : Job → Bool
  | .poller p => p.hasEnded
  | .walker p => p.hasEnded
  | .fetcher p => p.hasEnded

/-- All jobs go on, one after the other. -/
def settleAll (w : World) : List Job → World × List Job
  | [] => (w, [])
  | job :: rest =>
    let (w, job) := job.settle w
    let (w, rest) := settleAll w rest
    (w, job :: rest)

/-- The next time at which something is due for any job. -/
def nextTime (jobs : List Job) : Option Nat :=
  jobs.foldl (fun time job => Process.earlier time job.wakeTime) none

/-- Runs jobs up to a time; each step moves the clock to the next time that is due. -/
def runUntil (time : Nat) : (steps : Nat) → World → List Job → World × List Job
  | 0, w, jobs => ({ w with clock := time }, jobs)
  | steps + 1, w, jobs =>
    let (w, jobs) := settleAll w jobs
    match nextTime jobs with
    | some next =>
      if next ≤ time then runUntil time steps { w with clock := max next (w.clock + 1) } jobs
      else ({ w with clock := time }, jobs)
    | none => ({ w with clock := time }, jobs)

/-- Stops jobs and lets repairs come to their end. -/
def windDown : (steps : Nat) → World → List Job → World × List Job
  | 0, w, jobs => (w, jobs)
  | steps + 1, w, jobs =>
    let (w, jobs) := settleAll w (jobs.map stop)
    let jobs := jobs.map stop
    match nextTime jobs with
    | some next => windDown steps { w with clock := max next (w.clock + 1) } jobs
    | none => (w, jobs)

end Job

end BlockFeed.Simulation
