import BlockFeed.Fetcher
import BlockFeed.Poller
import BlockFeed.Walker.Basic

/-!
# Services

Walker, fetcher and pollers run as services: they work in rounds until they are stopped. A round
ends with what is to be done next: another round at once, a pause, the wait for the next tick of a
clock, or repairs and then a pause. A round may have a time limit; one that exceeds it is abandoned
and counts as failed. Repairs are always finished, even when the service is being stopped.
-/

namespace BlockFeed

/-- What a service does after a round. -/
inductive Next (σ : Type) where
  /-- Another round, at once. -/
  | again
  /-- Another round after a pause. -/
  | pause (delay : Duration)
  /-- Another round at the next tick. -/
  | tick
  /-- Repairs, then another round after a pause, unless a number left its range on the way. -/
  | repair (work : Run Surroundings σ (Except Overflow Unit)) (delay : Duration)
  /-- No further round: a number left its range. -/
  | broken

/-- Work in rounds over a memory. -/
structure Service (σ : Type) where
  /-- One round. -/
  round : σ → Run Surroundings σ (Next σ)
  /-- The time limit of a round. -/
  limit : Option Duration := none
  /-- What follows a round that has been abandoned at its limit, with the memory it left. -/
  overrun : σ → Next σ := fun _ => .again

namespace Service

/-- A task as a round: what follows it depends on its outcome and the memory it leaves. -/
def roundOf {σ ε α : Type} (work : Work σ ε α) (next : σ → Except (Abort ε) α → Next σ) (memory : σ) :
    Run Surroundings σ (Next σ) :=
  (work.start memory).bind fun memory outcome => .done memory (next memory outcome)

/-- Repairs count as done unless a number left its range. -/
def repaired {ε : Type} : Except (Abort ε) Unit → Except Overflow Unit
  | .error .overflow => .error .overflow
  | _ => .ok ()

/-- The repairs of the walker after a failure. -/
def walkerRepair (settings : WalkerSettings) (error : WalkerError) (memory : Walker) : Next Walker :=
  .repair (((Walker.recover settings error).start memory).map repaired) settings.restartDelay

/-- What the walker does after a round. -/
def walkerNext (settings : WalkerSettings) (memory : Walker) :
    Except (Abort WalkerError) Walker.Step → Next Walker
  | .ok .progressed => .again
  | .ok .idle => .pause settings.idleDelay
  | .error (.failed e) => walkerRepair settings e memory
  | .error .overflow => .broken

/-- The walker. -/
def walker (settings : WalkerSettings) : Service Walker :=
  { round := roundOf (Walker.advance settings) (walkerNext settings)
    limit := some settings.watchdog
    overrun := walkerRepair settings (.stalled settings.watchdog) }

/-- What the fetcher does after a round. -/
def fetcherNext (settings : FetchSettings) :
    Except (Abort FetchError) Fetcher.Outcome → Next BypassRanges
  | .ok (.dispatched _ _ _) => .again
  | .error .overflow => .broken
  | _ => .pause settings.wait

/-- The fetcher. -/
def fetcher (plan : Fetcher.Plan) : Service BypassRanges :=
  { round := roundOf (Fetcher.iterate plan) fun _ => fetcherNext plan.settings }

/-- What a poller does after a round. -/
def pollerNext : Except (Abort NodeError) UInt64 → Next Unit
  | .error .overflow => .broken
  | _ => .tick

/-- A poller. -/
def poller (p : Poller) : Service Unit :=
  { round := roundOf p.poll fun _ => pollerNext }

end Service

end BlockFeed
