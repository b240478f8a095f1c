/-!
# Connections under way

The connections to a node are counted, and no two of them should be opened at the same time: whoever
opens one passes a gate. The gate is forced by those who have waited for too long, so more than one
may be inside.
-/

namespace BlockFeed

/-- The open connections and those being opened. -/
structure Tracker where
  openConnections : Nat := 0
  /-- How many are inside the gate. -/
  opening : Nat := 0
  deriving DecidableEq, Repr, Inhabited

namespace Tracker

/-- Passes the gate if nobody is inside. -/
def tryEnter (t : Tracker) : Bool × Tracker :=
  if t.opening = 0 then (true, { t with opening := 1 }) else (false, t)

/-- Passes the gate whoever is inside. -/
def force (t : Tracker) : Tracker := { t with opening := t.opening + 1 }

/-- Leaves the gate. -/
def leave (t : Tracker) : Tracker := { t with opening := t.opening - 1 }

/-- A connection is open. -/
def track (t : Tracker) : Tracker := { t with openConnections := t.openConnections + 1 }

/-- A connection is no longer open. -/
def untrack (t : Tracker) : Tracker := { t with openConnections := t.openConnections - 1 }

end Tracker

end BlockFeed
