import BlockFeed.Word

/-!
# Windows of heights

A window is the run of consecutive heights that one fetch iteration considers, given by its first
height and its size.
-/

namespace BlockFeed

/-- The heights `start`, `start + 1`, … , as many as `size`. -/
structure Window where
  start : UInt64
  size : UInt64
  deriving DecidableEq, Repr

namespace Window

/-- The window holds no height. -/
def isEmpty (w : Window) : Bool := w.size = 0

/-- The last height of a window; of an empty one, its start. -/
def last (w : Window) : Except Overflow UInt64 :=
  Word.add w.start (Word.satSub w.size 1)

/-- Cuts a window off after a height. There is none left when that height lies below its start. -/
def clamp (w : Window) (highest : UInt64) : Except Overflow (Option Window) :=
  if highest < w.start then .ok none
  else do
    let reach ← Word.add (highest - w.start) 1
    return some ⟨w.start, min w.size reach⟩

/-- The consecutive heights from one to another, both included. -/
def heightsBetween (first last : UInt64) : List UInt64 :=
  (List.range (last.toNat + 1 - first.toNat)).map fun i => first + UInt64.ofNat i

end Window

end BlockFeed
