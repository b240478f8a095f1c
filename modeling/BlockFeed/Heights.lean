/-!
# Heights of the chain

The latest heights of the node's chain that have been observed. Zero stands for not known yet.
-/

namespace BlockFeed

/-- The observed heights. -/
structure ChainHeights where
  best : UInt64 := 0
  finalized : UInt64 := 0
  deriving DecidableEq, Repr, Inhabited

namespace ChainHeights

/-- The height up to which blocks may be fetched. -/
def latest (h : ChainHeights) (useFinalized : Bool) : UInt64 :=
  if useFinalized then h.finalized else h.best

end ChainHeights

end BlockFeed
