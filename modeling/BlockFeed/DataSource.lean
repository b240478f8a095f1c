import BlockFeed.Bypass.Ranges

/-!
# Data sources

A data source wants the blocks of a period of heights, and may want only those whose height a
modulus divides. A modulus of zero selects nothing.
-/

namespace BlockFeed

/-- The period and the modulus of one consumer of blocks. -/
structure DataSource where
  startBlock : UInt64 := 0
  /-- The last height of the period, which is endless without one. -/
  endBlock : Option UInt64 := none
  blockModulo : Option UInt64 := none
  deriving DecidableEq, Repr, Inhabited

namespace DataSource

/-- A height lies in the period. -/
def isActiveAt (s : DataSource) (height : UInt64) : Bool :=
  s.startBlock ≤ height && match s.endBlock with
    | none => true
    | some last => height ≤ last

/-- The period. -/
def activation (s : DataSource) : BypassRanges.Activation := (s.startBlock, s.endBlock)

/-- The modulus, if it selects anything. -/
def modulus? (s : DataSource) : Option UInt64 := s.blockModulo.filter (0 < ·)

end DataSource

/-- The data sources that select heights by a modulus. -/
structure ModuloSelection where
  sources : List DataSource
  deriving DecidableEq, Repr, Inhabited

namespace ModuloSelection

/-- The sources that have a modulus. -/
def ofSources (sources : List DataSource) : ModuloSelection :=
  ⟨sources.filter (·.modulus?.isSome)⟩

/-- No source selects by a modulus. -/
def isEmpty (s : ModuloSelection) : Bool := s.sources.isEmpty

/-- The first candidate at or above a height: the next multiple of the modulus, or the largest word
when that is out of range. -/
def firstCandidate (modulus start : UInt64) : UInt64 :=
  Word.satMul (start / modulus + if start % modulus = 0 then 0 else 1) modulus

/-- The candidates from one on, in steps of the modulus, up to a height. -/
def candidates (modulus last : UInt64) : (fuel : Nat) → UInt64 → List UInt64
  | 0, _ => []
  | fuel + 1, height =>
    if last < height then []
    else height :: match Word.add height modulus with
      | .ok next => candidates modulus last fuel next
      | .error _ => []

/-- The heights that one source selects between two heights, both included. -/
def selectedBy (source : DataSource) (start last : UInt64) : List UInt64 :=
  match source.modulus? with
  | none => []
  | some modulus =>
    let first := firstCandidate modulus start
    let rounds := (last.toNat - first.toNat) / modulus.toNat + 1
    (candidates modulus last rounds first).filter source.isActiveAt

/-- Drops every height that equals its successor. -/
def dropRepeats : List UInt64 → List UInt64
  | a :: b :: rest => if a = b then dropRepeats (b :: rest) else a :: dropRepeats (b :: rest)
  | heights => heights

/-- Sorts heights and drops repetitions. -/
def sortDedup (heights : List UInt64) : List UInt64 :=
  dropRepeats (heights.mergeSort (· ≤ ·))

/-- The heights that some source selects between two heights, both included, in ascending order. -/
def heights (s : ModuloSelection) (start last : UInt64) : List UInt64 :=
  sortDedup (s.sources.flatMap fun source => selectedBy source start last)

end ModuloSelection

end BlockFeed
