import BlockFeed.Bypass.Range

/-!
# Sets of bypass ranges

A set of ranges is kept sorted and merged: ranges that overlap or touch become one. As the feed
moves on, the ranges it has passed are dropped from the front.
-/

namespace BlockFeed

/-- A sorted, merged list of ranges. -/
structure BypassRanges where
  ranges : List Bypass.Range
  deriving DecidableEq, Repr

namespace BypassRanges

open Bypass (Range Entry RangeError)

/-- No range. -/
def empty : BypassRanges := ⟨[]⟩

instance : Inhabited BypassRanges := ⟨empty⟩

/-- Ranges are ordered by their start, then by their end. -/
def precedes (a b : Range) : Bool :=
  a.start < b.start || (a.start = b.start && a.stop ≤ b.stop)

/-- Joins a range with those after it, all sorted by start. -/
def join (last : Range) : List Range → List Range
  | [] => [last]
  | r :: rest =>
    if r.start ≤ last.stop then join { last with stop := max last.stop r.stop } rest
    else last :: join r rest

/-- Joins sorted ranges. -/
def joinAll : List Range → List Range
  | [] => []
  | r :: rest => join r rest

/-- The set that covers the heights of the given ranges. -/
def ofList (ranges : List Range) : BypassRanges :=
  ⟨joinAll (ranges.mergeSort precedes)⟩

/-- The set that configured entries describe; the first bad entry is reported. -/
def ofEntries (entries : List Entry) : Except RangeError BypassRanges := do
  return ofList (← entries.mapM Entry.range)

/-- A period in which heights are wanted: its first height and, if it ends, its last. -/
abbrev Activation := UInt64 × Option UInt64

/-- Periods are ordered by their start; at one start, the endless one comes first. -/
def activationPrecedes (a b : Activation) : Bool :=
  a.1 < b.1 || (a.1 = b.1 && match a.2, b.2 with
    | none, _ => true
    | some _, none => false
    | some x, some y => x ≤ y)

/-- The gaps before, between and after sorted periods, from a height on. -/
def gapsFrom (next : UInt64) : List Activation → List Range
  | [] => (Range.ofBounds? next Word.max).toList
  | (start, stop) :: rest =>
    (Range.ofBounds? next start).toList ++
      match stop with
      | none => []
      | some last => gapsFrom (max next (Word.satSucc last)) rest

/-- The heights from the initial one on that no period covers. Without any period all heights are
wanted. -/
def ofActivationGaps (initial : UInt64) (activations : List Activation) : BypassRanges :=
  if activations.isEmpty then empty
  else ofList (gapsFrom initial (activations.mergeSort activationPrecedes))

/-- The union of two sets. -/
def merge (a b : BypassRanges) : BypassRanges := ofList (a.ranges ++ b.ranges)

/-- A height lies in the set. Only the first range that ends beyond it can hold it. -/
def contains (s : BypassRanges) (height : UInt64) : Bool :=
  match s.ranges.find? (height < ·.stop) with
  | some r => r.contains height
  | none => false

/-- The heights outside the set, in their order. -/
def strip (s : BypassRanges) (heights : List UInt64) : List UInt64 :=
  heights.filter fun height => !s.contains height

/-- Moves the start of the first range up to a height, if it lies below. -/
def raiseFirst (next : UInt64) : List Range → List Range
  | [] => []
  | r :: rest => { r with start := max r.start next } :: rest

/-- Forgets every height up to and including the given one. -/
def consumeThrough (s : BypassRanges) (height : UInt64) : BypassRanges :=
  let next := Word.satSucc height
  ⟨raiseFirst next (s.ranges.filter (next < ·.stop))⟩

/-- The set holds no range. -/
def isEmpty (s : BypassRanges) : Bool := s.ranges.isEmpty

end BypassRanges

end BlockFeed
