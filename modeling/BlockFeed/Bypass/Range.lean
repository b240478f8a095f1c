import BlockFeed.Text.Blank
import BlockFeed.Text.Numeral
import BlockFeed.Text.Quoted
import BlockFeed.Word

/-!
# Bypass ranges

Some heights must never be fetched. They are configured as single heights or as texts `a-b`, both
ends included, and kept as half-open ranges. White space around a text and around its two numerals
does not matter.
-/

namespace BlockFeed.Bypass

/-- The heights from `start` up to but not including `stop`. -/
structure Range where
  start : UInt64
  stop : UInt64
  deriving DecidableEq, Repr, Inhabited

/-- Why a text is not a bypass range. Both causes carry the text. -/
inductive RangeError where
  /-- The text is neither a height nor two heights joined by a hyphen. -/
  | malformed (text : String)
  /-- The second height is below the first. -/
  | inverted (text : String)
  deriving DecidableEq, Repr

/-- The wording of a range error. -/
def RangeError.message : RangeError → String
  | .malformed text => "invalid bypass entry " ++ Quoted.text text
  | .inverted text => "bypass range " ++ Quoted.text text ++ " ends before it starts"

namespace Range

/-- A range with at least one height. -/
def ofBounds? (start stop : UInt64) : Option Range :=
  if start < stop then some ⟨start, stop⟩ else none

/-- The heights from one to another, both included. The largest height cannot be held. -/
def inclusive (first last : UInt64) : Range := ⟨first, Word.satSucc last⟩

/-- The range of a single height. -/
def single (height : UInt64) : Range := inclusive height height

/-- A height lies in the range. -/
def contains (r : Range) (height : UInt64) : Bool := r.start ≤ height && height < r.stop

/-- A range in messages. -/
def toText (r : Range) : String :=
  "[" ++ Numeral.ofNat r.start.toNat ++ ", " ++ Numeral.ofNat r.stop.toNat ++ ")"

/-- The parts of a text before and after its first hyphen. -/
def splitAtHyphen (cs : List Char) : Option (List Char × List Char) :=
  match cs.dropWhile (· ≠ '-') with
  | _ :: after => some (cs.takeWhile (· ≠ '-'), after)
  | [] => none

/-- Reads a range. -/
def ofText (text : String) : Except RangeError Range :=
  let trimmed := Blank.trim text.toList
  match splitAtHyphen trimmed with
  | none =>
    match Numeral.word? trimmed with
    | some height => .ok (single height)
    | none => .error (.malformed text)
  | some (before, after) =>
    match Numeral.word? (Blank.trim before), Numeral.word? (Blank.trim after) with
    | some first, some last =>
      if last < first then .error (.inverted text) else .ok (inclusive first last)
    | _, _ => .error (.malformed text)

end Range

/-- One configured entry. -/
inductive Entry where
  | height (height : UInt64)
  | text (text : String)
  deriving DecidableEq, Repr

/-- The range of an entry. -/
def Entry.range : Entry → Except RangeError Range
  | .height h => .ok (.single h)
  | .text t => Range.ofText t

end BlockFeed.Bypass
