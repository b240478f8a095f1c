import BlockFeed.Chain.Point
import BlockFeed.Json.Fields
import BlockFeed.Json.Parser

/-!
# Tips as cached text

The point cache keeps texts. A tip is kept as a JSON object of its point and its number, the point
as an object of slot and hash.
-/

namespace BlockFeed.Tip

/-- The point of a tip as JSON. -/
def pointToJson (p : Point) : Json :=
  .object [("slot", .ofWord p.slot), ("hash", .string p.hash.toText)]

/-- A tip as JSON. -/
def toJson (t : Tip) : Json :=
  .object [("point", pointToJson t.point), ("blockNumber", .ofWord t.number)]

/-- The text under which a tip is cached. -/
def toCacheText (t : Tip) : String := t.toJson.render

/-- Reads the point of a tip. -/
def pointOfJson? (json : Json) : Option Point := do
  match ← json.structure? ["slot", "hash"] with
  | [slot, hash] =>
    let slot ← slot.toWord?
    let hash ← (BlockHash.ofText (← hash.toText?)).toOption
    return ⟨slot, hash⟩
  | _ => none

/-- Reads a tip. -/
def ofJson? (json : Json) : Option Tip := do
  match ← json.structure? ["point", "blockNumber"] with
  | [point, number] => return ⟨← pointOfJson? point, ← number.toWord?⟩
  | _ => none

/-- Reads the text under which a tip is cached. -/
def ofCacheText? (text : String) : Option Tip := do
  ofJson? (← Json.parse? text)

end BlockFeed.Tip
