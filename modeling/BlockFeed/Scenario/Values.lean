import BlockFeed.DataSource
import BlockFeed.Json.Access
import BlockFeed.Simulation.SampleTip
import BlockFeed.Text.Duration

/-!
# Values in scenarios

A scenario is a JSON text that says what happens to a part of the feed, and is answered in JSON. This
module holds the written forms of bytes, hashes, points and tips. Tips are mostly sample tips, so a
height alone is a tip too.
-/

namespace BlockFeed

/-- Bytes as hexadecimal text. -/
def Bytes.toJson (bytes : Bytes) : Json := .string (Hex.encode bytes)

/-- A hash as text. -/
def BlockHash.toJson (hash : BlockHash) : Json := .string hash.toText

/-- A point. -/
def Point.show (p : Point) : Json :=
  .object [("slot", .ofWord p.slot), ("hash", p.hash.toJson)]

/-- A tip. -/
def Tip.show (t : Tip) : Json :=
  .object [("slot", .ofWord t.point.slot), ("hash", t.point.hash.toJson),
    ("block_number", .ofWord t.number)]

/-- The text of a point. -/
def Point.toTextJson (p : Point) : Json := .string p.toText

/-- The text of a tip. -/
def Tip.toTextJson (t : Tip) : Json := .string t.toText

/-- A header, with the tip and the point of its block. -/
def Header.toFields (h : Header) : List (String × Json) := [
  ("header", .object [("blockHash", h.hash.toJson), ("blockHeight", .ofWord h.height),
    ("parentHash", .ofOption BlockHash.toJson h.parent), ("slot", .ofWord h.slot)]),
  ("tip", h.tip.toTextJson), ("point", h.point.toTextJson)]

/-- Ranges of heights. -/
def BypassRanges.toJson (s : BypassRanges) : Json :=
  .array (s.ranges.map fun r => .array [.ofWord r.start, .ofWord r.stop])

namespace Scenario

/-- One part of a byte string: hexadecimal text, once or several times. -/
def bytesPart? (j : Json) : Option Bytes :=
  match j with
  | .string text => Hex.decode? text
  | j => do
    let piece ← Hex.decode? (← (j.get "hex").toText?)
    return (List.replicate (← (j.get "times").toNat?) piece).flatten

/-- Bytes: hexadecimal text, or a list of parts. -/
def bytes? : Json → Option Bytes
  | .array parts => return (← parts.mapM bytesPart?).flatten
  | j => do Hex.decode? (← j.toText?)

/-- A hash. -/
def hash? (j : Json) : Option BlockHash := do (BlockHash.ofText (← j.toText?)).toOption

/-- A word, or a default where nothing is said. -/
def wordOr? (default : UInt64) : Json → Option UInt64 := Json.orDefault? Json.toWord? default

/-- A text, or a default where nothing is said. -/
def textOr? (default : String) : Json → Option String := Json.orDefault? Json.toText? default

/-- A tip: the height of a sample tip, perhaps with a fork, a text for the origin, or a full tip. -/
def tip? (j : Json) : Option Tip :=
  match j with
  | .number _ => return .sample (← j.toWord?) 0
  | .string _ => some ⟨.origin, 0⟩
  | j => do
    let height := j.get "height"
    if height.isNull then
      let point : Point := ⟨← (j.get "slot").toWord?, ← hash? (j.get "hash")⟩
      return ⟨point, ← wordOr? 0 (j.get "block_number")⟩
    else return .sample (← height.toWord?) (← wordOr? 255 (j.get "fork")).toUInt8

/-- The point of a tip. -/
def point? (j : Json) : Option Point := return (← tip? j).point

/-- A duration in milliseconds. -/
def duration? (j : Json) : Option Duration := return .ofMillis (← j.toWord?)

/-- A range of heights, dropped if it holds none. -/
def range? : Json → Option (Option Bypass.Range)
  | .array [first, stop] => return Bypass.Range.ofBounds? (← first.toWord?) (← stop.toWord?)
  | _ => none

/-- Ranges of heights. -/
def ranges? (j : Json) : Option BypassRanges :=
  return .ofList ((← j.list? range?).filterMap id)

/-- A data source. -/
def dataSource? (j : Json) : Option DataSource := return {
  startBlock := ← (j.get "start_block").orDefault? Json.toWord? 0
  endBlock := ← (j.get "end_block").optional? Json.toWord?
  blockModulo := ← (j.get "block_modulo").optional? Json.toWord? }

end Scenario

end BlockFeed
