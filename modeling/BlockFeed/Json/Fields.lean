import BlockFeed.Json.Basic

/-!
# Structures in JSON

A structure is written as an object, whose known fields each occur once in any order and whose
other fields are ignored, or as the array of exactly its fields in their order.
-/

namespace BlockFeed.Json

/-- The value of a field that occurs exactly once. -/
def field? (name : String) (fields : List (String × Json)) : Option Json :=
  match fields.filter (·.1 = name) with
  | [(_, value)] => some value
  | _ => none

/-- The values of a structure with these fields, in this order. -/
def structure? (names : List String) : Json → Option (List Json)
  | .object fields => names.mapM (field? · fields)
  | .array items => if items.length = names.length then some items else none
  | _ => none

end BlockFeed.Json
