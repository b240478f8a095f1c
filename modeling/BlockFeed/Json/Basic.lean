import BlockFeed.Text.Numeral

/-!
# JSON values

A JSON value keeps its numbers as they were written and the fields of an object in their order,
duplicates included, so that a reader of structures can be as strict as it needs to be. Values are
printed without white space.
-/

namespace BlockFeed

/-- A JSON value. -/
inductive Json where
  | null
  | bool (value : Bool)
  | number (literal : String)
  | string (text : String)
  | array (items : List Json)
  | object (fields : List (String × Json))
  /-- An object with a key that is no text: it can be passed over, but nothing is read from it. -/
  | unreadable
  deriving Inhabited

namespace Json

/-- A whole number. -/
def ofNat (n : Nat) : Json := .number (Numeral.ofNat n)

/-- A whole number with its sign. -/
def ofInt : Int → Json
  | .ofNat n => ofNat n
  | .negSucc n => .number ("-" ++ Numeral.ofNat (n + 1))

/-- A 64-bit word. -/
def ofWord (n : UInt64) : Json := ofNat n.toNat

/-- A value that may be missing. -/
def ofOption {α : Type} (f : α → Json) : Option α → Json
  | some a => f a
  | none => .null

/-- A list of texts. -/
def ofTexts (texts : List String) : Json := .array (texts.map .string)

/-- A word written as an integer without sign, fraction or exponent. -/
def toWord? : Json → Option UInt64
  | .number literal =>
    match literal.toList with
    | '+' :: _ => none
    | cs => Numeral.word? cs
  | _ => none

/-- The text of a string value. -/
def toText? : Json → Option String
  | .string text => some text
  | _ => none

/-- The four hexadecimal digits of a code below 65536. -/
def hex4 (n : Nat) : List Char :=
  [n / 4096 % 16, n / 256 % 16, n / 16 % 16, n % 16].map Nat.digitChar

/-- The printed form of one character of a string. -/
def escape (c : Char) : List Char :=
  if c = '"' then ['\\', '"']
  else if c = '\\' then ['\\', '\\']
  else if c = '\n' then ['\\', 'n']
  else if c = '\r' then ['\\', 'r']
  else if c = '\t' then ['\\', 't']
  else if c = '\x08' then ['\\', 'b']
  else if c = '\x0c' then ['\\', 'f']
  else if c.toNat < 32 then ['\\', 'u'] ++ hex4 c.toNat
  else [c]

/-- The printed form of a string. -/
def quote (text : String) : String :=
  "\"" ++ String.ofList (text.toList.flatMap escape) ++ "\""

mutual

/-- The printed form of a value. -/
def render : Json → String
  | .null => "null"
  | .bool true => "true"
  | .bool false => "false"
  | .number literal => literal
  | .string text => quote text
  | .array [] => "[]"
  | .array (first :: rest) => "[" ++ render first ++ renderItems rest
  | .object [] => "\x7b\x7d"
  | .unreadable => "\x7b\x7d"
  | .object ((key, value) :: rest) =>
    "\x7b" ++ quote key ++ ":" ++ render value ++ renderFields rest

/-- The items of an array after the first, and its closing bracket. -/
def renderItems : List Json → String
  | [] => "]"
  | item :: rest => "," ++ render item ++ renderItems rest

/-- The fields of an object after the first, and its closing brace. -/
def renderFields : List (String × Json) → String
  | [] => "\x7d"
  | (key, value) :: rest => "," ++ quote key ++ ":" ++ render value ++ renderFields rest

end

end Json

end BlockFeed
