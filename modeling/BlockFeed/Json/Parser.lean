import BlockFeed.Json.Basic

/-!
# Reading JSON

A strict reader: white space is space, tab, newline and carriage return; numbers have no leading
zeros and no plus sign; strings hold no bare control character; nothing may follow the value.

An escaped surrogate without its partner is read as the replacement character. In a key it makes the
object around it unreadable, which matters only where something is read from the object.
-/

namespace BlockFeed.Json

/-- White space between tokens. -/
def isSpace (c : Char) : Bool := c = ' ' || c = '\t' || c = '\n' || c = '\r'

/-- The input after white space. -/
def skipSpace (cs : List Char) : List Char := cs.dropWhile isSpace

/-- The code of four hexadecimal digits, with the input after them. -/
def code? : List Char → Option (Nat × List Char)
  | a :: b :: c :: d :: rest => (Numeral.inBase? 16 [a, b, c, d]).map (·, rest)
  | _ => none

/-- The characters of a string after its opening quotation mark, with the input after it. `none`
stands for a surrogate without its partner. -/
def stringBody? : (bound : List Char) → List Char → Option (List (Option Char) × List Char)
  | [], _ => none
  | _ :: bound, cs =>
    let next (c : Option Char) (rest : List Char) :=
      (stringBody? bound rest).map fun (body, rest) => (c :: body, rest)
    match cs with
    | [] => none
    | '"' :: rest => some ([], rest)
    | '\\' :: '"' :: rest => next '"' rest
    | '\\' :: '\\' :: rest => next '\\' rest
    | '\\' :: '/' :: rest => next '/' rest
    | '\\' :: 'b' :: rest => next '\x08' rest
    | '\\' :: 'f' :: rest => next '\x0c' rest
    | '\\' :: 'n' :: rest => next '\n' rest
    | '\\' :: 'r' :: rest => next '\r' rest
    | '\\' :: 't' :: rest => next '\t' rest
    | '\\' :: 'u' :: rest =>
      match code? rest with
      | none => none
      | some (code, rest) =>
        if 0xD800 ≤ code && code < 0xDC00 then
          match rest with
          | '\\' :: 'u' :: rest' =>
            match code? rest' with
            | none => none
            | some (low, rest'') =>
              if 0xDC00 ≤ low && low < 0xE000 then
                next (Char.ofNat (0x10000 + (code - 0xD800) * 0x400 + (low - 0xDC00))) rest''
              else next none rest
          | _ => next none rest
        else if 0xDC00 ≤ code && code < 0xE000 then next none rest
        else next (Char.ofNat code) rest
    | '\\' :: _ => none
    | c :: rest => if c.toNat < 32 then none else next c rest

/-- A string after its opening quotation mark. -/
def string? (cs : List Char) : Option (String × List Char) :=
  (stringBody? cs cs).map fun (body, rest) =>
    (String.ofList (body.map (·.getD '\uFFFD')), rest)

/-- The key of a field after its opening quotation mark; `none` inside if it is no text. -/
def key? (cs : List Char) : Option (Option String × List Char) :=
  (stringBody? cs cs).map fun (body, rest) =>
    ((body.mapM id).map String.ofList, rest)

/-- The object with the given fields, which are read from it if all of their keys are texts. -/
def ofFields (fields : List (Option String × Json)) : Json :=
  match fields.mapM fun (key, value) => key.map (·, value) with
  | some fields => .object fields
  | none => .unreadable

/-- A leading run of digits, and what follows it. -/
def digits (cs : List Char) : List Char × List Char :=
  (cs.takeWhile Numeral.isDigit, cs.dropWhile Numeral.isDigit)

/-- The whole part of a number: a zero alone, or digits that do not begin with one. -/
def wholePart? (cs : List Char) : Option (List Char × List Char) :=
  match cs with
  | '0' :: rest =>
    match rest with
    | c :: _ => if Numeral.isDigit c then none else some (['0'], rest)
    | [] => some (['0'], rest)
  | _ =>
    let (ds, rest) := digits cs
    if ds.isEmpty then none else some (ds, rest)

/-- The fraction of a number, if there is one. -/
def fraction? (cs : List Char) : Option (List Char × List Char) :=
  match cs with
  | '.' :: rest =>
    let (ds, rest) := digits rest
    if ds.isEmpty then none else some ('.' :: ds, rest)
  | _ => some ([], cs)

/-- The exponent of a number, if there is one. -/
def exponent? (cs : List Char) : Option (List Char × List Char) :=
  let afterMark (mark : Char) (rest : List Char) : Option (List Char × List Char) :=
    let (sign, rest) := match rest with
      | '+' :: rest => (['+'], rest)
      | '-' :: rest => (['-'], rest)
      | _ => ([], rest)
    let (ds, rest) := digits rest
    if ds.isEmpty then none else some (mark :: (sign ++ ds), rest)
  match cs with
  | 'e' :: rest => afterMark 'e' rest
  | 'E' :: rest => afterMark 'E' rest
  | _ => some ([], cs)

/-- A number as it is written. -/
def number? (cs : List Char) : Option (String × List Char) := do
  let (sign, cs) := match cs with
    | '-' :: rest => (['-'], rest)
    | _ => ([], cs)
  let (whole, cs) ← wholePart? cs
  let (fraction, cs) ← fraction? cs
  let (exponent, cs) ← exponent? cs
  return (String.ofList (sign ++ whole ++ fraction ++ exponent), cs)

mutual

/-- A value at the front of the input. -/
def value? : (fuel : Nat) → List Char → Option (Json × List Char)
  | 0, _ => none
  | fuel + 1, cs =>
    match skipSpace cs with
    | 'n' :: 'u' :: 'l' :: 'l' :: rest => some (.null, rest)
    | 't' :: 'r' :: 'u' :: 'e' :: rest => some (.bool true, rest)
    | 'f' :: 'a' :: 'l' :: 's' :: 'e' :: rest => some (.bool false, rest)
    | '"' :: rest => (string? rest).map fun (text, rest) => (.string text, rest)
    | '[' :: rest =>
      match skipSpace rest with
      | ']' :: rest => some (.array [], rest)
      | rest => (items? fuel rest).map fun (items, rest) => (.array items, rest)
    | '\x7b' :: rest =>
      match skipSpace rest with
      | '\x7d' :: rest => some (.object [], rest)
      | rest => (fields? fuel rest).map fun (fields, rest) => (ofFields fields, rest)
    | cs => (number? cs).map fun (literal, rest) => (.number literal, rest)

/-- The items of an array up to its closing bracket. -/
def items? : (fuel : Nat) → List Char → Option (List Json × List Char)
  | 0, _ => none
  | fuel + 1, cs => do
    let (item, rest) ← value? fuel cs
    match skipSpace rest with
    | ']' :: rest => return ([item], rest)
    | ',' :: rest =>
      let (items, rest) ← items? fuel rest
      return (item :: items, rest)
    | _ => none

/-- The fields of an object up to its closing brace. -/
def fields? : (fuel : Nat) → List Char → Option (List (Option String × Json) × List Char)
  | 0, _ => none
  | fuel + 1, cs =>
    match skipSpace cs with
    | '"' :: rest => do
      let (key, rest) ← key? rest
      match skipSpace rest with
      | ':' :: rest =>
        let (value, rest) ← value? fuel rest
        match skipSpace rest with
        | '\x7d' :: rest => return ([(key, value)], rest)
        | ',' :: rest =>
          let (fields, rest) ← fields? fuel rest
          return ((key, value) :: fields, rest)
        | _ => none
      | _ => none
    | _ => none

end

/-- Reads a text that is one JSON value. Every step takes a character, so the length of the text
bounds their number. -/
def parse? (text : String) : Option Json :=
  let cs := text.toList
  match value? (cs.length + 1) cs with
  | some (value, rest) => if (skipSpace rest).isEmpty then some value else none
  | none => none

end BlockFeed.Json
