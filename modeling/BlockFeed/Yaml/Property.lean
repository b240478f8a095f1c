import BlockFeed.Text.Numeral
import BlockFeed.Yaml.Cursor
import BlockFeed.Yaml.Token

/-!
# Anchors, aliases, tags and directives in the text

A node can carry an anchor, by which an alias refers to it, and a tag. A tag is written in full
between angle brackets, or as a handle and a suffix. The lines before a document can hold directives,
which say the version of the format and what handles stand for.

In a tag a percent sign and two hexadecimal digits stand for an octet. The octets are those of UTF-8
text, of which only the lengths of the sequences are checked; a tag is compared octet by octet, so
each is kept as the character of the same code. An octet of zero ends the text.
-/

namespace BlockFeed.Yaml

namespace Property

/-- What may follow the name of an anchor or alias. -/
def endsName : List Char → Bool
  | [] => true
  | c :: _ =>
    isSpace c || c = '?' || c = ':' || c = ',' || c = ']' || c = '\x7d' || c = '%' || c = '@'
      || c = graveAccent

/-- The name after the mark of an anchor or alias. -/
def name? (c : Cursor) : Option (String × Cursor) :=
  let (name, next) := (c.advance 1).takeName
  if name.isEmpty || !endsName next.rest then none else some (name, next)

/-- A character of a tag. Between angle brackets and in a directive flow marks are allowed. -/
def isTagChar (flowMarks : Bool) (c : Char) : Bool :=
  isNameChar c || c = ';' || c = '/' || c = '?' || c = ':' || c = '@' || c = '&' || c = '=' || c = '+'
    || c = '$' || c = '.' || c = '%' || c = '!' || c = '~' || c = '*' || c = '\'' || c = '(' || c = ')'
    || (flowMarks && (c = ',' || c = '[' || c = ']'))

/-- The octet of a percent sign and two hexadecimal digits. -/
def octet? : List Char → Option Nat
  | '%' :: high :: low :: _ => Numeral.inBase? 16 [high, low]
  | _ => none

/-- The number of octets after the one that begins a character. -/
def following? (octet : Nat) : Option Nat :=
  if octet < 0x80 then some 0
  else if octet < 0xC0 then none
  else if octet < 0xE0 then some 1
  else if octet < 0xF0 then some 2
  else if octet < 0xF8 then some 3
  else none

/-- Reads the characters of a tag, last first after those taken; so many octets are missing of the
character that was begun. -/
def tagText? (flowMarks : Bool) : (bound : List Char) → (missing : Nat) → (taken : List Char) →
    Cursor → Option (List Char × Cursor)
  | [], missing, taken, c => if missing ≠ 0 then none else some (taken, c)
  | _ :: bound, missing, taken, c =>
    match c.rest with
    | '%' :: _ => do
      let octet ← octet? c.rest
      let left ←
        if missing = 0 then following? octet
        else if 0x80 ≤ octet && octet < 0xC0 then some (missing - 1)
        else none
      tagText? flowMarks bound left (Char.ofNat octet :: taken) (c.advance 3)
    | d :: _ =>
      if missing ≠ 0 then none
      else if isTagChar flowMarks d then tagText? flowMarks bound 0 (d :: taken) (c.advance 1)
      else some (taken, c)
    | [] => if missing ≠ 0 then none else some (taken, c)

/-- The rest of a tag after the characters of `head`, which may not both be empty. The text ends at
an octet of zero. -/
def suffix? (flowMarks : Bool) (head : List Char) (c : Cursor) : Option (String × Cursor) := do
  let (taken, next) ← tagText? flowMarks c.rest 0 [] c
  if taken.isEmpty && head.isEmpty then none
  else
    let text := head.drop 1 ++ taken.reverse
    return (String.ofList (text.takeWhile (· ≠ '\x00')), next)

/-- The handle at a cursor: a mark, a name and, if the handle is closed, another mark. -/
def handle? (c : Cursor) : Option (List Char × Cursor) :=
  if !c.isAt '!' then none
  else
    let (name, next) := (c.advance 1).takeName
    if next.isAt '!' then some ('!' :: (name.toList ++ ['!']), next.advance 1)
    else some ('!' :: name.toList, next)

/-- The handle stands for the start of a name, and is not itself the start of a suffix. -/
def isClosed (handle : List Char) : Bool :=
  1 < handle.length && handle.getLast? = some '!'

/-- The handle and suffix of the tag that begins here. The mark alone is a tag of its own, which has
no handle. -/
def tagParts? (c : Cursor) : Option (String × String × Cursor) :=
  match c.rest with
  | '!' :: '<' :: _ => do
    let (text, next) ← suffix? true [] (c.advance 2)
    if next.isAt '>' then return ("", text, next.advance 1) else none
  | _ => do
    let (handle, next) ← handle? c
    if isClosed handle then
      let (text, next) ← suffix? false [] next
      return (String.ofList handle, text, next)
    else
      let (text, next) ← suffix? false handle next
      if text.isEmpty then return ("", "!", next) else return ("!", text, next)

/-- The tag that begins here. A blank or line break follows it, or a comma inside a flow
collection. -/
def tag? (inFlow : Bool) (c : Cursor) : Option (Token × Cursor) := do
  let (handle, suffix, next) ← tagParts? c
  if (inFlow && next.isAt ',') || endsWord next.rest then return (.tag handle suffix, next) else none

/-- One part of a version: at most nine digits. -/
def versionPart? (c : Cursor) : Option (Nat × Cursor) :=
  let digits := c.rest.takeWhile Numeral.isDigit
  if digits.isEmpty || 9 < digits.length then none
  else some (Nat.ofDigitChars 10 digits 0, c.advance digits.length)

/-- The version after the name of its directive. -/
def version? (c : Cursor) : Option (Token × Cursor) := do
  let (major, next) ← versionPart? c.skipBlanks
  if !next.isAt '.' then none
  else
    let (minor, next) ← versionPart? (next.advance 1)
    return (.versionDirective major minor, next)

/-- What a handle stands for, after the name of the directive. -/
def replacement? (c : Cursor) : Option (Token × Cursor) := do
  let (handle, next) ← handle? c.skipBlanks
  if !(handle = ['!'] || isClosed handle) || !(next.rest.head?.any isBlank) then none
  else
    let (text, next) ← suffix? true [] next.skipBlanks
    if endsWord next.rest then return (.tagDirective (String.ofList handle) text, next) else none

/-- The directive that begins here; nothing else stands on its line. -/
def directive? (c : Cursor) : Option (Token × Cursor) := do
  let (name, next) := (c.advance 1).takeName
  let (token, next) ←
    if !endsWord next.rest then none
    else if name = "YAML" then version? next
    else if name = "TAG" then replacement? next
    else none
  return (token, ← next.finishLine?)

end Property

end BlockFeed.Yaml
