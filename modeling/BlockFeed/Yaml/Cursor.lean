import BlockFeed.Yaml.Alphabet

/-!
# A place in a document

A `Cursor` is the rest of the input together with where it begins: how many octets lie before it, on
which line it stands and in which column. Tokens are read by moving a cursor on; a move along a line
keeps the line, a move over a line break begins the next.

Readers that repeat a step are given the rest of the input as a bound: each step takes a character at
least, so there are no more steps than characters.
-/

namespace BlockFeed.Yaml

/-- The rest of the input and where its first character stands. -/
structure Cursor where
  rest : List Char
  /-- The octets before it, in UTF-8. -/
  index : Nat
  line : Nat
  column : Nat

namespace Cursor

/-- The start of a text. -/
def start (text : List Char) : Cursor := ⟨text, 0, 0, 0⟩

/-- The index behind the next `n` characters. -/
def indexAfter (c : Cursor) (n : Nat) : Nat :=
  (c.rest.take n).foldl (fun index d => index + d.utf8Size) c.index

/-- Past the next `n` characters of the same line. -/
def advance (c : Cursor) (n : Nat) : Cursor :=
  ⟨c.rest.drop n, c.indexAfter n, c.line, c.column + n⟩

/-- Past the characters of this line that meet a condition. -/
def skipWhile (c : Cursor) (p : Char → Bool) : Cursor := c.advance (c.rest.takeWhile p).length

/-- At the start of the next line, after a line break of `n` characters. -/
def nextLine (c : Cursor) (n : Nat) : Cursor := ⟨c.rest.drop n, c.indexAfter n, c.line + 1, 0⟩

/-- A line break as it is read, and what follows it. A carriage return takes the line feed after it
along. -/
def takeBreak? (c : Cursor) : Option (Char × Cursor) :=
  match c.rest with
  | '\r' :: '\n' :: _ => some ('\n', c.nextLine 2)
  | d :: _ =>
    if isPlainBreak d then some ('\n', c.nextLine 1)
    else if isSeparator d then some (d, c.nextLine 1)
    else none
  | [] => none

/-- Past a line break, if there is one. -/
def skipBreak (c : Cursor) : Cursor :=
  match c.takeBreak? with
  | some (_, next) => next
  | none => c

/-- Past blanks. -/
def skipBlanks (c : Cursor) : Cursor := c.skipWhile isBlank

/-- Past a comment, if one begins here. -/
def skipComment (c : Cursor) : Cursor :=
  match c.rest with
  | '#' :: _ => c.skipWhile fun d => !isBreak d
  | _ => c

/-- A line break or the end comes next. -/
def endsLine (c : Cursor) : Bool :=
  match c.rest with
  | [] => true
  | d :: _ => isBreak d

/-- The next character is the given one. -/
def isAt (c : Cursor) (d : Char) : Bool := c.rest.head? = some d

/-- Three hyphens at the start of a line, which begin a document. -/
def atDocumentStart (c : Cursor) : Bool :=
  c.column = 0 &&
    match c.rest with
    | '-' :: '-' :: '-' :: rest => endsWord rest
    | _ => false

/-- Three dots at the start of a line, which end a document. -/
def atDocumentEnd (c : Cursor) : Bool :=
  c.column = 0 &&
    match c.rest with
    | '.' :: '.' :: '.' :: rest => endsWord rest
    | _ => false

/-- A mark that begins or ends a document. No scalar but a block scalar goes on past it. -/
def atDocumentMark (c : Cursor) : Bool := c.atDocumentStart || c.atDocumentEnd

/-- Past what is left of a line that holds no more than blanks and a comment. -/
def finishLine? (c : Cursor) : Option Cursor :=
  let next := c.skipBlanks.skipComment
  if next.endsLine then some next.skipBreak else none

/-- The name at a cursor, which may be empty, and what follows it. -/
def takeName (c : Cursor) : String × Cursor :=
  let name := c.rest.takeWhile isNameChar
  (String.ofList name, c.advance name.length)

end Cursor

end BlockFeed.Yaml
