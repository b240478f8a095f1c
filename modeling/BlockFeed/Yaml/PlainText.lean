import BlockFeed.Yaml.Folding

/-!
# Plain scalars in the text

A plain scalar is a run of words. It ends before a colon that a space follows, before a comment, at
the mark of a document, where a line is not indented enough and, inside a flow collection, before a
flow mark. The blanks before its end are not part of it.
-/

namespace BlockFeed.Yaml

/-- Where a plain scalar stands. -/
structure PlainContext where
  inFlow : Bool
  /-- The column to which its further lines are indented. -/
  indent : Nat

/-- The text of a plain scalar and what follows it. -/
structure PlainText where
  text : List Char
  /-- The scalar ends on a line of its own: what follows it begins a line. -/
  endsOnNewLine : Bool
  next : Cursor

namespace PlainText

/-- A plain scalar begins here. The indicators `-`, `?` and `:` begin one if something follows
them, the latter two outside flow collections only. -/
def begins (inFlow : Bool) : List Char → Bool
  | [] => false
  | c :: rest =>
    if c = '-' then !(rest.head?.any isBlank)
    else if c = '?' || c = ':' then !inFlow && !endsWord rest
    else !isSpace c && !isIndicator c

/-- A character that may not follow a colon inside a flow collection. -/
def isRefusedAfterColon (c : Char) : Bool := isFlowMark c || c = '?'

/-- The word at the start of the input, which may be empty, last character first; `taken` is what
was read of it. `none` is a colon before a flow mark. -/
def word? (inFlow : Bool) : (taken : List Char) → List Char → Option (List Char)
  | taken, [] => some taken
  | taken, c :: rest =>
    if isSpace c then some taken
    else if inFlow && c = ':' && rest.head?.any isRefusedAfterColon then none
    else if c = ':' && endsWord rest then some taken
    else if inFlow && isFlowMark c then some taken
    else word? inFlow (c :: taken) rest

/-- Reads on after the text so far, which is given last first, and the gap behind it. -/
def readFrom (context : PlainContext) : (bound : List Char) → (text : List Char) → Gap → Cursor →
    Option PlainText
  | [], text, gap, c => some ⟨text.reverse, gap.crossesLine, c⟩
  | _ :: bound, text, gap, c =>
    let finish : PlainText := ⟨text.reverse, gap.crossesLine, c⟩
    if c.atDocumentMark || c.isAt '#' then some finish
    else do
      let word ← word? context.inFlow [] c.rest
      if word.isEmpty then return finish
      let text := word ++ (gap.text.reverse ++ text)
      let (gap, next) ← Gap.read? context.indent (c.advance word.length)
      if !context.inFlow && gap.crossesLine && next.column < context.indent then
        return ⟨text.reverse, true, next⟩
      else if gap = Gap.none then return ⟨text.reverse, false, next⟩
      else readFrom context bound text gap next

/-- The plain scalar that begins here. -/
def read? (context : PlainContext) (c : Cursor) : Option PlainText :=
  readFrom context c.rest [] Gap.none c

end PlainText

end BlockFeed.Yaml
