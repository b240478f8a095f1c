import BlockFeed.Yaml.Cursor

/-!
# Folding lines

Between two words of a scalar there may be blanks and line breaks. Blanks within a line are text. A
single line feed is read as a space, and of several the first is dropped; a Unicode separator is
kept, and so are the breaks after it. Blanks around line breaks are never text.
-/

namespace BlockFeed.Yaml

/-- What stands between two words of a scalar. -/
structure Gap where
  /-- The blanks, if no line break is crossed. -/
  blanks : List Char
  /-- The line breaks as they are read. -/
  breaks : List Char
  deriving DecidableEq, Repr

namespace Gap

/-- Nothing between two words. -/
def none : Gap := ⟨[], []⟩

/-- A line break is crossed. -/
def crossesLine (g : Gap) : Bool := !g.breaks.isEmpty

/-- The text that line breaks are read as. -/
def foldBreaks : List Char → List Char
  | ['\n'] => [' ']
  | '\n' :: more => more
  | breaks => breaks

/-- The text that a gap is read as. -/
def text (g : Gap) : List Char :=
  if g.crossesLine then foldBreaks g.breaks else g.blanks

/-- A tab may not indent a line to a column left of `indent`. -/
def tabIndents (indent : Nat) (crossed : Bool) (column : Nat) (c : Char) : Bool :=
  crossed && column < indent && c = '\t'

/-- Reads blanks and breaks up to the next word; those read so far are given last first. `none` is a
tab where a line has to be indented. -/
def readFrom (indent : Nat) : (bound : List Char) → (blanks breaks : List Char) → Cursor →
    Option (Gap × Cursor)
  | [], blanks, breaks, c => some (⟨blanks.reverse, breaks.reverse⟩, c)
  | _ :: bound, blanks, breaks, c =>
    match c.takeBreak? with
    | some (d, next) => readFrom indent bound blanks (d :: breaks) next
    | Option.none =>
      match c.rest with
      | d :: _ =>
        if !isBlank d then some (⟨blanks.reverse, breaks.reverse⟩, c)
        else if tabIndents indent (!breaks.isEmpty) c.column d then Option.none
        else readFrom indent bound (d :: blanks) breaks (c.advance 1)
      | [] => some (⟨blanks.reverse, breaks.reverse⟩, c)

/-- The gap at a cursor and what follows it; its further lines must be indented to a column by
spaces. -/
def read? (indent : Nat) (c : Cursor) : Option (Gap × Cursor) :=
  readFrom indent c.rest [] [] c

end Gap

end BlockFeed.Yaml
