import BlockFeed.Yaml.Folding

/-!
# Block scalars in the text

A block scalar is made of the indented lines below its header. The header says whether lines are kept
or joined, how far they are indented if the first of them does not show it, and what becomes of the
breaks at the end: one is kept, or none, or all.
-/

namespace BlockFeed.Yaml

/-- What becomes of the line breaks at the end of a block scalar. -/
inductive Chomping where
  | clip
  | strip
  | keep
  deriving DecidableEq, Repr

/-- What stands after the mark of a block scalar. -/
structure BlockHeader where
  chomping : Chomping
  /-- How much further than its parent the scalar is indented, if it is said. -/
  increment : Option Nat

namespace BlockText

/-- The sign that says what becomes of the breaks at the end. -/
def chomping? : Char → Option Chomping
  | '+' => some .keep
  | '-' => some .strip
  | _ => none

/-- A digit of the header; zero is refused. -/
def increment? (c : Char) : Option (Option Nat) :=
  if '1' ≤ c && c ≤ '9' then some (some (c.toNat - 48))
  else if c = '0' then none
  else some none

/-- Reads the header: a sign and a digit, in either order, each optional, and nothing else on the
line. -/
def header? (c : Cursor) : Option (BlockHeader × Cursor) := do
  let signed := c.rest.head?.bind chomping?
  let c := if signed.isSome then c.advance 1 else c
  let increment ← match c.rest with
    | d :: _ => increment? d
    | [] => some none
  let c := if increment.isSome then c.advance 1 else c
  let late := if signed.isNone && increment.isSome then c.rest.head?.bind chomping? else none
  let c := if late.isSome then c.advance 1 else c
  let next ← c.finishLine?
  return (⟨(signed <|> late).getD .clip, increment⟩, next)

/-- Reads the indentation of a line and the empty lines before it. The breaks so far are given last
first; `widest` is the widest indentation of the empty lines. Up to the indentation of the scalar,
or while it is not known, only spaces may indent. -/
def skipEmptyLines (indent : Option Nat) : (bound : List Char) → (breaks : List Char) →
    (widest : Nat) → Cursor → Option (List Char × Nat × Cursor)
  | [], breaks, widest, c => some (breaks.reverse, max widest c.column, c)
  | _ :: bound, breaks, widest, c =>
    let isIndented (column : Nat) : Bool := indent.any (· ≤ column)
    let spaces := (c.rest.takeWhile (· = ' ')).length
    let taken := match indent with
      | some indent => min spaces (indent - c.column)
      | none => spaces
    let c := c.advance taken
    let widest := max widest c.column
    if c.isAt '\t' && !isIndented c.column then none
    else
      match c.takeBreak? with
      | some (d, next) => skipEmptyLines indent bound (d :: breaks) widest next
      | none => some (breaks.reverse, widest, c)

/-- What separates the next line from the text before it: the line break in between, unless lines
are joined and neither line begins with a blank, and then the breaks of the empty lines. -/
def separation (folds : Bool) (lineEnd : List Char) (breaks : List Char) : List Char :=
  if folds && lineEnd = ['\n'] then (if breaks.isEmpty then [' '] else breaks)
  else lineEnd ++ breaks

/-- Reads the lines that are indented to a column. The text so far is given last first; behind it
stand the break that ended its last line and those of the empty lines since. -/
def lines (literal : Bool) (indent : Nat) : (bound : List Char) → (text : List Char) →
    (afterBlank : Bool) → (lineEnd breaks : List Char) → Cursor →
    Option (List Char × List Char × List Char × Cursor)
  | [], text, _, lineEnd, breaks, c => some (text, lineEnd, breaks, c)
  | _ :: bound, text, afterBlank, lineEnd, breaks, c =>
    if c.column = indent && !c.rest.isEmpty then do
      let startsBlank := c.rest.head?.any isBlank
      let folds := !literal && !afterBlank && !startsBlank
      let line := c.rest.takeWhile fun d => !isBreak d
      let text := line.reverse ++ ((separation folds lineEnd breaks).reverse ++ text)
      let c := c.advance line.length
      let (lineEnd, c) := match c.takeBreak? with
        | some (d, next) => ([d], next)
        | none => ([], c)
      let (breaks, _, c) ← skipEmptyLines (some indent) c.rest [] 0 c
      lines literal indent bound text startsBlank lineEnd breaks c
    else some (text, lineEnd, breaks, c)

/-- The text of the block scalar whose mark stands here, below a parent indented to a column, and
what follows it. A parent to the left of all columns has the column `-1`. -/
def read? (literal : Bool) (parent : Int) (c : Cursor) : Option (List Char × Cursor) := do
  let (header, c) ← header? (c.advance 1)
  let given := header.increment.map fun n => parent.toNat + n
  let (breaks, widest, c) ← skipEmptyLines given c.rest [] 0 c
  let indent := given.getD (max (max widest (parent + 1).toNat) 1)
  let (text, lineEnd, breaks, c) ← lines literal indent c.rest [] false [] breaks c
  let tail := match header.chomping with
    | .strip => []
    | .clip => lineEnd
    | .keep => lineEnd ++ breaks
  return (text.reverse ++ tail, c)

end BlockText

end BlockFeed.Yaml
