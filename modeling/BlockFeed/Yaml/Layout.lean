import BlockFeed.Yaml.BlockText
import BlockFeed.Yaml.PlainText
import BlockFeed.Yaml.Property
import BlockFeed.Yaml.QuotedText

/-!
# The layout of a document

Indentation says where block collections begin and end. A node that is indented further than the
collection around it begins one if it is an entry or a key, and a node that is indented less ends
those it does not belong to. Inside flow collections indentation means nothing.

Whether a node is a key shows only when a colon follows it. Wherever a key may begin, a `Candidate`
remembers the place; a colon on the same line, at most 1024 octets on, puts the `key` token there.
There is one candidate for the block level and one for each flow collection that is open.

`Token.ofText?` reads the tokens of a whole text.
-/

namespace BlockFeed.Yaml

/-- A node that may turn out to be a key. -/
structure Candidate where
  /-- The tokens before the node. -/
  position : Nat
  /-- The node stands where only a key may stand. -/
  required : Bool
  index : Nat
  line : Nat
  column : Nat

namespace Candidate

/-- The farthest that a colon may be from the start of its key. -/
def reach : Nat := 1024

/-- A colon at the cursor is near enough to end the key. -/
def reaches (k : Candidate) (c : Cursor) : Bool :=
  k.line = c.line && c.index ≤ k.index + reach

end Candidate

/-- The tokens read so far and the collections that are open. -/
structure Layout where
  cursor : Cursor
  /-- The tokens, last first. -/
  tokens : List Token
  count : Nat
  /-- The column of the innermost block collection; `-1` outside all. -/
  indent : Int
  /-- The columns of the collections around it, innermost first. -/
  outer : List Int
  candidate : Option Candidate
  /-- The candidates of the levels around the innermost flow collection, innermost first. -/
  enclosing : List (Option Candidate)
  /-- A key may begin at the next token. -/
  keyAllowed : Bool

namespace Layout

/-- Nothing is read yet. -/
def start (text : List Char) : Layout := ⟨.start text, [], 0, -1, [], none, [], true⟩

/-- A flow collection is open. -/
def inFlow (l : Layout) : Bool := !l.enclosing.isEmpty

/-- Adds a token. -/
def emit (l : Layout) (t : Token) : Layout :=
  { l with tokens := t :: l.tokens, count := l.count + 1 }

/-- Adds a token before which there are to be `position` others. -/
def emitAt (l : Layout) (position : Nat) (t : Token) : Layout :=
  let later := l.count - position
  { l with tokens := l.tokens.take later ++ t :: l.tokens.drop later, count := l.count + 1 }

/-- Adds a token that takes up `length` characters. -/
def take (l : Layout) (length : Nat) (t : Token) : Layout :=
  { l.emit t with cursor := l.cursor.advance length }

/-- Begins a block collection at a column that is farther right than the innermost one. -/
def openBlock (l : Layout) (column position : Nat) (t : Token) : Layout :=
  if !l.inFlow && l.indent < column then
    { l.emitAt position t with indent := column, outer := l.indent :: l.outer }
  else l

/-- The collections that remain, and the number that end, where a node stands at a column. -/
def unindent (column : Int) : (indent : Int) → (outer : List Int) → Int × List Int × Nat
  | indent, [] => (indent, [], 0)
  | indent, next :: outer =>
    if column < indent then
      let (indent, outer, ended) := unindent column next outer
      (indent, outer, ended + 1)
    else (indent, next :: outer, 0)

/-- Ends the block collections that are farther right than a column. -/
def closeBlocks (l : Layout) (column : Int) : Layout :=
  if l.inFlow then l
  else
    let (indent, outer, ended) := unindent column l.indent l.outer
    { l with
      tokens := List.replicate ended .blockEnd ++ l.tokens
      count := l.count + ended
      indent := indent
      outer := outer }

/-- The candidate will be no key; a required one is missed. -/
def dropCandidate? (l : Layout) : Option Layout :=
  if l.candidate.any (·.required) then none else some { l with candidate := none }

/-- A key may begin here, if one is allowed. -/
def markCandidate? (l : Layout) : Option Layout :=
  if l.keyAllowed then do
    let l ← l.dropCandidate?
    let c := l.cursor
    let required := !l.inFlow && l.indent = c.column
    return { l with candidate := some ⟨l.count, required, c.index, c.line, c.column⟩ }
  else some l

/-- What follows may begin with a key, or may not. -/
def allowKey (l : Layout) (allowed : Bool) : Layout := { l with keyAllowed := allowed }

/-- Past blanks, comments and line breaks. In block context a new line may begin with a key, and
where a key may begin a tab does not count as a blank. -/
def skipGaps : (bound : List Char) → Layout → Layout
  | [], l => l
  | _ :: bound, l =>
    let c := l.cursor.skipWhile fun d => d = ' ' || (d = '\t' && (l.inFlow || !l.keyAllowed))
    let c := c.skipComment
    match c.takeBreak? with
    | some (_, next) =>
      skipGaps bound { l with cursor := next, keyAllowed := !l.inFlow || l.keyAllowed }
    | none => { l with cursor := c }

/-- A mark of byte order at the very start is passed over. -/
def skipOrderMark (c : Cursor) : Cursor :=
  if c.index = 0 && c.isAt '\uFEFF' then c.advance 1 else c

/-- The end of the text, where every block collection ends. -/
def finish? (l : Layout) : Option (List Token) := do
  let l ← (l.closeBlocks (-1)).dropCandidate?
  return l.tokens.reverse

/-- A directive, or a mark that begins or ends a document. Block collections end before it. -/
def boundary? (l : Layout) : Option Layout := do
  let l ← (l.closeBlocks (-1)).dropCandidate?
  return l.allowKey false

/-- The start of a flow collection, which may be a key as a whole. -/
def openFlow? (l : Layout) (t : Token) : Option Layout := do
  let l ← l.markCandidate?
  return { l.take 1 t with
    candidate := none
    enclosing := l.candidate :: l.enclosing
    keyAllowed := true }

/-- The end of a flow collection. -/
def closeFlow? (l : Layout) (t : Token) : Option Layout := do
  let l ← l.dropCandidate?
  let l := match l.enclosing with
    | candidate :: enclosing => { l with candidate := candidate, enclosing := enclosing }
    | [] => l
  return (l.take 1 t).allowKey false

/-- A comma between the parts of a flow collection. -/
def flowEntry? (l : Layout) : Option Layout := do
  let l ← l.dropCandidate?
  return (l.take 1 .flowEntry).allowKey true

/-- A mark that begins an entry or a key where a block collection may begin. -/
def openEntry? (l : Layout) (t : Token) : Option Layout :=
  if l.inFlow then some l
  else if l.keyAllowed then some (l.openBlock l.cursor.column l.count t)
  else none

/-- The mark of an entry of a block sequence. -/
def blockEntry? (l : Layout) : Option Layout := do
  let l ← l.openEntry? .blockSequenceStart
  let l ← l.dropCandidate?
  return (l.take 1 .blockEntry).allowKey true

/-- The mark of a key. -/
def key? (l : Layout) : Option Layout := do
  let l ← l.openEntry? .blockMappingStart
  let l ← l.dropCandidate?
  return (l.take 1 .key).allowKey !l.inFlow

/-- The candidate that a colon at the cursor makes a key, if there is one. A required one that is
too far away is refused. -/
def keyBefore? (l : Layout) : Option (Option Candidate) :=
  match l.candidate with
  | none => some none
  | some k =>
    if k.reaches l.cursor then some (some k) else if k.required then none else some none

/-- The colon after a key. -/
def value? (l : Layout) : Option Layout := do
  match ← l.keyBefore? with
  | some k =>
    let l := (l.emitAt k.position .key).openBlock k.column k.position .blockMappingStart
    return { l.take 1 .value with candidate := none, keyAllowed := false }
  | none =>
    let l ← l.openEntry? .blockMappingStart
    return { l.take 1 .value with candidate := none, keyAllowed := !l.inFlow }

/-- A node that may be a key, of which `read` gives the token and what follows it. -/
def node? (l : Layout) (read : Cursor → Option (Token × Cursor)) : Option Layout := do
  let l ← l.markCandidate?
  let (token, next) ← read l.cursor
  return { l.emit token with cursor := next, keyAllowed := false }

/-- A quoted scalar. -/
def quoted? (l : Layout) (double : Bool) : Option Layout :=
  l.node? fun c => do
    let (text, next) ← QuotedText.read? double c
    return (.scalar (String.ofList text) (if double then .doubleQuoted else .singleQuoted), next)

/-- A block scalar. A key may follow it. -/
def block? (l : Layout) (literal : Bool) : Option Layout := do
  let l ← l.dropCandidate?
  let (text, next) ← BlockText.read? literal l.indent l.cursor
  let style := if literal then ScalarStyle.literal else .folded
  return { l.emit (.scalar (String.ofList text) style) with cursor := next, keyAllowed := true }

/-- A plain scalar. A key may follow it on a line of its own. -/
def plain? (l : Layout) : Option Layout := do
  let l ← l.markCandidate?
  let scalar ← PlainText.read? ⟨l.inFlow, (l.indent + 1).toNat⟩ l.cursor
  return { l.emit (.scalar (String.ofList scalar.text) .plain) with
    cursor := scalar.next
    keyAllowed := scalar.endsOnNewLine }

/-- Adds the tokens for what begins with a character; `rest` stands behind it. -/
def read? (l : Layout) (c : Char) (rest : List Char) : Option Layout :=
  if l.cursor.column = 0 && c = '%' then do
    let l ← l.boundary?
    let (token, next) ← Property.directive? l.cursor
    return { l.emit token with cursor := next }
  else if l.cursor.atDocumentStart then do return (← l.boundary?).take 3 .documentStart
  else if l.cursor.atDocumentEnd then do return (← l.boundary?).take 3 .documentEnd
  else if c = '[' then l.openFlow? .flowSequenceStart
  else if c = '\x7b' then l.openFlow? .flowMappingStart
  else if c = ']' then l.closeFlow? .flowSequenceEnd
  else if c = '\x7d' then l.closeFlow? .flowMappingEnd
  else if c = ',' then l.flowEntry?
  else if c = '-' && endsWord rest then l.blockEntry?
  else if c = '?' && (l.inFlow || endsWord rest) then l.key?
  else if c = ':' && (l.inFlow || endsWord rest) then l.value?
  else if c = '*' then l.node? fun c => (Property.name? c).map fun (name, next) => (.alias name, next)
  else if c = '&' then l.node? fun c => (Property.name? c).map fun (name, next) => (.anchor name, next)
  else if c = '!' then l.node? (Property.tag? l.inFlow)
  else if c = '|' && !l.inFlow then l.block? true
  else if c = '>' && !l.inFlow then l.block? false
  else if c = '\'' then l.quoted? false
  else if c = '"' then l.quoted? true
  else if PlainText.begins l.inFlow (c :: rest) then l.plain?
  else none

/-- Reads on to the end of the text. -/
def run? : (bound : List Char) → Layout → Option (List Token)
  | [], l => l.finish?
  | _ :: bound, l =>
    let l := skipGaps l.cursor.rest { l with cursor := skipOrderMark l.cursor }
    match l.cursor.rest with
    | [] => l.finish?
    | c :: rest => do
      let l ← (l.closeBlocks l.cursor.column).read? c rest
      run? bound l

end Layout

/-- The tokens of a text, if it is well formed. -/
def Token.ofText? (text : String) : Option (List Token) :=
  let cs := text.toList
  if cs.all isAllowed then Layout.run? cs (.start cs) else none

end BlockFeed.Yaml
