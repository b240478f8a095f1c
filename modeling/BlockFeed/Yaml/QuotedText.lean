import BlockFeed.Text.Numeral
import BlockFeed.Yaml.Folding

/-!
# Quoted scalars in the text

Between single quotation marks two of them stand for one, and everything else for itself. Between
double ones a backslash begins an escape: a letter for a control character or separator, a code in
hexadecimal digits, or a line break that is not text. Lines are folded in both, and no line may begin
with the mark of a document.
-/

namespace BlockFeed.Yaml

namespace QuotedText

/-- The character with a code of `width` hexadecimal digits. -/
def codePoint? (width : Nat) (cs : List Char) : Option Char :=
  if cs.length < width then none
  else do
    let code ← Numeral.inBase? 16 (cs.take width)
    if code.isValidChar then return Char.ofNat code else none

/-- The character that an escape of one letter stands for. -/
def letter? : Char → Option Char
  | '0' => some '\x00'
  | 'a' => some '\x07'
  | 'b' => some '\x08'
  | 't' => some '\t'
  | '\t' => some '\t'
  | 'n' => some '\n'
  | 'v' => some '\x0b'
  | 'f' => some '\x0c'
  | 'r' => some '\r'
  | 'e' => some '\x1b'
  | ' ' => some ' '
  | '"' => some '"'
  | '/' => some '/'
  | '\\' => some '\\'
  | 'N' => some '\u0085'
  | '_' => some '\u00a0'
  | 'L' => some '\u2028'
  | 'P' => some '\u2029'
  | _ => none

/-- The number of digits of a numeric escape. -/
def codeWidth? : Char → Option Nat
  | 'x' => some 2
  | 'u' => some 4
  | 'U' => some 8
  | _ => none

/-- The character that the escape after a backslash stands for, and the length of the escape. -/
def escape? : List Char → Option (Char × Nat)
  | [] => none
  | c :: rest =>
    match codeWidth? c with
    | some width => (codePoint? width rest).map (·, width + 1)
    | none => (letter? c).map (·, 1)

/-- What a word of a quoted scalar is followed by. -/
inductive Stop where
  /-- A blank, a break or the end. -/
  | space
  /-- The closing mark. -/
  | mark
  /-- A backslash that ends its line. -/
  | escapedBreak

/-- The word at a cursor, which may be empty, last character first after `text`. -/
def word? (double : Bool) : (bound : List Char) → (text : List Char) → Cursor →
    Option (List Char × Stop × Cursor)
  | [], text, c => some (text, .space, c)
  | _ :: bound, text, c =>
    match c.rest with
    | [] => some (text, .space, c)
    | d :: rest =>
      if isSpace d then some (text, .space, c)
      else if double && d = '"' then some (text, .mark, c)
      else if double && d = '\\' then
        if rest.head?.any isBreak then some (text, .escapedBreak, c.advance 1)
        else do
          let (e, length) ← escape? rest
          word? double bound (e :: text) (c.advance (length + 1))
      else if !double && d = '\'' then
        if rest.head? = some '\'' then word? double bound (d :: text) (c.advance 2)
        else some (text, .mark, c)
      else word? double bound (d :: text) (c.advance 1)

/-- Reads on after the text so far, which is given last first. After an escaped line break the line
breaks that follow are text and the blanks are not. -/
def readFrom (double : Bool) : (bound : List Char) → (text : List Char) → Cursor →
    Option (List Char × Cursor)
  | [], _, _ => none
  | _ :: bound, text, c =>
    if c.atDocumentMark || c.rest.isEmpty then none
    else do
      let (text, stop, next) ← word? double c.rest text c
      match stop with
      | .mark => return (text.reverse, next.advance 1)
      | .space =>
        let (gap, next) ← Gap.read? 0 next
        readFrom double bound (gap.text.reverse ++ text) next
      | .escapedBreak =>
        let next := next.skipBreak
        if next.isAt '"' then return (text.reverse, next.advance 1)
        else
          let (gap, next) ← Gap.read? 0 next
          readFrom double bound (gap.breaks.reverse ++ text) next

/-- The text of the quoted scalar that begins here, and what follows it. -/
def read? (double : Bool) (c : Cursor) : Option (List Char × Cursor) :=
  readFrom double c.rest [] (c.advance 1)

end QuotedText

end BlockFeed.Yaml
