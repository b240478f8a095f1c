/-!
# The alphabet of YAML

Which characters a document may hold, and the classes on which its layout depends. Blanks are space
and tab; lines end at any of five characters, of which the two Unicode separators stay as they are
when a line is folded. Names of anchors and handles are made of ASCII letters, digits, `_` and `-`.
-/

namespace BlockFeed.Yaml

/-- A character that may stand in a document. -/
def isAllowed (c : Char) : Bool :=
  let n := c.toNat
  n = 9 || n = 10 || n = 13 || (0x20 ≤ n && n ≤ 0x7E) || n = 0x85 || (0xA0 ≤ n && n ≤ 0xD7FF)
    || (0xE000 ≤ n && n ≤ 0xFFFD) || 0x10000 ≤ n

/-- Space or tab. -/
def isBlank (c : Char) : Bool := c = ' ' || c = '\t'

/-- A line break that is read as a line feed. -/
def isPlainBreak (c : Char) : Bool := c = '\n' || c = '\r' || c = '\u0085'

/-- A line break that is read as itself. -/
def isSeparator (c : Char) : Bool := c = '\u2028' || c = '\u2029'

/-- A character that ends a line. -/
def isBreak (c : Char) : Bool := isPlainBreak c || isSeparator c

/-- A blank or a line break. -/
def isSpace (c : Char) : Bool := isBlank c || isBreak c

/-- A blank, a line break or the end comes next. -/
def endsWord : List Char → Bool
  | [] => true
  | c :: _ => isSpace c

/-- A character of a name. -/
def isNameChar (c : Char) : Bool :=
  ('0' ≤ c && c ≤ '9') || ('A' ≤ c && c ≤ 'Z') || ('a' ≤ c && c ≤ 'z') || c = '_' || c = '-'

/-- The marks that delimit flow collections. -/
def isFlowMark (c : Char) : Bool := c = ',' || c = '[' || c = ']' || c = '\x7b' || c = '\x7d'

/-- The grave accent, which is reserved like the commercial at. -/
def graveAccent : Char := '\x60'

/-- A character that means something where a token begins, so that no plain scalar begins with it
unless a rule says so. -/
def isIndicator (c : Char) : Bool :=
  isFlowMark c || c = '-' || c = '?' || c = ':' || c = '#' || c = '&' || c = '*' || c = '!' || c = '|'
    || c = '>' || c = '\'' || c = '"' || c = '%' || c = '@' || c = graveAccent

end BlockFeed.Yaml
