import BlockFeed.Bytes
import BlockFeed.Text.Numeral
import BlockFeed.Yaml.Event

/-!
# What scalars stand for

Under the core schema a plain scalar stands for nothing, a truth value, an integer, a float or a
text. Integers are decimal without leading zeros, or hexadecimal, octal or binary after `0x`, `0o`
and `0b`; digits that begin with a zero make a text, and so do numbers with underscores.

Where one kind of value is wanted, the text of a plain scalar is read as that kind whatever its tag,
and that of a literal scalar if its tag names the kind. Where any kind will do, `Scalar.value?` goes
by the tag first.
-/

namespace BlockFeed.Yaml.Scalar

/-- The tag of a kind of value. -/
def coreTag (kind : String) : String := "tag:yaml.org,2002:" ++ kind

/-- A value of a kind is read from this scalar. -/
def admits (kind : String) (s : Scalar) : Bool :=
  s.style = .plain || (s.style = .literal && s.tag = some (coreTag kind))

/-- A text that stands for nothing. -/
def isNullText (text : String) : Bool := ["~", "null", "Null", "NULL"].contains text

/-- The truth value that a text stands for. -/
def boolOfText? (text : String) : Option Bool :=
  if ["true", "True", "TRUE"].contains text then some true
  else if ["false", "False", "FALSE"].contains text then some false
  else none

/-- Digits that begin with a zero but are more than one: such a scalar is a text. -/
def hasLeadingZero : List Char → Bool
  | '0' :: rest => !rest.isEmpty && rest.all Numeral.isDigit
  | _ => false

/-- The magnitude of an integer literal without its sign. -/
def magnitude? (cs : List Char) : Option Nat :=
  match cs with
  | '0' :: 'x' :: rest => Numeral.inBase? 16 rest
  | '0' :: 'o' :: rest => Numeral.inBase? 8 rest
  | '0' :: 'b' :: rest => Numeral.inBase? 2 rest
  | _ => if hasLeadingZero cs then none else Numeral.inBase? 10 cs

/-- An integer that fits 128 bits, the most that a literal may have. -/
def fitsLongest (i : Int) : Bool :=
  -(Nat.pow 2 127 : Int) ≤ i && i < (Nat.pow 2 128 : Int)

/-- The integer that a text denotes. -/
def intOfText? (text : String) : Option Int :=
  let literal? : Option Int := match text.toList with
    | '-' :: rest => (magnitude? rest).map fun n => -(n : Int)
    | '+' :: rest => (magnitude? rest).map Int.ofNat
    | cs => (magnitude? cs).map Int.ofNat
  literal?.filter fitsLongest

/-- A decimal literal with digits before or after its point and an optional exponent: its digits
as one number, and the power of ten they are multiplied by. -/
def decimal? (cs : List Char) : Option (Nat × Int) :=
  let whole := cs.takeWhile Numeral.isDigit
  let afterWhole := cs.dropWhile Numeral.isDigit
  let (fraction, rest) := match afterWhole with
    | '.' :: rest => (rest.takeWhile Numeral.isDigit, rest.dropWhile Numeral.isDigit)
    | _ => ([], afterWhole)
  if whole.isEmpty && fraction.isEmpty then none
  else
    let coefficient := Nat.ofDigitChars 10 (whole ++ fraction) 0
    let exponent? : Option Int := match rest with
      | [] => some 0
      | mark :: rest =>
        if mark = 'e' || mark = 'E' then
          match rest with
          | '-' :: ds => (Numeral.natural? ds).map fun n => -(n : Int)
          | '+' :: ds => (Numeral.natural? ds).map Int.ofNat
          | ds => (Numeral.natural? ds).map Int.ofNat
        else none
    exponent?.map fun e => (coefficient, e - fraction.length)

/-- The decimal rounds to a finite 64-bit float. Exponents beyond a thousand digits are decided by
their sign alone. -/
def isFinite (digits : Nat) (coefficient : Nat) (exponent : Int) : Bool :=
  let limit := Nat.pow 2 1024 - Nat.pow 2 970
  if coefficient = 0 then true
  else if exponent > 400 then false
  else if exponent < -(digits : Int) - 400 then true
  else if 0 ≤ exponent then coefficient * Nat.pow 10 exponent.toNat < limit
  else coefficient < limit * Nat.pow 10 (-exponent).toNat

/-- The text denotes a float: an infinity, whose positive form may carry its sign, the value that is
not a number, or a decimal that rounds to a finite float. -/
def isFloatText (text : String) : Bool :=
  let cs := text.toList
  let magnitude := match cs with
    | '-' :: rest => rest
    | '+' :: rest => rest
    | _ => cs
  [".nan", ".NaN", ".NAN"].contains text
    || [".inf", ".Inf", ".INF"].contains (String.ofList magnitude)
    || match decimal? magnitude with
      | some (coefficient, exponent) => isFinite cs.length coefficient exponent
      | none => false

/-- The truth value of a scalar. -/
def toBool? (s : Scalar) : Option Bool :=
  if s.admits "bool" then boolOfText? s.text else none

/-- The number below a bound that a scalar denotes without a minus sign. -/
def toNatBelow? (bound : Nat) (s : Scalar) : Option Nat :=
  if s.admits "int" && !s.text.startsWith "-" then
    (intOfText? s.text).bind fun i => i.toNat?.filter (· < bound)
  else none

/-- Whether a scalar stands for nothing where a value may be missing. One that is tagged as nothing
must not be anything else. -/
def isNothing? (s : Scalar) : Option Bool :=
  if s.style ≠ .plain then some false
  else
    match s.tag with
    | none => some (s.text.isEmpty || isNullText s.text)
    | some tag =>
      if tag ≠ coreTag "null" then some false
      else if isNullText s.text then some true
      else none

/-- What a scalar stands for. -/
inductive Value where
  | null
  | bool (value : Bool)
  | int (value : Int)
  | float
  | text (text : String)
  deriving DecidableEq, Repr

/-- What the text of a plain scalar without a tag stands for. -/
def valueOfText (text : String) : Value :=
  if text.isEmpty || isNullText text then .null
  else
    match boolOfText? text, intOfText? text with
    | some b, _ => .bool b
    | none, some i => .int i
    | none, none =>
      let unsigned := match text.toList with
        | '-' :: rest => rest
        | '+' :: rest => rest
        | cs => cs
      if !hasLeadingZero unsigned && isFloatText text then .float else .text text

/-- A tag of the document's own. -/
def isOwnTag (tag : String) : Bool := tag.startsWith "!"

/-- The octets of a tag are those of a text. -/
def isTextTag (tag : String) : Bool :=
  (Bytes.toText? (tag.toList.map fun c => UInt8.ofNat c.toNat)).isSome

/-- What a scalar stands for where any kind of value will do. A tag of the core schema has to fit the
text. A tag of the document's own is refused, unless it is no text and so means nothing. Any other
makes the scalar a text. -/
def value? (s : Scalar) : Option Value :=
  let untagged := if s.style = .plain then valueOfText s.text else .text s.text
  match s.tag with
  | none => some untagged
  | some tag =>
    if isOwnTag tag then (if isTextTag tag then none else some untagged)
    else if tag = coreTag "bool" then (boolOfText? s.text).map .bool
    else if tag = coreTag "int" then (intOfText? s.text).map .int
    else if tag = coreTag "float" then (if isFloatText s.text then some .float else none)
    else if tag = coreTag "null" then (if isNullText s.text then some .null else none)
    else some (.text s.text)

end BlockFeed.Yaml.Scalar
