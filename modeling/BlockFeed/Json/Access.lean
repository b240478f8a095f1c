import BlockFeed.Json.Basic

/-!
# Access to JSON values

Looking into a JSON value whose form is known, and adding to it: the fields of an object, the items
of an array, and the numbers that literals stand for. What is missing reads as null, and null has
neither fields nor items.
-/

namespace BlockFeed.Json

/-- The value of a field, or null. -/
def get (j : Json) (name : String) : Json :=
  match j with
  | .object fields => (fields.lookup name).getD .null
  | _ => .null

/-- The value is null. -/
def isNull : Json → Bool
  | .null => true
  | _ => false

/-- The value is the truth value true. -/
def isTrue : Json → Bool
  | .bool b => b
  | _ => false

/-- The items of an array. -/
def items : Json → List Json
  | .array items => items
  | _ => []

/-- A value that may be null. -/
def optional? {α : Type} (read : Json → Option α) (j : Json) : Option (Option α) :=
  if j.isNull then some none else (read j).map some

/-- A value, or a default for null. -/
def orDefault? {α : Type} (read : Json → Option α) (default : α) (j : Json) : Option α :=
  if j.isNull then some default else read j

/-- The items of an array, all of one form; null is an empty array. -/
def list? {α : Type} (read : Json → Option α) (j : Json) : Option (List α) := j.items.mapM read

/-- The object without fields. -/
def empty : Json := .object []

/-- An object with further fields. -/
def extend (j : Json) (more : List (String × Json)) : Json :=
  match j with
  | .object fields => .object (fields ++ more)
  | j => j

/-- The sign of a literal, and the literal without it. -/
def splitSign : List Char → Bool × List Char
  | '-' :: rest => (true, rest)
  | cs => (false, cs)

/-- The whole number that a literal without fraction and exponent stands for. -/
def toInt? : Json → Option Int
  | .number literal =>
    let (negative, cs) := splitSign literal.toList
    (Numeral.natural? cs).map fun n => if negative then -(n : Int) else n
  | _ => none

/-- The number that a literal without sign, fraction and exponent stands for. -/
def toNat? (j : Json) : Option Nat := j.toInt?.bind Int.toNat?

/-- The mark of an exponent. -/
def isExponentMark (c : Char) : Bool := c = 'e' || c = 'E'

/-- The power of ten that an exponent stands for. -/
def exponentOf : List Char → Int
  | '-' :: digits => -(Nat.ofDigitChars 10 digits 0 : Int)
  | '+' :: digits => Nat.ofDigitChars 10 digits 0
  | digits => Nat.ofDigitChars 10 digits 0

/-- The float nearest to the number that a literal stands for. -/
def toFloat? : Json → Option Float
  | .number literal =>
    let (negative, cs) := splitSign literal.toList
    let mantissa := cs.takeWhile (!isExponentMark ·)
    let whole := mantissa.takeWhile (· ≠ '.')
    let fraction := (mantissa.dropWhile (· ≠ '.')).drop 1
    let digits := Nat.ofDigitChars 10 (whole ++ fraction) 0
    let magnitude := match exponentOf ((cs.dropWhile (!isExponentMark ·)).drop 1) - fraction.length with
      | .ofNat n => Float.ofScientific digits false n
      | .negSucc n => Float.ofScientific digits true (n + 1)
    some (if negative then -magnitude else magnitude)
  | _ => none

end BlockFeed.Json
