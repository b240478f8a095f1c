import BlockFeed.Text.Hex
import BlockFeed.Text.Numeral
import BlockFeed.Text.Quoted

/-!
# Block hashes

A block is named by the 32 bytes of its hash. As text a hash is 64 hexadecimal digits; a reader
also accepts one leading `0x` and either letter case. The all-zero hash names no block.

What is wrong with a text is judged on its bytes, in a fixed order: an odd number of them, a number
other than 64, and then the first byte that is no digit.
-/

namespace BlockFeed

/-- The hash of a block. -/
structure BlockHash where
  bytes : Bytes
  length_eq : bytes.length = 32
  deriving DecidableEq

/-- Why a text is not a block hash. -/
inductive BlockHash.TextError where
  | oddLength
  | wrongLength
  | badDigit (byte : UInt8) (offset : Nat)
  deriving DecidableEq, Repr

namespace BlockHash

/-- The wording of a text error. A bad byte is shown as the Latin-1 character of that byte. -/
def TextError.message : TextError → String
  | .oddLength => "Odd number of digits"
  | .wrongLength => "Invalid string length"
  | .badDigit byte offset =>
    "Invalid character " ++ Quoted.char (Char.ofNat byte.toNat) ++ " at position "
      ++ Numeral.ofNat offset

/-- The hash that names no block. -/
def zero : BlockHash := ⟨List.replicate 32 0, by decide⟩

instance : Inhabited BlockHash := ⟨zero⟩

/-- A hash from exactly 32 bytes. -/
def ofBytes? (bytes : Bytes) : Option BlockHash :=
  if h : bytes.length = 32 then some ⟨bytes, h⟩ else none

/-- The hash names no block. -/
def isZero (hash : BlockHash) : Bool := hash = zero

/-- The 64 digits of a hash. -/
def toText (hash : BlockHash) : String := Hex.encode hash.bytes

/-- The bytes of a hash text after one leading `0x`. -/
def unprefixed : Bytes → Bytes
  | 48 :: 120 :: rest => rest
  | bytes => bytes

/-- Reads the bytes of a hash text. -/
def ofTextBytes (text : Bytes) : Except TextError BlockHash :=
  let digits := unprefixed text
  if digits.length % 2 = 1 then .error .oddLength
  else if digits.length ≠ 64 then .error .wrongLength
  else
    match Hex.pairs 0 digits with
    | .error (byte, offset) => .error (.badDigit byte offset)
    | .ok bytes =>
      match ofBytes? bytes with
      | some hash => .ok hash
      | none => .error .wrongLength

/-- Reads a hash text. -/
def ofText (text : String) : Except TextError BlockHash :=
  ofTextBytes (Bytes.ofText text)

/-- Hashes are ordered as byte strings. -/
def compare (a b : BlockHash) : Ordering := Bytes.compare a.bytes b.bytes

/-- A hash as diagnostics show it. -/
def describe (hash : BlockHash) : String := "BlockHash(" ++ hash.toText ++ ")"

theorem ofBytes?_bytes (hash : BlockHash) : ofBytes? hash.bytes = some hash := by
  simp [ofBytes?, hash.length_eq]

end BlockHash

end BlockFeed
