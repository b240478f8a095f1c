import BlockFeed.Bytes

/-!
# Writing CBOR

Data items are written with the shortest head that holds their argument and with definite
lengths, so every value has one encoding.
-/

namespace BlockFeed.Cbor

/-- The head of an item: its major type and its argument, in the fewest bytes. -/
def head (major : Nat) (argument : UInt64) : Bytes :=
  let n := argument.toNat
  if n < 24 then [UInt8.ofNat (32 * major + n)]
  else if n < 256 then UInt8.ofNat (32 * major + 24) :: Bytes.bigEndian 1 n
  else if n < 65536 then UInt8.ofNat (32 * major + 25) :: Bytes.bigEndian 2 n
  else if n < 4294967296 then UInt8.ofNat (32 * major + 26) :: Bytes.bigEndian 4 n
  else UInt8.ofNat (32 * major + 27) :: Bytes.bigEndian 8 n

/-- An unsigned integer. -/
def uint (n : UInt64) : Bytes := head 0 n

/-- A byte string. -/
def bytes (content : Bytes) : Bytes := head 2 (UInt64.ofNat content.length) ++ content

/-- A text string. -/
def text (content : String) : Bytes :=
  let utf8 := Bytes.ofText content
  head 3 (UInt64.ofNat utf8.length) ++ utf8

/-- The head of an array of a given length. -/
def array (length : Nat) : Bytes := head 4 (UInt64.ofNat length)

/-- The head of a map of a given number of entries. -/
def map (length : Nat) : Bytes := head 5 (UInt64.ofNat length)

/-- The head of a tagged item. -/
def tag (number : UInt64) : Bytes := head 6 number

/-- A truth value. -/
def bool (b : Bool) : Bytes := if b then [0xF5] else [0xF4]

/-- The null value. -/
def null : Bytes := [0xF6]

end BlockFeed.Cbor
