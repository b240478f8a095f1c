import BlockFeed.Bytes

/-!
# Hexadecimal text

Bytes are written as two lower-case hexadecimal digits each and read in either letter case.
-/

namespace BlockFeed.Hex

/-- The lower-case digit of a value below sixteen. -/
def digit (value : Nat) : Char :=
  if value < 10 then Char.ofNat (48 + value) else Char.ofNat (87 + value)

/-- The value of the ASCII byte of a hexadecimal digit, in either letter case. -/
def value? (byte : UInt8) : Option UInt8 :=
  if 48 ≤ byte && byte ≤ 57 then some (byte - 48)
  else if 97 ≤ byte && byte ≤ 102 then some (byte - 87)
  else if 65 ≤ byte && byte ≤ 70 then some (byte - 55)
  else none

/-- The two digits of a byte. -/
def ofByte (byte : UInt8) : List Char :=
  [digit (byte.toNat / 16), digit (byte.toNat % 16)]

/-- The digits of a byte string. -/
def chars (bytes : Bytes) : List Char :=
  bytes.flatMap ofByte

/-- The hexadecimal text of a byte string. -/
def encode (bytes : Bytes) : String :=
  String.ofList (chars bytes)

/-- Pairs the bytes of hexadecimal text up and reads each pair; the offset of the first byte that
is no digit is reported. A byte left over at the end is ignored. -/
def pairs (offset : Nat) : Bytes → Except (UInt8 × Nat) Bytes
  | high :: low :: rest =>
    match value? high with
    | none => .error (high, offset)
    | some h =>
      match value? low with
      | none => .error (low, offset + 1)
      | some l => (pairs (offset + 2) rest).map ((h * 16 + l) :: ·)
  | _ => .ok []

/-- The bytes that a text of hexadecimal digit pairs denotes. -/
def decode? (text : String) : Option Bytes :=
  let bytes := Bytes.ofText text
  if bytes.length % 2 = 0 then (pairs 0 bytes).toOption else none

end BlockFeed.Hex
