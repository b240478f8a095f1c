import BlockFeed.Cbor.Encode
import BlockFeed.Chain.BlockHash
import BlockFeed.Wire.Decoder

/-!
# Points and tips

A point is a position on the remote chain: a slot and the hash of the block in it. The origin, the
position before the first block, is any point with the zero hash. A tip is a point together with
the number of its block, its height.

On the wire the origin is an empty array and any other point the array of slot and hash; a tip is
the array of point and number.
-/

namespace BlockFeed

/-- A position on the remote chain. -/
structure Point where
  slot : UInt64
  hash : BlockHash
  deriving DecidableEq, Inhabited

namespace Point

/-- The position before the first block. -/
def origin : Point := ⟨0, .zero⟩

/-- Any point with the zero hash stands for the origin. -/
def isOrigin (p : Point) : Bool := p.hash.isZero

/-- A point in messages. -/
def toText (p : Point) : String :=
  if p.isOrigin then "origin" else p.hash.toText ++ "@" ++ Numeral.ofNat p.slot.toNat

/-- A point as it travels on the wire. -/
def encode (p : Point) : Bytes :=
  if p.isOrigin then Cbor.array 0
  else Cbor.array 2 ++ Cbor.uint p.slot ++ Cbor.bytes p.hash.bytes

/-- Reads a point. -/
def decoder : Decoder Point := do
  match ← Cbor.readArray.lift with
  | some 0 => return origin
  | some 2 =>
    let slot ← Cbor.readUInt.lift
    let bytes ← Cbor.readBytes.lift
    match BlockHash.ofBytes? bytes with
    | some hash => return ⟨slot, hash⟩
    | none => Cbor.Reader.fail .hashLength
  | length => Cbor.Reader.fail (.pointItems length)

/-- The point that the wire keeps of a point: every form of the origin becomes the same. -/
def normalize (p : Point) : Point := if p.isOrigin then origin else p

end Point

/-- A point with the number of its block. -/
structure Tip where
  point : Point
  number : UInt64
  deriving DecidableEq, Inhabited

namespace Tip

/-- A tip in messages. -/
def toText (t : Tip) : String :=
  "#" ++ Numeral.ofNat t.number.toNat ++ " (" ++ t.point.toText ++ ")"

/-- A tip as it travels on the wire. -/
def encode (t : Tip) : Bytes :=
  Cbor.array 2 ++ t.point.encode ++ Cbor.uint t.number

/-- Reads a tip. -/
def decoder : Decoder Tip := do
  match ← Cbor.readArray.lift with
  | some 2 =>
    let point ← Point.decoder
    let number ← Cbor.readUInt.lift
    return ⟨point, number⟩
  | _ => Cbor.Reader.fail .tipItems

/-- The tip that the wire keeps of a tip. -/
def normalize (t : Tip) : Tip := { t with point := t.point.normalize }

end Tip

end BlockFeed
