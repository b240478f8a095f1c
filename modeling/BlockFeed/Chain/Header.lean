import BlockFeed.Cbor.Extent
import BlockFeed.Chain.Point
import BlockFeed.Hash.Blake2b

/-!
# Headers and blocks

Chain-sync delivers a header wrapped with the number of its era, block-fetch delivers whole blocks
whose first part is the header. Of a header only the front of its body is read: height, slot and
the hash of the previous block. The hash of the header bytes names the block.

Headers and blocks of the Byron era have another layout and are refused.
-/

namespace BlockFeed

/-- Why a header cannot be used. -/
inductive HeaderError where
  /-- The bytes are not the items that are expected. -/
  | malformed (fault : Cbor.Fault)
  /-- The header or block belongs to the Byron era. -/
  | unsupportedEra (era : UInt64)
  /-- The header is not embedded with tag 24. -/
  | unexpectedTag (number : UInt64)
  /-- The hash of the previous block does not have 32 bytes. -/
  | invalidParent
  deriving DecidableEq, Repr

/-- The wording of a header error. -/
def HeaderError.message : HeaderError → String
  | .malformed fault => "malformed header cbor: " ++ fault.message
  | .unsupportedEra era =>
    "byron era encoding (variant " ++ Numeral.ofNat era.toNat ++ ") is not supported"
  | .unexpectedTag n => "expected tag 24 embedded cbor, found tag " ++ Numeral.ofNat n.toNat
  | .invalidParent => "previous hash must be 32 bytes or null"

/-- What the feed keeps of a header. -/
structure Header where
  hash : BlockHash
  height : UInt64
  parent : Option BlockHash
  slot : UInt64
  deriving DecidableEq

namespace Header

/-- The point of the block with this header. -/
def point (h : Header) : Point := ⟨h.slot, h.hash⟩

/-- The tip that this header is when its block is the last one. -/
def tip (h : Header) : Tip := ⟨h.point, h.height⟩

/-- The hash that names the block with these header bytes. -/
def hashOf (headerBytes : Bytes) : BlockHash :=
  ⟨Blake2b.hash256 headerBytes, Blake2b.length_hash256 headerBytes⟩

/-- The tag of an item that is embedded as a byte string. -/
def embeddedTag : UInt64 := 24

/-- A reader of plain items within a header. -/
def item {α : Type} (r : Cbor.Reader Cbor.Fault α) : Cbor.Reader HeaderError α :=
  r.mapError .malformed

/-- Reads the hash of the previous block, which the first block has not. -/
def parentReader : Cbor.Reader HeaderError (Option BlockHash) := do
  if (← item Cbor.peek) = 0xF6 then
    let _ ← item Cbor.byte
    return none
  else
    match BlockHash.ofBytes? (← item Cbor.readBytes) with
    | some hash => return some hash
    | none => Cbor.Reader.fail .invalidParent

/-- Reads height, slot and previous hash from the front of a header. -/
def fieldsReader : Cbor.Reader HeaderError (UInt64 × UInt64 × Option BlockHash) := do
  let _ ← item Cbor.readArray
  let _ ← item Cbor.readArray
  let height ← item Cbor.readUInt
  let slot ← item Cbor.readUInt
  let parent ← parentReader
  return (height, slot, parent)

/-- Reads the bytes of a header. -/
def ofBytes (headerBytes : Bytes) : Except HeaderError Header :=
  match fieldsReader.value headerBytes with
  | .ok (height, slot, parent) => .ok ⟨hashOf headerBytes, height, parent, slot⟩
  | .error e => .error e

/-- The header bytes inside a wrapped header, the pair of an era and embedded bytes. -/
def unwrapReader : Cbor.Reader HeaderError Bytes := do
  let _ ← item Cbor.readArray
  let era ← item Cbor.readUInt
  if era = 0 then Cbor.Reader.fail (.unsupportedEra era)
  else
    let number ← item Cbor.readTag
    if number ≠ embeddedTag then Cbor.Reader.fail (.unexpectedTag number)
    else item Cbor.readBytes

/-- Reads a wrapped header. -/
def ofWrapped (wrapped : Bytes) : Except HeaderError Header := do
  ofBytes (← unwrapReader.value wrapped)

/-- The tip that a wrapped header announces. -/
def tipOfWrapped (wrapped : Bytes) : Except HeaderError Tip :=
  (ofWrapped wrapped).map tip

/-- The last era whose blocks have the Byron layout. -/
def lastByronEra : UInt64 := 1

/-- The header bytes inside a block, the pair of an era and the array that the header begins. -/
def ofBlockReader : Cbor.Reader HeaderError Bytes := do
  let _ ← item Cbor.readArray
  let era ← item Cbor.readUInt
  if era ≤ lastByronEra then Cbor.Reader.fail (.unsupportedEra era)
  else
    let _ ← item Cbor.readArray
    item Cbor.rawItem

/-- Reads the header of a block. -/
def ofBlock (block : Bytes) : Except HeaderError Header := do
  ofBytes (← ofBlockReader.value block)

end Header

/-- A block as it was fetched, for the tip under which its height is known. -/
structure Block where
  tip : Tip
  body : Bytes
  deriving DecidableEq

/-- The height of a block. -/
def Block.height (b : Block) : UInt64 := b.tip.number

/-- The bytes of a block as diagnostics show them. -/
def Block.describeBytes (body : Bytes) : String :=
  "RawBlock(" ++ Numeral.ofNat body.length ++ " bytes)"

end BlockFeed
