import BlockFeed.Cbor.Reader
import BlockFeed.Text.Numeral

/-!
# Decoding what a node sends

The causes for which bytes of a mini-protocol are refused, with their wording, and the readers that
fail with them.
-/

namespace BlockFeed

/-- Why bytes from a node do not decode. -/
inductive DecodeError where
  /-- The bytes are not the items that are expected. -/
  | format (fault : Cbor.Fault)
  /-- A point is neither an empty array nor an array of two. -/
  | pointItems (length : Option UInt64)
  /-- A block hash does not have 32 bytes. -/
  | hashLength
  /-- A tip is not an array of two. -/
  | tipItems
  /-- A block is not embedded with tag 24. -/
  | blockTag (number : UInt64)
  /-- No chain-sync message has this number. -/
  | unknownChainSync (number : UInt8)
  /-- No block-fetch message has this number. -/
  | unknownBlockFetch (number : UInt8)
  /-- No handshake message has this number. -/
  | unknownHandshake (number : UInt8)
  /-- No reason for a refusal has this number. -/
  | unknownRefusal (number : UInt8)
  /-- The parameters of a version have no definite length. -/
  | openVersionData
  /-- The table of versions has no definite length. -/
  | openVersionTable
  /-- The parameters of a version have a number of fields other than two, three or four. -/
  | versionFields (length : UInt64)
  deriving DecidableEq, Repr

/-- A length in messages. -/
def DecodeError.lengthText : Option UInt64 → String
  | some n => "Some(" ++ Numeral.ofNat n.toNat ++ ")"
  | none => "None"

/-- The wording of a decode error. -/
def DecodeError.message : DecodeError → String
  | .format fault => fault.message
  | .pointItems length => "point must be an array of 0 or 2 items, got " ++ lengthText length
  | .hashLength => "block hash must be 32 bytes"
  | .tipItems => "tip must be an array of 2 items"
  | .blockTag n => "block must be tag 24 embedded cbor, found tag " ++ Numeral.ofNat n.toNat
  | .unknownChainSync n => "unknown chain-sync message " ++ Numeral.ofNat n.toNat
  | .unknownBlockFetch n => "unknown block-fetch message " ++ Numeral.ofNat n.toNat
  | .unknownHandshake n => "unknown handshake message " ++ Numeral.ofNat n.toNat
  | .unknownRefusal n => "unknown refuse reason " ++ Numeral.ofNat n.toNat
  | .openVersionData => "indefinite version data"
  | .openVersionTable => "indefinite version table"
  | .versionFields n => "version data has " ++ Numeral.ofNat n.toNat ++ " fields"

/-- A reader of what a node sends. -/
abbrev Decoder (α : Type) := Cbor.Reader DecodeError α

/-- A reader of plain items within a decoder. -/
abbrev Cbor.Reader.lift {α : Type} (r : Cbor.Reader Cbor.Fault α) : Decoder α :=
  r.mapError .format

end BlockFeed
