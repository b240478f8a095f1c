import BlockFeed.Cbor.Encode
import BlockFeed.Chain.Header

/-!
# Forged chains

A chain of blocks with headers as nodes send them, though nobody has signed them. Each header names
the block before it, there is one block for every twenty slots, and the first block has height one.
-/

namespace BlockFeed.Simulation

/-- The bytes of a forged header. -/
def forgedHeader (height : UInt64) (parent : Option BlockHash) : Bytes :=
  let parent := match parent with
    | some hash => Cbor.bytes hash.bytes
    | none => Cbor.null
  let issuer := Cbor.bytes (List.replicate 32 9)
  let signature := Cbor.bytes (List.replicate 64 0)
  let fields := Cbor.array 4 ++ Cbor.uint height ++ Cbor.uint (height * 20) ++ parent ++ issuer
  Cbor.array 2 ++ fields ++ signature

/-- The era of forged blocks. -/
def forgedEra : UInt64 := 7

/-- A forged block without transactions. -/
def forgedBlock (height : UInt64) (parent : Option BlockHash) : Block :=
  let header := forgedHeader height parent
  { tip := ⟨⟨height * 20, Header.hashOf header⟩, height⟩
    body := Cbor.array 2 ++ Cbor.uint forgedEra ++ Cbor.array 2 ++ header ++ Cbor.array 0 }

/-- Forged blocks from a height on. -/
def forgedBlocksFrom (height : UInt64) (parent : Option BlockHash) : (count : Nat) → List Block
  | 0 => []
  | count + 1 =>
    let block := forgedBlock height parent
    block :: forgedBlocksFrom (height + 1) (some block.tip.point.hash) count

/-- A forged chain with a number of blocks. -/
def forgedChain (count : Nat) : List Block := forgedBlocksFrom 1 none count

end BlockFeed.Simulation
