import BlockFeed.Chain.Header

/-!
# Sample tips

Rehearsals run against chains that are made up. The sample tip of a height has a slot for every
twenty, and a hash that holds the height and a byte that tells forks apart, so that tips of one
height on two forks differ in nothing but their hash.
-/

namespace BlockFeed

/-- The bytes of the hash of a sample tip. -/
def sampleHashBytes (height : UInt64) (fork : UInt8) : Bytes :=
  Bytes.bigEndian 8 height.toNat ++ (List.replicate 22 0 ++ [fork, 1])

theorem length_sampleHashBytes (height : UInt64) (fork : UInt8) :
    (sampleHashBytes height fork).length = 32 := by
  simp [sampleHashBytes]

/-- The sample tip of a height on a fork. -/
def Tip.sample (height : UInt64) (fork : UInt8) : Tip :=
  ⟨⟨height * 20, ⟨sampleHashBytes height fork, length_sampleHashBytes height fork⟩⟩, height⟩

/-- The sample block of a tip holds the height of the tip. -/
def Block.sample (tip : Tip) : Block := ⟨tip, Bytes.bigEndian 8 tip.number.toNat⟩

end BlockFeed
