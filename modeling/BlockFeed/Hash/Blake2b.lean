import BlockFeed.Bytes

/-!
# BLAKE2b

The unkeyed BLAKE2b hash with a 32-byte digest, over byte strings. The state is eight 64-bit words;
each 128-byte block of the message is mixed in by twelve rounds of the quarter-round function,
whose message schedule is the table `sigma`.
-/

namespace BlockFeed.Blake2b

/-- The eight initial words. -/
def initial : Vector UInt64 8 :=
  #v[0x6A09E667F3BCC908, 0xBB67AE8584CAA73B, 0x3C6EF372FE94F82B, 0xA54FF53A5F1D36F1,
     0x510E527FADE682D1, 0x9B05688C2B3E6C1F, 0x1F83D9ABFB41BD6B, 0x5BE0CD19137E2179]

/-- The message schedule: the order in which a round takes the sixteen words of a block. -/
def sigma : Vector (Vector (Fin 16) 16) 10 :=
  #v[#v[0, 1, 2, 3, 4, 5, 6, 7, 8, 9, 10, 11, 12, 13, 14, 15],
     #v[14, 10, 4, 8, 9, 15, 13, 6, 1, 12, 0, 2, 11, 7, 5, 3],
     #v[11, 8, 12, 0, 5, 2, 15, 13, 10, 14, 3, 6, 7, 1, 9, 4],
     #v[7, 9, 3, 1, 13, 12, 11, 14, 2, 6, 5, 10, 4, 0, 15, 8],
     #v[9, 0, 5, 7, 2, 4, 10, 15, 14, 1, 11, 12, 6, 8, 3, 13],
     #v[2, 12, 6, 10, 0, 11, 8, 3, 4, 13, 7, 5, 15, 14, 1, 9],
     #v[12, 5, 1, 15, 14, 13, 4, 10, 0, 7, 6, 3, 9, 2, 8, 11],
     #v[13, 11, 7, 14, 12, 1, 3, 9, 5, 0, 15, 4, 8, 6, 2, 10],
     #v[6, 15, 14, 9, 11, 3, 0, 8, 12, 2, 13, 7, 1, 4, 10, 5],
     #v[10, 2, 8, 4, 7, 6, 1, 5, 15, 11, 9, 14, 3, 12, 13, 0]]

/-- A word turned right by a number of bits below its width. -/
def rotateRight (w n : UInt64) : UInt64 :=
  (w >>> n) ||| (w <<< (64 - n))

/-- The sixteen working words of one compression. -/
abbrev Work := Vector UInt64 16

/-- The quarter round on four positions, taking in two message words. -/
def quarter (v : Work) (a b c d : Fin 16) (x y : UInt64) : Work :=
  let va := v[a] + v[b] + x
  let vd := rotateRight (v[d] ^^^ va) 32
  let vc := v[c] + vd
  let vb := rotateRight (v[b] ^^^ vc) 24
  let va' := va + vb + y
  let vd' := rotateRight (vd ^^^ va') 16
  let vc' := vc + vd'
  let vb' := rotateRight (vb ^^^ vc') 63
  (((v.set a va').set b vb').set c vc').set d vd'

/-- One round: the four columns, then the four diagonals. -/
def round (m : Vector UInt64 16) (s : Vector (Fin 16) 16) (v : Work) : Work :=
  let v := quarter v 0 4 8 12 m[s[0]] m[s[1]]
  let v := quarter v 1 5 9 13 m[s[2]] m[s[3]]
  let v := quarter v 2 6 10 14 m[s[4]] m[s[5]]
  let v := quarter v 3 7 11 15 m[s[6]] m[s[7]]
  let v := quarter v 0 5 10 15 m[s[8]] m[s[9]]
  let v := quarter v 1 6 11 12 m[s[10]] m[s[11]]
  let v := quarter v 2 7 8 13 m[s[12]] m[s[13]]
  quarter v 3 4 9 14 m[s[14]] m[s[15]]

/-- The schedules of the twelve rounds; the last two repeat the first two. -/
def schedules : List (Vector (Fin 16) 16) :=
  sigma.toList ++ [sigma[0], sigma[1]]

/-- Mixes one block into the state. `count` is the number of message bytes so far. -/
def compress (h : Vector UInt64 8) (m : Vector UInt64 16) (count : Nat) (last : Bool) :
    Vector UInt64 8 :=
  let v : Work := h ++ initial
  let v := v.set 12 (v[12] ^^^ UInt64.ofNat (count % UInt64.size))
  let v := v.set 13 (v[13] ^^^ UInt64.ofNat (count / UInt64.size % UInt64.size))
  let v := if last then v.set 14 (v[14] ^^^ 0xFFFFFFFFFFFFFFFF) else v
  let v := schedules.foldl (fun v s => round m s v) v
  Vector.ofFn fun i : Fin 8 => h[i] ^^^ v[i.val] ^^^ v[i.val + 8]

/-- The number whose little-endian bytes these are. -/
def littleEndian (bytes : Bytes) : Nat :=
  bytes.foldr (fun b acc => acc * 256 + b.toNat) 0

/-- The sixteen little-endian words of a block, missing bytes read as zero. -/
def words (block : Bytes) : Vector UInt64 16 :=
  Vector.ofFn fun i : Fin 16 => UInt64.ofNat (littleEndian ((block.drop (8 * i.val)).take 8))

/-- Mixes in the rest of a message; the last block is the one that leaves nothing behind it. -/
def absorb (h : Vector UInt64 8) (count : Nat) : (blocks : Nat) → Bytes → Vector UInt64 8
  | 0, rest => compress h (words rest) (count + rest.length) true
  | blocks + 1, rest =>
    if rest.length ≤ 128 then compress h (words rest) (count + rest.length) true
    else absorb (compress h (words (rest.take 128)) (count + 128) false) (count + 128) blocks
      (rest.drop 128)

/-- The eight little-endian bytes of a word. -/
def wordBytes (w : UInt64) : Bytes :=
  (Bytes.bigEndian 8 w.toNat).reverse

/-- The 32-byte digest of a message. -/
def hash256 (message : Bytes) : Bytes :=
  let start := initial.set 0 (initial[0] ^^^ 0x01010020)
  let final := absorb start 0 (message.length / 128) message
  [final[0], final[1], final[2], final[3]].flatMap wordBytes

theorem length_hash256 (message : Bytes) : (hash256 message).length = 32 := by
  simp [hash256, wordBytes]

end BlockFeed.Blake2b
