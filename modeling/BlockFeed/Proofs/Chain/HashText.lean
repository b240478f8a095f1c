import BlockFeed.Chain.BlockHash

/-!
# Hashes as text

The text of a hash is read back (`BlockHash.ofText_toText`). Its digits are bytes of their own, so that
the text has as many bytes as digits, and none of them is the `x` of a prefix.
-/

namespace BlockFeed

/-- The bytes of a text are those of its characters. -/
theorem Bytes.ofText_ofList (cs : List Char) :
    ofText (String.ofList cs) = cs.flatMap String.utf8EncodeChar := by
  show (String.ofList cs).toByteArray.data.toList = _
  rw [String.toByteArray_ofList, List.utf8Encode, List.toList_data_toByteArray]

namespace Hex

/-- The ASCII byte of a digit. -/
def digitByte (value : Nat) : UInt8 := UInt8.ofNat (digit value).toNat

theorem utf8EncodeChar_digit {value : Nat} (h : value < 16) :
    String.utf8EncodeChar (digit value) = [digitByte value] := by
  have hall : ∀ v : Fin 16, String.utf8EncodeChar (digit v) = [digitByte v] := by decide
  exact hall ⟨value, h⟩

theorem value?_digitByte {value : Nat} (h : value < 16) :
    value? (digitByte value) = some (UInt8.ofNat value) := by
  have hall : ∀ v : Fin 16, value? (digitByte v) = some (UInt8.ofNat v) := by decide
  exact hall ⟨value, h⟩

/-- The bytes of hexadecimal text, two for each byte. -/
def digitBytes (bytes : Bytes) : Bytes :=
  bytes.flatMap fun b => [digitByte (b.toNat / 16), digitByte (b.toNat % 16)]

theorem ofText_encode (bytes : Bytes) : Bytes.ofText (encode bytes) = digitBytes bytes := by
  rw [encode, Bytes.ofText_ofList, chars, List.flatMap_assoc, digitBytes]
  congr 1
  funext b
  have hhigh : b.toNat / 16 < 16 := by
    have := b.toNat_lt
    omega
  have hlow : b.toNat % 16 < 16 := Nat.mod_lt _ (by decide)
  rw [ofByte, List.flatMap_cons, List.flatMap_cons, utf8EncodeChar_digit hhigh,
    utf8EncodeChar_digit hlow]
  rfl

theorem length_digitBytes (bytes : Bytes) : (digitBytes bytes).length = 2 * bytes.length := by
  induction bytes with
  | nil => rfl
  | cons b rest ih =>
    have hcons : digitBytes (b :: rest)
        = digitByte (b.toNat / 16) :: digitByte (b.toNat % 16) :: digitBytes rest := rfl
    rw [hcons, List.length_cons, List.length_cons, ih, List.length_cons]
    omega

/-- Digits are read back in pairs. -/
theorem pairs_digitBytes (offset : Nat) (bytes : Bytes) :
    pairs offset (digitBytes bytes) = .ok bytes := by
  induction bytes generalizing offset with
  | nil => rfl
  | cons b rest ih =>
    have hcons : digitBytes (b :: rest)
        = digitByte (b.toNat / 16) :: digitByte (b.toNat % 16) :: digitBytes rest := rfl
    have hbound := b.toNat_lt
    have hvalue : UInt8.ofNat (b.toNat / 16) * 16 + UInt8.ofNat (b.toNat % 16) = b := by
      have hsixteen : (16 : UInt8).toNat = 16 := rfl
      rw [← UInt8.toNat_inj, UInt8.toNat_add, UInt8.toNat_mul, UInt8.toNat_ofNat', UInt8.toNat_ofNat',
        hsixteen]
      omega
    rw [hcons, pairs, value?_digitByte (by omega), value?_digitByte (Nat.mod_lt _ (by decide))]
    simp only [ih, Except.map, hvalue]

end Hex

namespace BlockHash

/-- The text of a hash has no prefix. -/
theorem unprefixed_digitBytes (bytes : Bytes) :
    unprefixed (Hex.digitBytes bytes) = Hex.digitBytes bytes := by
  cases bytes with
  | nil => rfl
  | cons b rest =>
    have hall : ∀ v : Fin 16, Hex.digitByte v ≠ 120 := by decide
    have hlow := hall ⟨b.toNat % 16, Nat.mod_lt _ (by decide)⟩
    unfold unprefixed
    split
    · rename_i heq
      injection heq with _ heq
      injection heq with heq _
      exact absurd heq hlow
    · rfl

/-- The text of a hash is read back. -/
theorem ofText_toText (hash : BlockHash) : ofText hash.toText = .ok hash := by
  have hlength : (Hex.digitBytes hash.bytes).length = 64 := by
    rw [Hex.length_digitBytes, hash.length_eq]
  rw [ofText, toText, Hex.ofText_encode, ofTextBytes, unprefixed_digitBytes]
  simp only [hlength, Hex.pairs_digitBytes, ofBytes?_bytes]
  rfl

end BlockHash

end BlockFeed
