import BlockFeed.Proofs.Chain.HashText

/-!
# Texts that are read as a hash

A text is read as a hash exactly if it comes to the text of that hash once one leading `0x` is taken away and
capitals are written small (`BlockHash.ofText_eq_ok_iff`). So what is accepted is 64 digits, with or
without the prefix, and two such texts name the same hash exactly if they agree in all but these two
respects.

A text that is refused is refused for the first of three causes that applies: it has an odd number of bytes,
it has not 64 of them, or one of them is no digit. Texts are UTF-8, so a character that is no ASCII takes
several bytes, none of which is a digit (`utf8EncodeChar_cases`). Offsets count bytes, from after the prefix.

The main result is `BlockHash.ofText_accepts_digits`.
-/

namespace BlockFeed

/-! ## Characters and their bytes -/

/-- An ASCII character is one byte. Of any other one every byte is above ASCII. -/
theorem utf8EncodeChar_cases (c : Char) :
    (c.toNat < 128 ∧ String.utf8EncodeChar c = [UInt8.ofNat c.toNat]) ∨
      (128 ≤ c.toNat ∧ String.utf8EncodeChar c ≠ [] ∧
        ∀ b ∈ String.utf8EncodeChar c, 128 ≤ b.toNat) := by
  have hvalue : c.val.toNat = c.toNat := rfl
  unfold String.utf8EncodeChar
  dsimp only
  rw [hvalue]
  split
  · exact .inl ⟨by omega, rfl⟩
  · refine .inr ⟨by omega, ?_⟩
    -- the bytes of a longer encoding carry their high bit
    have hhigh {v : Nat} (hv : 128 ≤ v % 256) : 128 ≤ (UInt8.ofNat v).toNat := by
      rwa [UInt8.toNat_ofNat']
    split
    · refine ⟨List.cons_ne_nil _ _, ?_⟩
      simp only [List.forall_mem_cons]
      exact ⟨hhigh (by omega), hhigh (by omega), nofun⟩
    · split
      · refine ⟨List.cons_ne_nil _ _, ?_⟩
        simp only [List.forall_mem_cons]
        exact ⟨hhigh (by omega), hhigh (by omega), hhigh (by omega), nofun⟩
      · refine ⟨List.cons_ne_nil _ _, ?_⟩
        simp only [List.forall_mem_cons]
        exact ⟨hhigh (by omega), hhigh (by omega), hhigh (by omega), hhigh (by omega), nofun⟩

theorem Bytes.ofText_eq_flatMap (text : String) :
    ofText text = text.toList.flatMap String.utf8EncodeChar := by
  rw [← ofText_ofList, String.ofList_toList]

/-- An ASCII byte at the front of a text is its first character. -/
theorem cons_of_utf8 {cs : List Char} {b : UInt8} {bytes : Bytes} (hb : b.toNat < 128)
    (h : cs.flatMap String.utf8EncodeChar = b :: bytes) :
    ∃ rest, cs = Char.ofNat b.toNat :: rest ∧ rest.flatMap String.utf8EncodeChar = bytes := by
  cases cs with
  | nil => cases h
  | cons c rest =>
    rw [List.flatMap_cons] at h
    rcases utf8EncodeChar_cases c with ⟨hlow, hbytes⟩ | ⟨-, hne, hbytes⟩
    · rw [hbytes, List.singleton_append, List.cons.injEq] at h
      obtain ⟨rfl, hrest⟩ := h
      rw [UInt8.toNat_ofNat', Nat.mod_eq_of_lt (by omega), Char.ofNat_toNat]
      exact ⟨rest, rfl, hrest⟩
    · obtain ⟨first, others, hcons⟩ := List.exists_cons_of_ne_nil hne
      rw [hcons, List.cons_append, List.cons.injEq] at h
      have hhigh := hbytes first (hcons ▸ List.mem_cons_self)
      rw [h.1] at hhigh
      omega

theorem toList_toLower (text : String) : text.toLower.toList = text.toList.map Char.toLower :=
  String.toList_map

namespace Hex

/-! ## Digits -/

/-- A character is a hexadecimal digit, in either letter case. -/
def isDigit (c : Char) : Bool :=
  ('0' ≤ c && c ≤ '9') || ('a' ≤ c && c ≤ 'f') || ('A' ≤ c && c ≤ 'F')

/-- A byte is the ASCII byte of a digit. -/
def isDigitByte (b : UInt8) : Bool := isDigit (Char.ofNat b.toNat)

section Tables

set_option maxRecDepth 4096

theorem isSome_value? (b : UInt8) : (value? b).isSome = isDigitByte b := by
  have hall : ∀ n < 256, (value? (UInt8.ofNat n)).isSome = isDigitByte (UInt8.ofNat n) := by decide
  have hb := hall b.toNat b.toNat_lt
  rwa [UInt8.ofNat_toNat] at hb

theorem isDigitByte_of_ascii {c : Char} (h : c.toNat < 128) :
    isDigitByte (UInt8.ofNat c.toNat) = isDigit c := by
  have hall : ∀ n < 128, isDigitByte (UInt8.ofNat (Char.ofNat n).toNat) = isDigit (Char.ofNat n) := by
    decide
  have hc := hall c.toNat h
  rwa [Char.ofNat_toNat] at hc

theorem isDigitByte_of_high {b : UInt8} (h : 128 ≤ b.toNat) : isDigitByte b = false := by
  have hall : ∀ n < 256, 128 ≤ n → isDigitByte (UInt8.ofNat n) = false := by decide
  have hb := hall b.toNat b.toNat_lt h
  rwa [UInt8.ofNat_toNat] at hb

/-- A digit in either letter case has the value that its small letter is written for. -/
theorem exists_value?_of_isDigit {c : Char} (hc : c.toNat < 128) (h : isDigit c = true) :
    ∃ v < 16, value? (UInt8.ofNat c.toNat) = some (UInt8.ofNat v) ∧ c.toLower = digit v := by
  have hall : ∀ n < 128, isDigit (Char.ofNat n) = true →
      ∃ v < 16, value? (UInt8.ofNat (Char.ofNat n).toNat) = some (UInt8.ofNat v)
        ∧ (Char.ofNat n).toLower = digit v := by decide
  have hdigit := hall c.toNat hc
  rw [Char.ofNat_toNat] at hdigit
  exact hdigit h

theorem isDigit_of_toLower_ascii {c : Char} (hc : c.toNat < 128) {v : Nat} (hv : v < 16)
    (h : c.toLower = digit v) : isDigit c = true := by
  have hall : ∀ n < 128, ∀ v < 16, (Char.ofNat n).toLower = digit v → isDigit (Char.ofNat n) = true := by
    decide
  have hdigit := hall c.toNat hc v hv
  rw [Char.ofNat_toNat] at hdigit
  exact hdigit h

end Tables

theorem toNat_lt_of_isDigit {c : Char} (h : isDigit c = true) : c.toNat < 128 := by
  have hval : c.val.toNat = c.toNat := rfl
  have hnine : '9'.val.toNat = 57 := rfl
  have hsmall : 'f'.val.toNat = 102 := rfl
  have hcapital : 'F'.val.toNat = 70 := rfl
  simp only [isDigit, Bool.or_eq_true, Bool.and_eq_true, decide_eq_true_eq, Char.le_def,
    UInt32.le_iff_toNat_le] at h
  omega

/-- A character is a digit exactly if all of its bytes are. -/
theorem isDigit_iff_bytes (c : Char) :
    isDigit c = true ↔ ∀ b ∈ String.utf8EncodeChar c, isDigitByte b = true := by
  rcases utf8EncodeChar_cases c with ⟨hlow, hbytes⟩ | ⟨hhigh, hne, hbytes⟩
  · rw [hbytes, List.forall_mem_singleton, isDigitByte_of_ascii hlow]
  · constructor
    · intro h
      exact absurd (toNat_lt_of_isDigit h) (Nat.not_lt.mpr hhigh)
    · intro h
      obtain ⟨b, hb⟩ := List.exists_mem_of_ne_nil _ hne
      have hdigit := h b hb
      rw [isDigitByte_of_high (hbytes b hb)] at hdigit
      cases hdigit

theorem utf8EncodeChar_of_isDigit {c : Char} (h : isDigit c = true) :
    String.utf8EncodeChar c = [UInt8.ofNat c.toNat] := by
  rcases utf8EncodeChar_cases c with ⟨-, hbytes⟩ | ⟨hhigh, -, -⟩
  · exact hbytes
  · exact absurd (toNat_lt_of_isDigit h) (Nat.not_lt.mpr hhigh)

/-- Only a digit has a digit for its small letter. -/
theorem isDigit_of_toLower {c : Char} {v : Nat} (hv : v < 16) (h : c.toLower = digit v) :
    isDigit c = true := by
  by_cases hc : c.toNat < 128
  · exact isDigit_of_toLower_ascii hc hv h
  · have hbeyond : ¬(c.val ≥ 'A'.val ∧ c.val ≤ 'Z'.val) := by
      have hz : 'Z'.val.toNat = 90 := rfl
      have hval : c.val.toNat = c.toNat := rfl
      rintro ⟨-, hle⟩
      rw [UInt32.le_iff_toNat_le] at hle
      omega
    have hsame : c.toLower = c := dif_neg hbeyond
    have hdigit : ∀ v < 16, (digit v).toNat < 128 := by decide
    have := hdigit v hv
    rw [← h, hsame] at this
    omega

/-! ## Digits in pairs -/

theorem ofByte_pair {high low : Nat} (hhigh : high < 16) (hlow : low < 16) :
    ofByte (UInt8.ofNat high * 16 + UInt8.ofNat low) = [digit high, digit low] := by
  have hsixteen : (16 : UInt8).toNat = 16 := rfl
  have hvalue : (UInt8.ofNat high * 16 + UInt8.ofNat low).toNat = 16 * high + low := by
    rw [UInt8.toNat_add, UInt8.toNat_mul, UInt8.toNat_ofNat', UInt8.toNat_ofNat', hsixteen]
    omega
  rw [ofByte, hvalue, show (16 * high + low) / 16 = high by omega,
    show (16 * high + low) % 16 = low by omega]

theorem length_flatMap_of_isDigit {cs : List Char} (h : ∀ c ∈ cs, isDigit c = true) :
    (cs.flatMap String.utf8EncodeChar).length = cs.length := by
  induction cs with
  | nil => rfl
  | cons c rest ih =>
    rw [List.forall_mem_cons] at h
    rw [List.flatMap_cons, utf8EncodeChar_of_isDigit h.1, List.singleton_append, List.length_cons,
      List.length_cons, ih h.2]

theorem length_chars (bytes : Bytes) : (chars bytes).length = 2 * bytes.length := by
  induction bytes with
  | nil => rfl
  | cons b rest ih =>
    have hcons : chars (b :: rest) = ofByte b ++ chars rest := List.flatMap_cons
    have htwo : (ofByte b).length = 2 := rfl
    rw [hcons, List.length_append, htwo, ih, List.length_cons]
    omega

/-- An even number of digits is read as the bytes that are written with their small letters. -/
theorem exists_pairs_eq_ok (offset : Nat) :
    ∀ {cs : List Char}, cs.length % 2 = 0 → (∀ c ∈ cs, isDigit c = true) →
      ∃ out, pairs offset (cs.flatMap String.utf8EncodeChar) = .ok out ∧ chars out = cs.map Char.toLower
  | [], _, _ => ⟨[], rfl, rfl⟩
  | [_], hlength, _ => absurd hlength (by decide : ¬1 % 2 = 0)
  | high :: low :: rest, hlength, hdigits => by
    rw [List.forall_mem_cons, List.forall_mem_cons] at hdigits
    obtain ⟨hhigh, hlow, hrest⟩ := hdigits
    obtain ⟨v, hv, hvalue, hletter⟩ := exists_value?_of_isDigit (toNat_lt_of_isDigit hhigh) hhigh
    obtain ⟨w, hw, hvalue', hletter'⟩ := exists_value?_of_isDigit (toNat_lt_of_isDigit hlow) hlow
    have heven : rest.length % 2 = 0 := by
      rw [List.length_cons, List.length_cons] at hlength
      omega
    obtain ⟨out, hpairs, hchars⟩ := exists_pairs_eq_ok (offset + 2) heven hrest
    refine ⟨(UInt8.ofNat v * 16 + UInt8.ofNat w) :: out, ?_, ?_⟩
    · rw [List.flatMap_cons, List.flatMap_cons, utf8EncodeChar_of_isDigit hhigh,
        utf8EncodeChar_of_isDigit hlow, List.singleton_append, List.singleton_append, pairs, hvalue, hvalue']
      exact congrArg (Except.map _) hpairs
    · rw [chars, List.flatMap_cons, ofByte_pair hv hw, ← hletter, ← hletter']
      exact congrArg (_ :: _ :: ·) hchars

/-- The first byte that is no digit, with its offset. -/
structure IsFirstBad (digits : Bytes) (b : UInt8) (offset : Nat) : Prop where
  here : digits[offset]? = some b
  bad : isDigitByte b = false
  before : ∀ i < offset, ∀ d, digits[i]? = some d → isDigitByte d = true

theorem IsFirstBad.unique {digits : Bytes} {b b' : UInt8} {offset offset' : Nat}
    (h : IsFirstBad digits b offset) (h' : IsFirstBad digits b' offset') : b = b' ∧ offset = offset' := by
  have hnotBefore {b b' : UInt8} {offset offset' : Nat} (h : IsFirstBad digits b offset)
      (h' : IsFirstBad digits b' offset') : ¬offset < offset' := by
    intro hlt
    have hdigit := h'.before offset hlt b h.here
    rw [h.bad] at hdigit
    cases hdigit
  have hsame : offset = offset' :=
    Nat.le_antisymm (Nat.not_lt.mp (hnotBefore h' h)) (Nat.not_lt.mp (hnotBefore h h'))
  subst hsame
  exact ⟨Option.some_inj.mp (h.here.symm.trans h'.here), rfl⟩

theorem exists_isFirstBad {digits : Bytes} (h : ¬∀ d ∈ digits, isDigitByte d = true) :
    ∃ b offset, IsFirstBad digits b offset := by
  induction digits with
  | nil => exact absurd nofun h
  | cons d rest ih =>
    cases hd : isDigitByte d with
    | false => exact ⟨d, 0, rfl, hd, fun i hi => absurd hi (Nat.not_lt_zero i)⟩
    | true =>
      obtain ⟨b, offset, hhere, hbad, hbefore⟩ :=
        ih fun hrest => h (List.forall_mem_cons.mpr ⟨hd, hrest⟩)
      refine ⟨b, offset + 1, hhere, hbad, fun i hi => ?_⟩
      cases i with
      | zero =>
        rintro _ ⟨⟩
        exact hd
      | succ i => exact hbefore i (Nat.lt_of_succ_lt_succ hi)

theorem value?_eq_none {b : UInt8} (h : isDigitByte b = false) : value? b = none := by
  rwa [← isSome_value?, Option.isSome_eq_false_iff, Option.isNone_iff_eq_none] at h

theorem exists_value? {b : UInt8} (h : isDigitByte b = true) : ∃ value, value? b = some value := by
  rwa [← isSome_value?, Option.isSome_iff_exists] at h

/-- The first byte that is no digit is reported. -/
theorem pairs_eq_error {b : UInt8} (start : Nat) : ∀ {digits : Bytes} {offset : Nat},
    digits.length % 2 = 0 → IsFirstBad digits b offset → pairs start digits = .error (b, start + offset)
  | [], _, _, h => nomatch h.here
  | [_], _, hlength, _ => absurd hlength (by decide : ¬1 % 2 = 0)
  | high :: low :: rest, 0, _, h => by
    cases h.here
    rw [pairs, value?_eq_none h.bad]
    rfl
  | high :: low :: rest, 1, _, h => by
    obtain ⟨value, hvalue⟩ := exists_value? (h.before 0 Nat.zero_lt_one high rfl)
    cases h.here
    rw [pairs, hvalue, value?_eq_none h.bad]
  | high :: low :: rest, offset + 2, hlength, h => by
    obtain ⟨value, hvalue⟩ := exists_value? (h.before 0 (Nat.succ_pos _) high rfl)
    obtain ⟨value', hvalue'⟩ := exists_value? (h.before 1 (Nat.succ_lt_succ (Nat.succ_pos _)) low rfl)
    have hrest : IsFirstBad rest b offset :=
      ⟨h.here, h.bad, fun i hi => h.before (i + 2) (Nat.add_lt_add_right hi 2)⟩
    have heven : rest.length % 2 = 0 := by
      rw [List.length_cons, List.length_cons] at hlength
      omega
    have herror : pairs (start + 2) rest = .error (b, start + (offset + 2)) := by
      rw [pairs_eq_error (start + 2) heven hrest, Nat.add_assoc, Nat.add_comm 2]
    rw [pairs, hvalue, hvalue']
    exact congrArg (Except.map _) herror

end Hex

namespace BlockHash

open Hex (isDigit isDigitByte IsFirstBad)

/-- A text after one leading `0x`. -/
def withoutPrefix (text : String) : String :=
  match text.toList with
  | '0' :: 'x' :: rest => String.ofList rest
  | _ => text

theorem withoutPrefix_append (text : String) : withoutPrefix ("0x" ++ text) = text := by
  rw [withoutPrefix, String.toList_append]
  exact String.ofList_toList

/-- The bytes of a text after its prefix are those after the bytes of the prefix. -/
theorem unprefixed_ofText (text : String) :
    unprefixed (Bytes.ofText text) = Bytes.ofText (withoutPrefix text) := by
  rw [withoutPrefix]
  split
  · rename_i rest hprefixed
    rw [Bytes.ofText_eq_flatMap, hprefixed, Bytes.ofText_ofList]
    rfl
  · rename_i hnone
    unfold unprefixed
    split
    · rename_i rest hbytes
      rw [Bytes.ofText_eq_flatMap] at hbytes
      obtain ⟨cs, hcs, hrest⟩ := cons_of_utf8 (by decide) hbytes
      obtain ⟨cs', rfl, -⟩ := cons_of_utf8 (by decide) hrest
      exact (hnone cs' hcs).elim
    · rfl

theorem isDigitByte_of_mem {text : String} (h : ∀ c ∈ text.toList, isDigit c = true) {b : UInt8}
    (hb : b ∈ Bytes.ofText text) : isDigitByte b = true := by
  rw [Bytes.ofText_eq_flatMap] at hb
  obtain ⟨c, hc, hb⟩ := List.mem_flatMap.mp hb
  exact (Hex.isDigit_iff_bytes c).mp (h c hc) b hb

theorem toText_injective {hash hash' : BlockHash} (h : hash.toText = hash'.toText) : hash = hash' := by
  have hread := ofText_toText hash
  rw [h, ofText_toText hash'] at hread
  cases hread
  rfl

/-! ## How a text is read -/

/-- How a text is read, by the first of its faults. -/
inductive ReadAs (text : String) : Except TextError BlockHash → Prop where
  | oddLength (h : (Bytes.ofText (withoutPrefix text)).length % 2 = 1) : ReadAs text (.error .oddLength)
  | wrongLength (heven : (Bytes.ofText (withoutPrefix text)).length % 2 = 0)
      (h : (Bytes.ofText (withoutPrefix text)).length ≠ 64) : ReadAs text (.error .wrongLength)
  | badDigit {b : UInt8} {offset : Nat} (hlength : (Bytes.ofText (withoutPrefix text)).length = 64)
      (h : IsFirstBad (Bytes.ofText (withoutPrefix text)) b offset) :
      ReadAs text (.error (.badDigit b offset))
  | hash {hash : BlockHash} (hlength : (Bytes.ofText (withoutPrefix text)).length = 64)
      (hdigits : ∀ c ∈ (withoutPrefix text).toList, isDigit c = true)
      (h : (withoutPrefix text).toLower = hash.toText) : ReadAs text (.ok hash)

theorem not_isFirstBad {text : String} (h : ∀ c ∈ text.toList, isDigit c = true) {b : UInt8}
    {offset : Nat} : ¬IsFirstBad (Bytes.ofText text) b offset := by
  intro hbad
  have hdigit := isDigitByte_of_mem h (List.mem_of_getElem? hbad.here)
  rw [hbad.bad] at hdigit
  cases hdigit

theorem ReadAs.unique {text : String} {outcome outcome' : Except TextError BlockHash}
    (h : ReadAs text outcome) (h' : ReadAs text outcome') : outcome = outcome' := by
  cases h with
  | oddLength hodd =>
    cases h' with
    | oddLength => rfl
    | _ => omega
  | wrongLength heven hwrong =>
    cases h' with
    | wrongLength => rfl
    | _ => omega
  | badDigit hlength hbad =>
    cases h' with
    | badDigit _ hbad' =>
      obtain ⟨rfl, rfl⟩ := hbad.unique hbad'
      rfl
    | hash _ hdigits => exact absurd hbad (not_isFirstBad hdigits)
    | _ => omega
  | hash hlength hdigits hletters =>
    cases h' with
    | badDigit _ hbad => exact absurd hbad (not_isFirstBad hdigits)
    | hash _ _ hletters' => rw [toText_injective (hletters.symm.trans hletters')]
    | _ => omega

/-- Every text is read in one of these ways. -/
theorem readAs_ofText (text : String) : ReadAs text (ofText text) := by
  rw [ofText, ofTextBytes, unprefixed_ofText]
  split
  · exact .oddLength ‹_›
  · have heven : (Bytes.ofText (withoutPrefix text)).length % 2 = 0 := by omega
    split
    · exact .wrongLength heven ‹_›
    · rename_i hlength
      rw [Decidable.not_not] at hlength
      by_cases hdigits : ∀ c ∈ (withoutPrefix text).toList, isDigit c = true
      · have hchars := Hex.length_flatMap_of_isDigit hdigits
        rw [← Bytes.ofText_eq_flatMap] at hchars
        obtain ⟨out, hpairs, hout⟩ := Hex.exists_pairs_eq_ok 0 (hchars ▸ heven) hdigits
        rw [← Bytes.ofText_eq_flatMap] at hpairs
        have hsize : out.length = 32 := by
          have hboth := congrArg List.length hout
          rw [Hex.length_chars, List.length_map] at hboth
          omega
        rw [hpairs]
        simp only [ofBytes?, hsize, dif_pos]
        refine .hash hlength hdigits ?_
        rw [← String.toList_inj, toList_toLower, ← hout]
        exact String.toList_ofList.symm
      · have hbad : ¬∀ d ∈ Bytes.ofText (withoutPrefix text), isDigitByte d = true := by
          refine fun hall => hdigits fun c hc => (Hex.isDigit_iff_bytes c).mpr fun b hb => hall b ?_
          rw [Bytes.ofText_eq_flatMap]
          exact List.mem_flatMap.mpr ⟨c, hc, hb⟩
        obtain ⟨b, offset, hfirst⟩ := Hex.exists_isFirstBad hbad
        rw [Hex.pairs_eq_error 0 heven hfirst]
        rw [← Nat.zero_add offset] at hfirst
        exact .badDigit hlength hfirst

/-! ## Letter case -/

section Readings

variable {text : String} {hash : BlockHash}

theorem exists_digit_of_mem_chars {c : Char} {bytes : Bytes} (h : c ∈ Hex.chars bytes) :
    ∃ v < 16, c = Hex.digit v := by
  obtain ⟨b, -, hc⟩ := List.mem_flatMap.mp h
  have hbound := b.toNat_lt
  simp only [Hex.ofByte, List.mem_cons, List.not_mem_nil, or_false] at hc
  rcases hc with rfl | rfl
  · exact ⟨_, by omega, rfl⟩
  · exact ⟨_, by omega, rfl⟩

theorem map_toLower_eq (h : text.toLower = hash.toText) :
    text.toList.map Char.toLower = Hex.chars hash.bytes := by
  rw [← toList_toLower, h, toText, Hex.encode, String.toList_ofList]

/-- A text that comes to the text of a hash in small letters consists of digits. -/
theorem isDigit_of_toLower_eq (h : text.toLower = hash.toText) :
    ∀ c ∈ text.toList, isDigit c = true := by
  intro c hc
  have hmem : c.toLower ∈ Hex.chars hash.bytes := map_toLower_eq h ▸ List.mem_map_of_mem hc
  obtain ⟨v, hv, hdigit⟩ := exists_digit_of_mem_chars hmem
  exact Hex.isDigit_of_toLower hv hdigit

theorem length_of_toLower_eq (h : text.toLower = hash.toText) : (Bytes.ofText text).length = 64 := by
  rw [Bytes.ofText_eq_flatMap, Hex.length_flatMap_of_isDigit (isDigit_of_toLower_eq h),
    ← List.length_map Char.toLower, map_toLower_eq h, Hex.length_chars, hash.length_eq]

/-- Digits have no prefix. -/
theorem withoutPrefix_of_isDigit (h : ∀ c ∈ text.toList, isDigit c = true) : withoutPrefix text = text := by
  rw [withoutPrefix]
  split
  · rename_i rest hprefixed
    rw [hprefixed] at h
    exact absurd (h 'x' (List.mem_cons_of_mem _ List.mem_cons_self)) (by decide)
  · rfl

/-- A text is read as a hash exactly if it comes to the text of that hash once its prefix is taken away and
capitals are written small. -/
theorem ofText_eq_ok_iff : ofText text = .ok hash ↔ (withoutPrefix text).toLower = hash.toText := by
  constructor
  · intro h
    have hread := readAs_ofText text
    rw [h] at hread
    cases hread with
    | hash _ _ hletters => exact hletters
  · exact fun h =>
      (readAs_ofText text).unique (.hash (length_of_toLower_eq h) (isDigit_of_toLower_eq h) h)

theorem toLower_toText (hash : BlockHash) : hash.toText.toLower = hash.toText := by
  have hsmall : ∀ v < 16, (Hex.digit v).toLower = Hex.digit v := by decide
  rw [← String.toList_inj, toList_toLower, toText, Hex.encode, String.toList_ofList]
  refine (List.map_congr_left fun c hc => ?_).trans (List.map_id _)
  obtain ⟨v, hv, rfl⟩ := exists_digit_of_mem_chars hc
  exact hsmall v hv

/-! ## Causes -/

theorem exists_ofText_eq_ok_iff :
    (∃ hash, ofText text = .ok hash) ↔ (Bytes.ofText (withoutPrefix text)).length = 64 ∧
      ∀ c ∈ (withoutPrefix text).toList, isDigit c = true := by
  have hread := readAs_ofText text
  generalize ofText text = outcome at hread
  cases hread with
  | oddLength hodd => exact ⟨nofun, fun h => by omega⟩
  | wrongLength heven hwrong => exact ⟨nofun, fun h => absurd h.1 hwrong⟩
  | badDigit hlength hbad => exact ⟨nofun, fun h => absurd hbad (not_isFirstBad h.2)⟩
  | hash hlength hdigits => exact ⟨fun _ => ⟨hlength, hdigits⟩, fun _ => ⟨_, rfl⟩⟩

theorem ofText_eq_oddLength_iff :
    ofText text = .error .oddLength ↔ (Bytes.ofText (withoutPrefix text)).length % 2 = 1 := by
  constructor
  · intro h
    have hread := readAs_ofText text
    rw [h] at hread
    cases hread with
    | oddLength hodd => exact hodd
  · exact fun h => (readAs_ofText text).unique (.oddLength h)

theorem ofText_eq_wrongLength_iff :
    ofText text = .error .wrongLength ↔ (Bytes.ofText (withoutPrefix text)).length % 2 = 0 ∧
      (Bytes.ofText (withoutPrefix text)).length ≠ 64 := by
  constructor
  · intro h
    have hread := readAs_ofText text
    rw [h] at hread
    cases hread with
    | wrongLength heven hwrong => exact ⟨heven, hwrong⟩
  · exact fun h => (readAs_ofText text).unique (.wrongLength h.1 h.2)

theorem ofText_eq_badDigit_iff {b : UInt8} {offset : Nat} :
    ofText text = .error (.badDigit b offset) ↔ (Bytes.ofText (withoutPrefix text)).length = 64 ∧
      IsFirstBad (Bytes.ofText (withoutPrefix text)) b offset := by
  constructor
  · intro h
    have hread := readAs_ofText text
    rw [h] at hread
    cases hread with
    | badDigit hlength hbad => exact ⟨hlength, hbad⟩
  · exact fun h => (readAs_ofText text).unique (.badDigit h.1 h.2)

end Readings

/-- The text of a hash, in any mix of letter case and with or without a prefix, is read as that hash. What is
read as some hash is 64 digits after at most one prefix, and texts of the same hash differ in their prefix
and in letter case alone. Any other text is refused for an odd number of bytes, for another number than
64, or for the first byte that is no digit, in this order. -/
theorem ofText_accepts_digits :
    (∀ hash : BlockHash, ofText hash.toText = .ok hash ∧ ofText ("0x" ++ hash.toText) = .ok hash) ∧
    (∀ (hash : BlockHash) (text : String), text.toLower = hash.toText →
      ofText text = .ok hash ∧ ofText ("0x" ++ text) = .ok hash) ∧
    (∀ text, (∃ hash, ofText text = .ok hash) ↔
      (Bytes.ofText (withoutPrefix text)).length = 64 ∧
        ∀ c ∈ (withoutPrefix text).toList, isDigit c = true) ∧
    (∀ text text' hash hash', ofText text = .ok hash → ofText text' = .ok hash' →
      (hash = hash' ↔ (withoutPrefix text).toLower = (withoutPrefix text').toLower)) ∧
    (∀ text, ofText text = .error .oddLength ↔ (Bytes.ofText (withoutPrefix text)).length % 2 = 1) ∧
    (∀ text, ofText text = .error .wrongLength ↔
      (Bytes.ofText (withoutPrefix text)).length % 2 = 0 ∧
        (Bytes.ofText (withoutPrefix text)).length ≠ 64) ∧
    (∀ text b offset, ofText text = .error (.badDigit b offset) ↔
      (Bytes.ofText (withoutPrefix text)).length = 64 ∧
        IsFirstBad (Bytes.ofText (withoutPrefix text)) b offset) := by
  have hboth {hash : BlockHash} {text : String} (h : text.toLower = hash.toText) :
      ofText text = .ok hash ∧ ofText ("0x" ++ text) = .ok hash := by
    rw [ofText_eq_ok_iff, ofText_eq_ok_iff, withoutPrefix_append,
      withoutPrefix_of_isDigit (isDigit_of_toLower_eq h)]
    exact ⟨h, h⟩
  refine ⟨fun hash => hboth hash.toLower_toText, fun _ _ => hboth, fun _ => exists_ofText_eq_ok_iff,
    fun text text' hash hash' h h' => ?_, fun _ => ofText_eq_oddLength_iff,
    fun _ => ofText_eq_wrongLength_iff, fun _ _ _ => ofText_eq_badDigit_iff⟩
  rw [ofText_eq_ok_iff] at h h'
  rw [h, h']
  exact ⟨congrArg toText, toText_injective⟩

/-- A text in both letter cases is read with and without a prefix. After a second prefix the `x` of that one
is no digit. -/
theorem ofText_accepts_digits_sample :
    let hash : BlockHash := ⟨List.replicate 32 0xAB, by decide⟩
    let mixed := String.ofList (List.replicate 32 ['a', 'B']).flatten
    let short := String.ofList (List.replicate 62 'a')
    mixed.toLower = hash.toText ∧ ofText mixed = .ok hash ∧ ofText ("0x" ++ mixed) = .ok hash ∧
      (withoutPrefix mixed).toLower = (withoutPrefix ("0x" ++ mixed)).toLower ∧
      ofText short = .error .wrongLength ∧
      ofText ("0x" ++ ("0x" ++ short)) = .error (.badDigit 120 1) := by
  intro hash mixed short
  obtain ⟨-, hmixed, -, hsame, -, hwrong, hbad⟩ := ofText_accepts_digits
  have hletters : mixed.toLower = hash.toText := by
    rw [← String.toList_inj, toList_toLower, String.toList_ofList, toText, Hex.encode,
      String.toList_ofList]
    decide
  obtain ⟨hplain, hprefixed⟩ := hmixed hash mixed hletters
  refine ⟨hletters, hplain, hprefixed, (hsame _ _ _ _ hplain hprefixed).mp rfl, (hwrong _).mpr ?_,
    (hbad _ _ _).mpr ?_⟩
  · have hshort : withoutPrefix short = short := by
      rw [withoutPrefix, String.toList_ofList]
      rfl
    rw [hshort, Bytes.ofText_ofList]
    decide
  · have hbytes : Bytes.ofText ("0x" ++ short) = 48 :: 120 :: List.replicate 62 97 := by
      rw [Bytes.ofText_eq_flatMap, String.toList_append, String.toList_ofList]
      decide
    rw [withoutPrefix_append, hbytes]
    refine ⟨by decide, rfl, by decide, fun i hi d hd => ?_⟩
    obtain rfl : i = 0 := by omega
    cases hd
    decide

end BlockHash
end BlockFeed
