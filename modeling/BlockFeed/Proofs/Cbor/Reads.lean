import BlockFeed.Cbor.Encode
import BlockFeed.Cbor.Reader

/-!
# Reading back what is written

A reader reads a value from some bytes if it does so whatever follows them, and takes no byte more
(`Reader.Reads`). Readers that are put together read what their parts read, one piece after the other
(`Reads.bind`), so that a whole message is read back once its items are.

The head of an item may be written in several widths (`IsHead`), all of which are read; the library writes
the shortest. Every item that is written is read back: integers, lengths, tags, strings, truth values, and
lists of what is read back (`Reads.elements`). Lengths are written as words, so a string or a list must not have
more elements than a word can count.
-/

namespace BlockFeed

/-- A text is the one with its UTF-8 bytes. -/
theorem Bytes.toText?_ofText (text : String) : toText? (ofText text) = some text := by
  have hbytes : (⟨(ofText text).toArray⟩ : ByteArray) = text.toByteArray := rfl
  rw [toText?, hbytes, String.fromUTF8?, dif_pos text.isValidUTF8]
  rfl

namespace Cbor

namespace Reader

variable {ε ε' α β : Type}

/-- A reader reads a value from some bytes, whatever follows them. -/
def Reads (r : Reader ε α) (bytes : Bytes) (a : α) : Prop :=
  ∀ more, r.run (bytes ++ more) = .ok (a, more)

namespace Reads

variable {r : Reader ε α} {bytes front back : Bytes} {a : α} {b : β}

/-- What follows the value is ignored. -/
theorem value_eq (h : r.Reads bytes a) (more : Bytes) : r.value (bytes ++ more) = .ok a := by
  have hrun : r (bytes ++ more) = .ok (a, more) := h more
  rw [value, hrun]
  rfl

theorem pure (a : α) : (Pure.pure a : Reader ε α).Reads [] a :=
  fun _ => rfl

/-- What follows a part is read after it. -/
theorem bind {f : α → Reader ε β} (h : r.Reads front a) (hf : (f a).Reads back b) :
    (r >>= f).Reads (front ++ back) b := by
  intro more
  rw [run_bind, List.append_assoc, h (back ++ more)]
  exact hf more

/-- A part may be followed by work that takes nothing. -/
theorem map {f : α → Reader ε β} (h : r.Reads bytes a) (hf : (f a).Reads [] b) :
    (r >>= f).Reads bytes b := by
  have hall := h.bind hf
  rwa [List.append_nil] at hall

theorem mapError (f : ε → ε') (h : r.Reads bytes a) : (r.mapError f).Reads bytes a := by
  intro more
  rw [run_mapError, h more]
  rfl

/-- Values are read one after the other. -/
theorem times {γ : Type} {write : γ → Bytes} {kept : γ → α} {items : List γ}
    (h : ∀ item ∈ items, r.Reads (write item) (kept item)) :
    (r.times items.length).Reads (items.flatMap write) (items.map kept) := by
  induction items with
  | nil => exact .pure []
  | cons item rest ih =>
    have hrest := ih fun other hother => h other (List.mem_cons_of_mem _ hother)
    rw [List.flatMap_cons, List.map_cons]
    exact (h item List.mem_cons_self).bind (hrest.map (.pure _))

end Reads

theorem exists_run_of_value {r : Reader ε α} {input : Bytes} {a : α} (h : r.value input = .ok a) :
    ∃ rest, r.run input = .ok (a, rest) := by
  cases hread : r.run input with
  | ok p =>
    have hvalue : r.value input = .ok p.1 := congrArg (Except.map Prod.fst) hread
    cases hvalue.symm.trans h
    exact ⟨p.2, rfl⟩
  | error e =>
    have hvalue : r.value input = .error e := congrArg (Except.map Prod.fst) hread
    cases hvalue.symm.trans h

/-- A reader that wraps what another one reads gives nothing else. -/
theorem exists_of_run_map {r : Reader ε α} {f : α → β} {input rest : Bytes} {b : β}
    (h : (r >>= fun a => Pure.pure (f a)).run input = .ok (b, rest)) :
    ∃ a, b = f a ∧ r.run input = .ok (a, rest) := by
  rw [run_bind] at h
  cases hread : r.run input with
  | ok p =>
    rw [hread] at h
    cases h
    exact ⟨p.1, rfl, rfl⟩
  | error e =>
    rw [hread] at h
    cases h

end Reader

open Reader

/-! ## Heads -/

/-- A word is read back from as many bytes as it needs. -/
theorem reads_word {width : Nat} {n : UInt64} (h : n.toNat < Nat.pow 256 width) :
    (word width).Reads (Bytes.bigEndian width n.toNat) n := by
  have htake : (take width).Reads (Bytes.bigEndian width n.toNat)
      (Bytes.bigEndian width n.toNat) := by
    intro more
    have hlength : (Bytes.bigEndian width n.toNat).length = width := Bytes.length_bigEndian _ _
    have hle : width ≤ (Bytes.bigEndian width n.toNat ++ more).length := by
      rw [List.length_append]
      omega
    rw [run, take, if_pos hle, List.take_left' hlength, List.drop_left' hlength]
  refine htake.map ?_
  rw [Bytes.ofBigEndian_bigEndian, Nat.mod_eq_of_lt h, UInt64.ofNat_toNat]
  exact .pure n

/-- The initial byte of an item tells its low five bits. -/
theorem reads_initial {major info : Nat} (hmajor : major < 8) (hinfo : info < 32) :
    (initial major).Reads [UInt8.ofNat (32 * major + info)] info := by
  have hbyte : (UInt8.ofNat (32 * major + info)).toNat = 32 * major + info := by
    rw [UInt8.toNat_ofNat']
    omega
  have hread : byte.Reads [UInt8.ofNat (32 * major + info)] (UInt8.ofNat (32 * major + info)) :=
    fun _ => rfl
  refine hread.map ?_
  rw [hbyte, if_pos (by omega), show (32 * major + info) % 32 = info by omega]
  exact .pure info

/-- Bytes are the head of an item: its major type and its argument. A small argument may stand in the
initial byte; in the one, two, four or eight bytes after it there may stand any that fits. -/
inductive IsHead (major : Nat) (n : UInt64) : Bytes → Prop where
  | short (h : n.toNat < 24) : IsHead major n [UInt8.ofNat (32 * major + n.toNat)]
  | wide (k : Nat) (hk : k < 4) (h : n.toNat < Nat.pow 256 (Nat.pow 2 k)) :
      IsHead major n (UInt8.ofNat (32 * major + (24 + k)) :: Bytes.bigEndian (Nat.pow 2 k) n.toNat)

/-- What is written is a head. -/
theorem isHead_head (major : Nat) (n : UInt64) : IsHead major n (head major n) := by
  unfold head
  dsimp only
  split
  · exact .short ‹_›
  · split
    · exact .wide 0 (by decide) ‹_›
    · split
      · exact .wide 1 (by decide) ‹_›
      · split
        · exact .wide 2 (by decide) ‹_›
        · exact .wide 3 (by decide) n.toNat_lt

namespace IsHead

variable {major : Nat} {n : UInt64} {bytes : Bytes}

/-- A head is an initial byte and the bytes that it announces. No head of definite length has the low
bits of an open one. -/
theorem exists_argument (h : IsHead major n bytes) :
    ∃ info body, info < 31 ∧ bytes = UInt8.ofNat (32 * major + info) :: body ∧
      (argument info).Reads body n := by
  cases h with
  | short hlow =>
    refine ⟨n.toNat, [], by omega, rfl, ?_⟩
    rw [argument, if_pos hlow, UInt64.ofNat_toNat]
    exact .pure n
  | wide k hk hfits =>
    refine ⟨24 + k, _, by omega, rfl, ?_⟩
    have hwords : argument (24 + k) = word (Nat.pow 2 k) := by
      match k, hk with
      | 0, _ => rfl
      | 1, _ => rfl
      | 2, _ => rfl
      | 3, _ => rfl
    rw [hwords]
    exact reads_word hfits

/-- The argument of a head is read. -/
theorem reads (hmajor : major < 8) (h : IsHead major n bytes) :
    (initial major >>= argument).Reads bytes n := by
  obtain ⟨info, body, hinfo, rfl, hbody⟩ := h.exists_argument
  exact (reads_initial hmajor (by omega)).bind hbody

/-- A definite length is read. -/
theorem reads_lengthOf (hmajor : major < 8) (h : IsHead major n bytes) :
    (lengthOf major).Reads bytes (some n) := by
  obtain ⟨info, body, hinfo, rfl, hbody⟩ := h.exists_argument
  refine (reads_initial hmajor (by omega)).bind ?_
  rw [if_neg (by omega)]
  intro more
  rw [run_map, hbody more]

/-- The content of a string is read after its length. -/
theorem reads_content (hmajor : major < 8) {string : Bytes} (h : IsHead major n bytes)
    (hlength : n.toNat = string.length) : (content major).Reads (bytes ++ string) string := by
  have htake : (take n.toNat).Reads string string := by
    intro more
    have hle : n.toNat ≤ (string ++ more).length := by
      rw [List.length_append]
      omega
    rw [run, take, if_pos hle, hlength, List.take_left, List.drop_left]
  obtain ⟨info, body, hinfo, rfl, hbody⟩ := h.exists_argument
  exact (reads_initial hmajor (by omega)).bind (hbody.bind htake)

end IsHead

/-- Bytes open an array, of a definite length or of one that is left open. -/
inductive IsArrayHead : Bytes → Prop where
  | definite {length : UInt64} {bytes : Bytes} (h : IsHead 4 length bytes) : IsArrayHead bytes
  | endless : IsArrayHead [0x9F]

/-- Whatever its length is, an array is opened. -/
theorem IsArrayHead.exists_reads {bytes : Bytes} (h : IsArrayHead bytes) :
    ∃ length, readArray.Reads bytes length := by
  cases h with
  | definite hhead => exact ⟨_, hhead.reads_lengthOf (by decide)⟩
  | endless => exact ⟨none, fun _ => rfl⟩

/-! ## Items -/

theorem reads_uint (n : UInt64) : readUInt.Reads (uint n) n :=
  (isHead_head 0 n).reads (by decide)

theorem reads_uint8 (n : UInt8) : readUInt8.Reads (uint n.toUInt64) n := by
  have hlow : n.toUInt64.toNat < 256 := by
    rw [UInt8.toNat_toUInt64]
    exact n.toNat_lt
  refine (reads_uint n.toUInt64).map ?_
  rw [if_pos hlow, UInt8.toUInt8_toUInt64]
  exact .pure n

theorem reads_array (length : Nat) :
    readArray.Reads (array length) (some (UInt64.ofNat length)) :=
  (isHead_head 4 _).reads_lengthOf (by decide)

theorem reads_map (length : Nat) : readMap.Reads (map length) (some (UInt64.ofNat length)) :=
  (isHead_head 5 _).reads_lengthOf (by decide)

theorem reads_tag (number : UInt64) : readTag.Reads (tag number) number :=
  (isHead_head 6 number).reads (by decide)

theorem reads_bool (b : Bool) : readBool.Reads (bool b) b := by
  cases b <;> exact fun _ => rfl

theorem reads_bytes {bytes : Bytes} (h : bytes.length < UInt64.size) :
    readBytes.Reads (Cbor.bytes bytes) bytes :=
  (isHead_head 2 _).reads_content (by decide) (UInt64.toNat_ofNat_of_lt' h)

theorem reads_text {text : String} (h : (Bytes.ofText text).length < UInt64.size) :
    readText.Reads (Cbor.text text) text := by
  refine ((isHead_head 3 _).reads_content (by decide) (UInt64.toNat_ofNat_of_lt' h)).map ?_
  rw [Bytes.toText?_ofText]
  exact .pure text

/-- The elements of an array are read back. -/
theorem Reader.Reads.elements {ε α γ : Type} {lift : Fault → ε} {r : Reader ε α} {write : γ → Bytes}
    {kept : γ → α} {items : List γ} (hlength : items.length < UInt64.size)
    (h : ∀ item ∈ items, r.Reads (write item) (kept item)) :
    (Cbor.elements lift r).Reads (array items.length ++ items.flatMap write) (items.map kept) := by
  refine ((reads_array items.length).mapError lift).bind ?_
  dsimp only
  rw [UInt64.toNat_ofNat_of_lt' hlength]
  exact .times h

end Cbor

end BlockFeed
