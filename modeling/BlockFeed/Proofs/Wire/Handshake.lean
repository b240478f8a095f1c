import BlockFeed.Proofs.Wire.RoundTrip
import BlockFeed.Wire.Handshake

/-!
# Handshake messages are read back

Every message of the negotiation is read back as it was, whatever bytes follow (`Message.reads_encode`).

Parameters of a version are written by us with all four of their items, and by older nodes with two or
three. `VersionData.WrittenAs` describes these forms, in which every item may stand in any width. They are
what is accepted, and nothing else (`VersionData.run_decoder_iff`): an array of another length, an array or
a table of open length is refused, each for a cause of its own. So a message that has been read, in
whatever form it came, is read back the same when it is written again (`decode_encode_eq`).
-/

namespace BlockFeed.Handshake

open Cbor (Fault)
open Cbor.Reader (Reads Gives Exact)

/-! ## Parameters of a version -/

/-- The bytes in which parameters are written: an array of two, three or four items. Those that are left
out have their defaults. -/
inductive VersionData.WrittenAs : Bytes → VersionData → Prop where
  | two {head magic mode : Bytes} {networkMagic : UInt64} {initiatorOnly : Bool}
      (hhead : Cbor.readArray.Reads head (some 2)) (hmagic : Cbor.readUInt.Reads magic networkMagic)
      (hmode : Cbor.readBool.Reads mode initiatorOnly) :
      WrittenAs (head ++ (magic ++ mode)) ⟨networkMagic, initiatorOnly, 0, false⟩
  | three {head magic mode sharing : Bytes} {networkMagic : UInt64} {initiatorOnly : Bool}
      {peerSharing : UInt8} (hhead : Cbor.readArray.Reads head (some 3))
      (hmagic : Cbor.readUInt.Reads magic networkMagic)
      (hmode : Cbor.readBool.Reads mode initiatorOnly)
      (hsharing : Cbor.readUInt8.Reads sharing peerSharing) :
      WrittenAs (head ++ (magic ++ (mode ++ sharing)))
        ⟨networkMagic, initiatorOnly, peerSharing, false⟩
  | four {head magic mode sharing asked : Bytes} {networkMagic : UInt64} {initiatorOnly : Bool}
      {peerSharing : UInt8} {query : Bool} (hhead : Cbor.readArray.Reads head (some 4))
      (hmagic : Cbor.readUInt.Reads magic networkMagic)
      (hmode : Cbor.readBool.Reads mode initiatorOnly)
      (hsharing : Cbor.readUInt8.Reads sharing peerSharing)
      (hasked : Cbor.readBool.Reads asked query) :
      WrittenAs (head ++ (magic ++ (mode ++ (sharing ++ asked))))
        ⟨networkMagic, initiatorOnly, peerSharing, query⟩

namespace VersionData

variable {written : Bytes} {data : VersionData}

/-- Parameters are read in every one of their forms. -/
theorem WrittenAs.reads (h : WrittenAs written data) : decoder.Reads written data := by
  cases h with
  | two hhead hmagic hmode =>
    exact (hhead.mapError _).bind <| (hmagic.mapError _).bind <| (hmode.mapError _).map (.pure _)
  | three hhead hmagic hmode hsharing =>
    exact (hhead.mapError _).bind <| (hmagic.mapError _).bind <| (hmode.mapError _).bind <|
      (hsharing.mapError _).map (.pure _)
  | four hhead hmagic hmode hsharing hasked =>
    exact (hhead.mapError _).bind <| (hmagic.mapError _).bind <| (hmode.mapError _).bind <|
      (hsharing.mapError _).bind <| (hasked.mapError _).map (.pure _)

/-- All four items are written. -/
theorem writtenAs_encode (d : VersionData) : WrittenAs d.encode d := by
  simp only [encode, List.append_assoc]
  exact .four (Cbor.reads_array 4) (Cbor.reads_uint _) (Cbor.reads_bool _) (Cbor.reads_uint8 _)
    (Cbor.reads_bool _)

/-- The lengths that are accepted. -/
theorem fields_cases {fields : UInt64} (h : ¬(fields < 2 || 4 < fields) = true) :
    fields = 2 ∨ fields = 3 ∨ fields = 4 := by
  simp only [Bool.or_eq_true, decide_eq_true_eq, UInt64.lt_iff_toNat_lt, not_or] at h
  simp only [← UInt64.toNat_inj, UInt64.reduceToNat] at h ⊢
  omega

/-- What is accepted has one of the forms. -/
theorem exists_writtenAs {input rest : Bytes} (h : decoder.run input = .ok (data, rest)) :
    ∃ written, WrittenAs written data ∧ input = written ++ rest := by
  obtain ⟨head, left, length, rfl, hhead, h⟩ := (Cbor.exact_lengthOf 4).exists_reads_of_bind h
  cases length with
  | none => cases h
  | some fields =>
    dsimp only at h
    split at h
    · cases h
    · rename_i hfields
      obtain ⟨magic, left, networkMagic, rfl, hmagic, h⟩ := Cbor.exact_uint.exists_reads_of_bind h
      obtain ⟨mode, left, initiatorOnly, rfl, hmode, h⟩ := Cbor.exact_bool.exists_reads_of_bind h
      rcases fields_cases hfields with rfl | rfl | rfl
      · cases h
        exact ⟨_, .two hhead hmagic hmode, by simp only [List.append_assoc]⟩
      · obtain ⟨sharing, left, peerSharing, rfl, hsharing, h⟩ :=
          Cbor.exact_uint8.exists_reads_of_bind h
        cases h
        exact ⟨_, .three hhead hmagic hmode hsharing, by simp only [List.append_assoc]⟩
      · obtain ⟨sharing, left, peerSharing, rfl, hsharing, h⟩ :=
          Cbor.exact_uint8.exists_reads_of_bind h
        obtain ⟨asked, left, query, rfl, hasked, h⟩ := Cbor.exact_bool.exists_reads_of_bind h
        cases h
        exact ⟨_, .four hhead hmagic hmode hsharing hasked, by simp only [List.append_assoc]⟩

/-- What is accepted is parameters in one of their forms, and what is left comes after them. -/
theorem run_decoder_iff {input rest : Bytes} :
    decoder.run input = .ok (data, rest) ↔
      ∃ written, WrittenAs written data ∧ input = written ++ rest := by
  refine ⟨exists_writtenAs, ?_⟩
  rintro ⟨written, hwritten, rfl⟩
  exact hwritten.reads rest

/-- An array of open length is refused. -/
theorem run_decoder_of_open {input rest : Bytes}
    (h : Cbor.readArray.run input = .ok (none, rest)) :
    decoder.run input = .error .openVersionData := by
  rw [decoder, Cbor.Reader.run_bind, Cbor.Reader.run_mapError, h]
  rfl

/-- An array of another length is refused. -/
theorem run_decoder_of_length {input rest : Bytes} {length : UInt64}
    (h : Cbor.readArray.run input = .ok (some length, rest))
    (hlength : length ∉ [2, 3, 4]) : decoder.run input = .error (.versionFields length) := by
  have hrefused : (length < 2 || 4 < length) = true := by
    refine Decidable.byContradiction fun hbound => hlength ?_
    simpa using fields_cases hbound
  rw [decoder, Cbor.Reader.run_bind, Cbor.Reader.run_mapError, h]
  exact congrArg (Cbor.Reader.run · rest) (if_pos hrefused)

theorem gives_decoder : decoder.Gives fun _ => True := by
  intro input data rest _ hread
  obtain ⟨written, -, rfl⟩ := exists_writtenAs hread
  refine ⟨trivial, ?_⟩
  rw [List.length_append]
  exact Nat.le_add_left _ _

end VersionData

/-! ## Tables of versions -/

theorem reads_entry (entry : VersionEntry) : entryDecoder.Reads (encodeEntry entry) entry :=
  ((Cbor.reads_uint entry.1).mapError _).bind
    (entry.2.writtenAs_encode.reads.map (.pure _))

theorem reads_table {versions : List VersionEntry} (h : versions.length < UInt64.size) :
    tableDecoder.Reads (encodeTable versions) versions := by
  refine ((Cbor.reads_map versions.length).mapError _).bind ?_
  dsimp only
  rw [UInt64.toNat_ofNat_of_lt' h]
  have hall : (entryDecoder.times versions.length).Reads (versions.flatMap encodeEntry)
      (versions.map fun entry => entry) := .times fun entry _ => reads_entry entry
  rwa [List.map_id'] at hall

/-- A table of open length is refused. -/
theorem run_tableDecoder_of_open {input rest : Bytes}
    (h : Cbor.readMap.run input = .ok (none, rest)) :
    tableDecoder.run input = .error .openVersionTable := by
  rw [tableDecoder, Cbor.Reader.run_bind, Cbor.Reader.run_mapError, h]
  rfl

theorem gives_table : tableDecoder.Gives fun versions => versions.length < UInt64.size := by
  refine ((Cbor.exact_lengthOf 5).gives.mapError _).bind fun length _ => ?_
  cases length with
  | none => exact .fail _
  | some entries =>
    have hentry : entryDecoder.Gives fun _ => True :=
      (Cbor.exact_uint.gives.mapError _).bind fun _ _ =>
        VersionData.gives_decoder.bind fun _ _ => .pure trivial
    intro input versions rest hinput hread
    obtain ⟨⟨hlength, -⟩, hrest⟩ := hentry.times entries.toNat hinput hread
    exact ⟨Nat.lt_of_le_of_lt (Nat.le_of_eq hlength) entries.toNat_lt, hrest⟩

/-! ## Reasons -/

namespace RefuseReason

/-- A reason can be written: its list or its text is no longer than a word can count. -/
def IsWritable : RefuseReason → Prop
  | .versionMismatch versions => versions.length < UInt64.size
  | .decodeError _ text => (Bytes.ofText text).length < UInt64.size
  | .refused _ text => (Bytes.ofText text).length < UInt64.size

theorem reads_encode {reason : RefuseReason} (h : reason.IsWritable) :
    decoder.Reads reason.encode reason := by
  cases reason with
  | versionMismatch versions =>
    simp only [encode, List.append_assoc]
    have hall : (Cbor.elements DecodeError.format Cbor.readUInt.lift).Reads
        (Cbor.array versions.length ++ versions.flatMap Cbor.uint)
        (versions.map fun version => version) :=
      .elements h fun version _ => (Cbor.reads_uint version).mapError _
    rw [List.map_id'] at hall
    exact reads_numbered 2 0 (hall.map (.pure _))
  | decodeError version text =>
    simp only [encode, List.append_assoc]
    exact reads_numbered 3 1 (((Cbor.reads_uint version).mapError _).bind
      (((Cbor.reads_text h).mapError _).map (.pure _)))
  | refused version text =>
    simp only [encode, List.append_assoc]
    exact reads_numbered 3 2 (((Cbor.reads_uint version).mapError _).bind
      (((Cbor.reads_text h).mapError _).map (.pure _)))

theorem gives_decoder : decoder.Gives IsWritable := by
  have hword : (Cbor.readUInt.lift).Gives fun _ => True := Cbor.exact_uint.gives.mapError _
  refine gives_numbered fun number => .ite ?_ <| .ite ?_ <| .ite ?_ (.fail _)
  · exact hword.elements.bind fun versions hversions => .pure hversions.1
  · exact hword.bind fun version _ =>
      (Cbor.gives_text.mapError _).bind fun text htext => .pure htext
  · exact hword.bind fun version _ =>
      (Cbor.gives_text.mapError _).bind fun text htext => .pure htext

end RefuseReason

/-! ## Messages -/

namespace Message

/-- A message can be written: its lists and texts are no longer than a word can count. -/
def IsWritable : Message → Prop
  | .proposeVersions versions => versions.length < UInt64.size
  | .acceptVersion _ _ => True
  | .refuse reason => reason.IsWritable
  | .queryReply versions => versions.length < UInt64.size

/-- What is written of a message is read back. -/
theorem reads_encode {m : Message} (h : m.IsWritable) : decoder.Reads m.encode m := by
  cases m with
  | proposeVersions versions =>
    simp only [encode, List.append_assoc]
    exact reads_numbered 2 0 ((reads_table h).map (.pure _))
  | acceptVersion version data =>
    simp only [encode, List.append_assoc]
    exact reads_numbered 3 1 (((Cbor.reads_uint version).mapError _).bind
      (data.writtenAs_encode.reads.map (.pure _)))
  | refuse reason =>
    simp only [encode, List.append_assoc]
    exact reads_numbered 2 2 ((reason.reads_encode h).map (.pure _))
  | queryReply versions =>
    simp only [encode, List.append_assoc]
    exact reads_numbered 2 3 ((reads_table h).map (.pure _))

/-- What is read can be written. -/
theorem gives_decoder : decoder.Gives IsWritable := by
  refine gives_numbered fun number => .ite ?_ <| .ite ?_ <| .ite ?_ <| .ite ?_ (.fail _)
  · exact gives_table.bind fun versions hversions => .pure hversions
  · exact (Cbor.exact_uint.gives.mapError _).bind fun version _ =>
      VersionData.gives_decoder.bind fun data _ => .pure trivial
  · exact RefuseReason.gives_decoder.bind fun reason hreason => .pure hreason
  · exact gives_table.bind fun versions hversions => .pure hversions

end Message

/-- A message that is written is read back, whatever bytes follow. Parameters of a version are accepted in
their forms of two, three and four items, and refused where they, or the table around them, have another
length or an open one. A message that has been read from bytes in memory, whatever form it had there, is
read back when it is written again. -/
theorem decode_encode_eq :
    (∀ m : Message, m.IsWritable → ∀ more, Message.decode (m.encode ++ more) = .ok m) ∧
    (∀ input data rest, VersionData.decoder.run input = .ok (data, rest) ↔
      ∃ written, VersionData.WrittenAs written data ∧ input = written ++ rest) ∧
    (∀ input length rest, Cbor.readArray.run input = .ok (some length, rest) →
      length ∉ [2, 3, 4] → VersionData.decoder.run input = .error (.versionFields length)) ∧
    (∀ input rest, Cbor.readArray.run input = .ok (none, rest) →
      VersionData.decoder.run input = .error .openVersionData) ∧
    (∀ input rest, Cbor.readMap.run input = .ok (none, rest) →
      tableDecoder.run input = .error .openVersionTable) ∧
    (∀ (bytes : Bytes) (m : Message), bytes.length < UInt64.size → Message.decode bytes = .ok m →
      Message.decode m.encode = .ok m) := by
  have hwritten (m : Message) (hm : m.IsWritable) (more : Bytes) :
      Message.decode (m.encode ++ more) = .ok m :=
    (Message.reads_encode hm).value_eq more
  refine ⟨hwritten, fun _ _ _ => VersionData.run_decoder_iff,
    fun _ _ _ => VersionData.run_decoder_of_length, fun _ _ => VersionData.run_decoder_of_open,
    fun _ _ => run_tableDecoder_of_open, fun bytes m hbytes hread => ?_⟩
  have hagain := hwritten m (Message.gives_decoder.of_value hbytes hread) []
  rwa [List.append_nil] at hagain

/-- A table of two versions is followed by another byte, an acceptance with two parameters has been read,
and arrays of five items and of open length, and a table of open length, are refused. -/
theorem decode_encode_eq_sample :
    let table : List VersionEntry := [(13, ⟨2, false, 1, true⟩), (14, ⟨2, true, 0, false⟩)]
    Message.decode ((Message.proposeVersions table).encode ++ [0]) = .ok (.proposeVersions table) ∧
      VersionData.WrittenAs [0x82, 0x18, 0x02, 0xF5] ⟨2, true, 0, false⟩ ∧
      VersionData.decoder.run [0x85, 0x02, 0xF5, 0x00, 0xF4, 0x00] = .error (.versionFields 5) ∧
      VersionData.decoder.run [0x9F, 0x02, 0xF5, 0xFF] = .error .openVersionData ∧
      tableDecoder.run [0xBF, 0xFF] = .error .openVersionTable ∧
      Message.decode [0x83, 0x01, 0x0D, 0x82, 0x18, 0x02, 0xF5]
        = .ok (.acceptVersion 13 ⟨2, true, 0, false⟩) ∧
      Message.decode (Message.acceptVersion 13 ⟨2, true, 0, false⟩).encode
        = .ok (.acceptVersion 13 ⟨2, true, 0, false⟩) := by
  intro table
  have htable : (Message.proposeVersions table).IsWritable := show 2 < UInt64.size by decide
  have haccepted : Message.decode [0x83, 0x01, 0x0D, 0x82, 0x18, 0x02, 0xF5]
      = .ok (.acceptVersion 13 ⟨2, true, 0, false⟩) := rfl
  obtain ⟨hwritten, hforms, hlength, hopen, hopenTable, hagain⟩ := decode_encode_eq
  obtain ⟨written, hform, hbytes⟩ :=
    (hforms [0x82, 0x18, 0x02, 0xF5] ⟨2, true, 0, false⟩ []).mp rfl
  rw [List.append_nil] at hbytes
  exact ⟨hwritten _ htable [0], hbytes ▸ hform, hlength _ _ _ rfl (by decide), hopen _ _ rfl,
    hopenTable _ _ rfl, haccepted, hagain _ _ (by decide) haccepted⟩

end BlockFeed.Handshake
