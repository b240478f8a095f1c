import BlockFeed.Proofs.Cbor.Gives
import BlockFeed.Wire.BlockFetch
import BlockFeed.Wire.ChainSync

/-!
# Messages are read back

What is written of a point is read back as the point that the wire keeps of it, where every form of the
origin has become the same (`Point.reads_encode`), and so are tips and the messages of chain-sync and
block-fetch, whatever bytes follow (`ChainSync.Message.reads_encode`, `BlockFetch.Message.reads_encode`).

A message can be written if its lists and strings are no longer than a word can count, and if the header
in it is one item (`IsWritable`). The messages that are read from bytes in memory are of that kind,
although they may have been written in other ways than ours (`ChainSync.Message.gives_decoder`,
`BlockFetch.Message.gives_decoder`), so what has been read can be passed on (`Message.decode_encode`).
-/

namespace BlockFeed

open Cbor (IsItem)
open Cbor.Reader (Reads Gives)

/-! ## Points and tips -/

/-- What is written of a point is read back as what the wire keeps of it. -/
theorem Point.reads_encode (p : Point) : Point.decoder.Reads p.encode p.normalize := by
  rw [encode, normalize]
  split
  · exact ((Cbor.reads_array 0).mapError _).map (.pure _)
  · rw [List.append_assoc]
    refine ((Cbor.reads_array 2).mapError _).bind (((Cbor.reads_uint _).mapError _).bind ?_)
    have hlength : p.hash.bytes.length < UInt64.size := by
      rw [p.hash.length_eq]
      decide
    refine ((Cbor.reads_bytes hlength).mapError _).map ?_
    rw [BlockHash.ofBytes?_bytes]
    exact .pure _

/-- What is written of a tip is read back as what the wire keeps of it. -/
theorem Tip.reads_encode (t : Tip) : Tip.decoder.Reads t.encode t.normalize := by
  rw [encode, List.append_assoc]
  exact ((Cbor.reads_array 2).mapError _).bind
    (t.point.reads_encode.bind (((Cbor.reads_uint _).mapError _).map (.pure _)))

theorem Point.gives_decoder : Point.decoder.Gives fun _ => True := by
  refine ((Cbor.exact_lengthOf 4).gives.mapError _).bind fun length _ => ?_
  split
  · exact .pure trivial
  · refine (Cbor.exact_uint.gives.mapError _).bind fun slot _ =>
      (Cbor.gives_bytes.mapError _).bind fun bytes _ => ?_
    split
    · exact .pure trivial
    · exact .fail _
  · exact .fail _

theorem Tip.gives_decoder : Tip.decoder.Gives fun _ => True := by
  refine ((Cbor.exact_lengthOf 4).gives.mapError _).bind fun length _ => ?_
  split
  · exact Point.gives_decoder.bind fun point _ =>
      (Cbor.exact_uint.gives.mapError _).bind fun number _ => .pure trivial
  · exact .fail _

/-! ## Numbered messages -/

section Numbered

variable {α : Type} {f : UInt8 → Decoder α}

/-- The number of a message is read back, and then what comes after it. -/
theorem reads_numbered (length : Nat) (number : UInt8) {body : Bytes} {a : α}
    (h : (f number).Reads body a) :
    Reads (do
      let _ ← Cbor.readArray.lift
      let number ← Cbor.readUInt8.lift
      f number) (Cbor.array length ++ (Cbor.uint number.toUInt64 ++ body)) a :=
  ((Cbor.reads_array length).mapError _).bind (((Cbor.reads_uint8 number).mapError _).bind h)

/-- What a message can be is a matter of what comes after its number. -/
theorem gives_numbered {p : α → Prop} (h : ∀ number, (f number).Gives p) :
    Gives (do
      let _ ← Cbor.readArray.lift
      let number ← Cbor.readUInt8.lift
      f number) p :=
  ((Cbor.exact_lengthOf 4).gives.mapError _).bind fun _ _ =>
    (Cbor.exact_uint8.gives.mapError _).bind fun number _ => h number

end Numbered

/-! ## Chain-sync -/

namespace ChainSync.Message

/-- A message can be written: its header is one item, and its list no longer than a word can count. -/
def IsWritable : Message → Prop
  | .rollForward header _ => IsItem header
  | .findIntersect points => points.length < UInt64.size
  | _ => True

theorem reads_pointAndTip (build : Point → Tip → Message) (point : Point) (tip : Tip) :
    (pointAndTip build).Reads (point.encode ++ tip.encode)
      (build point.normalize tip.normalize) :=
  point.reads_encode.bind (tip.reads_encode.map (.pure _))

/-- What is written of a message is read back as what the wire keeps of it. -/
theorem reads_encode {m : Message} (h : m.IsWritable) : decoder.Reads m.encode m.normalize := by
  cases m with
  | requestNext => exact reads_numbered 1 0 (.pure _)
  | awaitReply => exact reads_numbered 1 1 (.pure _)
  | rollForward header tip =>
    simp only [encode, List.append_assoc]
    exact reads_numbered 3 2
      ((IsItem.reads_rawItem h).mapError _ |>.bind (tip.reads_encode.map (.pure _)))
  | rollBackward point tip =>
    simp only [encode, List.append_assoc]
    exact reads_numbered 3 3 (reads_pointAndTip _ point tip)
  | findIntersect points =>
    simp only [encode, List.append_assoc]
    exact reads_numbered 2 4
      ((Reads.elements h fun point _ => point.reads_encode).map (.pure _))
  | intersectFound point tip =>
    simp only [encode, List.append_assoc]
    exact reads_numbered 3 5 (reads_pointAndTip _ point tip)
  | intersectNotFound tip =>
    simp only [encode, List.append_assoc]
    exact reads_numbered 2 6 (tip.reads_encode.map (.pure _))
  | done => exact reads_numbered 1 7 (.pure _)

theorem gives_pointAndTip {build : Point → Tip → Message}
    (h : ∀ point tip, (build point tip).IsWritable) : (pointAndTip build).Gives IsWritable :=
  Point.gives_decoder.bind fun point _ => Tip.gives_decoder.bind fun tip _ => .pure (h point tip)

/-- What is read can be written. -/
theorem gives_decoder : decoder.Gives IsWritable := by
  refine gives_numbered fun number => .ite ?_ <| .ite ?_ <| .ite ?_ <| .ite ?_ <| .ite ?_ <|
    .ite ?_ <| .ite ?_ <| .ite ?_ (.fail _)
  · exact .pure trivial
  · exact .pure trivial
  · exact (Cbor.gives_rawItem.mapError _).bind fun header hheader =>
      Tip.gives_decoder.bind fun tip _ => .pure hheader
  · exact gives_pointAndTip fun _ _ => trivial
  · exact (Point.gives_decoder.elements).bind fun points hpoints => .pure hpoints.1
  · exact gives_pointAndTip fun _ _ => trivial
  · exact Tip.gives_decoder.bind fun tip _ => .pure trivial
  · exact .pure trivial

end ChainSync.Message

/-! ## Block-fetch -/

namespace BlockFetch.Message

/-- A message can be written: its block is no longer than a word can count. -/
def IsWritable : Message → Prop
  | .block body => body.length < UInt64.size
  | _ => True

/-- What is written of a message is read back as what the wire keeps of it. -/
theorem reads_encode {m : Message} (h : m.IsWritable) : decoder.Reads m.encode m.normalize := by
  cases m with
  | requestRange first last =>
    simp only [encode, List.append_assoc]
    exact reads_numbered 3 0 (first.reads_encode.bind (last.reads_encode.map (.pure _)))
  | clientDone => exact reads_numbered 1 1 (.pure _)
  | startBatch => exact reads_numbered 1 2 (.pure _)
  | noBlocks => exact reads_numbered 1 3 (.pure _)
  | block body =>
    simp only [encode, List.append_assoc]
    have hblock : blockDecoder.Reads (Cbor.tag embeddedTag ++ Cbor.bytes body) body :=
      ((Cbor.reads_tag embeddedTag).mapError _).bind ((Cbor.reads_bytes h).mapError _)
    exact reads_numbered 2 4 (hblock.map (.pure _))
  | batchDone => exact reads_numbered 1 5 (.pure _)

/-- What is read can be written. -/
theorem gives_decoder : decoder.Gives IsWritable := by
  have hblock : blockDecoder.Gives fun body => body.length < UInt64.size :=
    (Cbor.exact_tag.gives.mapError _).bind fun number _ => .ite (.fail _) (Cbor.gives_bytes.mapError _)
  refine gives_numbered fun number => .ite ?_ <| .ite ?_ <| .ite ?_ <| .ite ?_ <| .ite ?_ <|
    .ite ?_ (.fail _)
  · exact Point.gives_decoder.bind fun first _ => Point.gives_decoder.bind fun last _ => .pure trivial
  · exact .pure trivial
  · exact .pure trivial
  · exact .pure trivial
  · exact hblock.bind fun body hbody => .pure hbody
  · exact .pure trivial

end BlockFetch.Message

/-! ## What has been written or read -/

/-- A message that is written is read back as the wire keeps it, whatever bytes follow. A message that
has been read from bytes in memory, however it was written there, can be written again, and is read back
as the wire keeps it. -/
theorem decode_encode_eq_normalize :
    (∀ m : ChainSync.Message, m.IsWritable →
      ∀ more, ChainSync.Message.decode (m.encode ++ more) = .ok m.normalize) ∧
    (∀ m : BlockFetch.Message, m.IsWritable →
      ∀ more, BlockFetch.Message.decode (m.encode ++ more) = .ok m.normalize) ∧
    (∀ (bytes : Bytes) (m : ChainSync.Message), bytes.length < UInt64.size →
      ChainSync.Message.decode bytes = .ok m →
      ChainSync.Message.decode m.encode = .ok m.normalize) ∧
    (∀ (bytes : Bytes) (m : BlockFetch.Message), bytes.length < UInt64.size →
      BlockFetch.Message.decode bytes = .ok m →
      BlockFetch.Message.decode m.encode = .ok m.normalize) := by
  have hchain (m : ChainSync.Message) (hm : m.IsWritable) (more : Bytes) :
      ChainSync.Message.decode (m.encode ++ more) = .ok m.normalize :=
    (ChainSync.Message.reads_encode hm).value_eq more
  have hblock (m : BlockFetch.Message) (hm : m.IsWritable) (more : Bytes) :
      BlockFetch.Message.decode (m.encode ++ more) = .ok m.normalize :=
    (BlockFetch.Message.reads_encode hm).value_eq more
  refine ⟨hchain, hblock, fun bytes m hbytes hread => ?_, fun bytes m hbytes hread => ?_⟩
  · have hagain := hchain m (ChainSync.Message.gives_decoder.of_value hbytes hread) []
    rwa [List.append_nil] at hagain
  · have hagain := hblock m (BlockFetch.Message.gives_decoder.of_value hbytes hread) []
    rwa [List.append_nil] at hagain

/-- A roll-forward whose tip stands at a form of the origin is followed by other bytes, and a list of
points and a block have been read whose lengths are left open or written in more bytes than needed. -/
theorem decode_encode_eq_normalize_sample :
    ChainSync.Message.decode ((ChainSync.Message.rollForward [0x82, 0x06, 0xD8, 0x18, 0x41, 0x00]
          ⟨⟨7, .zero⟩, 3⟩).encode ++ [0xFF])
        = .ok (.rollForward [0x82, 0x06, 0xD8, 0x18, 0x41, 0x00] ⟨.origin, 3⟩) ∧
      BlockFetch.Message.decode ((BlockFetch.Message.requestRange ⟨5, .zero⟩ .origin).encode ++ [0])
        = .ok (.requestRange .origin .origin) ∧
      ChainSync.Message.decode [0x9F, 0x18, 0x04, 0x9F, 0x80, 0xFF]
        = .ok (.findIntersect [.origin]) ∧
      ChainSync.Message.decode (ChainSync.Message.findIntersect [.origin]).encode
        = .ok (.findIntersect [.origin]) ∧
      BlockFetch.Message.decode [0x82, 0x04, 0xD8, 0x18, 0x58, 0x01, 0x2A] = .ok (.block [0x2A]) ∧
      BlockFetch.Message.decode (BlockFetch.Message.block [0x2A]).encode = .ok (.block [0x2A]) := by
  have hpoints : ChainSync.Message.decode [0x9F, 0x18, 0x04, 0x9F, 0x80, 0xFF]
      = .ok (.findIntersect [.origin]) := rfl
  have hbody : BlockFetch.Message.decode [0x82, 0x04, 0xD8, 0x18, 0x58, 0x01, 0x2A]
      = .ok (.block [0x2A]) := rfl
  obtain ⟨hchain, hblock, hchainAgain, hblockAgain⟩ := decode_encode_eq_normalize
  exact ⟨hchain (.rollForward [0x82, 0x06, 0xD8, 0x18, 0x41, 0x00] ⟨⟨7, .zero⟩, 3⟩)
      ⟨by decide, rfl⟩ [0xFF], hblock (.requestRange ⟨5, .zero⟩ .origin) trivial [0], hpoints,
    hchainAgain _ _ (by decide) hpoints, hbody, hblockAgain _ _ (by decide) hbody⟩

end BlockFeed
