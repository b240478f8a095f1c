import BlockFeed.Proofs.Cbor.WellFormed
import BlockFeed.Proofs.Wire.Handshake
import BlockFeed.Proofs.Wire.Splitting

/-!
# Messages that tell where they end

Every message that is written is a well-formed item, so it can be told from its own bytes where it ends:
whatever follows, it is recognised at its length, and no proper beginning of it is taken for an item
(`Cbor.IsDelimited`). Messages that are written one after the other are therefore received one by one, however
their bytes are cut into payloads and whenever the calls for them are made (`Channel.Delivers`).

The header of a roll-forward is written as it is given. It has to be well formed, and arrays and maps in it
have to tell their length; every other item is written by us.

The main result is `delimited_messages`, on the messages of all three mini-protocols.
-/

namespace BlockFeed

open Cbor (WellFormed IsItem itemLength?)

/-! ## Items that are written -/

namespace Cbor

/-- A number of well-formed items, one after the other. -/
inductive AreItems : Nat → Bytes → Prop where
  | nil : AreItems 0 []
  | cons {count : Nat} {item more : Bytes} (hitem : WellFormed item) (hmore : AreItems count more) :
      AreItems (count + 1) (item ++ more)

namespace AreItems

variable {count count' : Nat} {bytes bytes' : Bytes}

theorem one (h : WellFormed bytes) : AreItems 1 bytes := by
  have hone := cons h nil
  rwa [List.append_nil] at hone

theorem append (h : AreItems count bytes) (h' : AreItems count' bytes') :
    AreItems (count' + count) (bytes ++ bytes') := by
  induction h with
  | nil => exact h'
  | cons hitem _ ih =>
    rw [List.append_assoc]
    exact .cons hitem ih

/-- What is written of the elements of a list, each of which is a number of items. -/
theorem flatMap {α : Type} {write : α → Bytes} {list : List α}
    (h : ∀ a ∈ list, AreItems count (write a)) :
    AreItems (count * list.length) (list.flatMap write) := by
  induction list with
  | nil => exact .nil
  | cons a rest ih =>
    rw [List.forall_mem_cons] at h
    exact h.1.append (ih h.2)

theorem exists_list (h : AreItems count bytes) :
    ∃ items : List Bytes, items.length = count ∧ items.flatten = bytes ∧
      ∀ item ∈ items, WellFormed item := by
  induction h with
  | nil => exact ⟨[], rfl, rfl, nofun⟩
  | cons hitem _ ih =>
    obtain ⟨items, rfl, rfl, hitems⟩ := ih
    exact ⟨_ :: items, rfl, rfl, List.forall_mem_cons.mpr ⟨hitem, hitems⟩⟩

/-- The items of an array, behind its head. -/
theorem array (hcount : count < UInt64.size) (h : AreItems count bytes) :
    WellFormed (Cbor.array count ++ bytes) := by
  obtain ⟨items, hlength, rfl, hitems⟩ := h.exists_list
  exact .array (isHead_head 4 _) (hlength.trans (UInt64.toNat_ofNat_of_lt' hcount).symm) hitems

/-- The keys and values of a map, behind its head. -/
theorem map (hcount : count < UInt64.size) (h : AreItems (2 * count) bytes) :
    WellFormed (Cbor.map count ++ bytes) := by
  obtain ⟨items, hlength, rfl, hitems⟩ := h.exists_list
  exact .map (isHead_head 5 _) (by rwa [UInt64.toNat_ofNat_of_lt' hcount]) hitems

end AreItems

theorem wellFormed_uint (n : UInt64) : WellFormed (uint n) :=
  .integer (by decide) (isHead_head 0 n)

theorem wellFormed_bool (b : Bool) : WellFormed (bool b) := by
  cases b with
  | false => exact .simple (.short (n := 20) (by decide))
  | true => exact .simple (.short (n := 21) (by decide))

theorem wellFormed_bytes {content : Bytes} (h : content.length < UInt64.size) :
    WellFormed (Cbor.bytes content) :=
  .bytes (.whole (.intro (isHead_head 2 _) (UInt64.toNat_ofNat_of_lt' h) rfl))

theorem wellFormed_text {content : String} (h : (Bytes.ofText content).length < UInt64.size) :
    WellFormed (Cbor.text content) := by
  refine .text (.whole (.intro (isHead_head 3 _) (UInt64.toNat_ofNat_of_lt' h) ?_))
  rw [isText, Bytes.toText?_ofText]
  rfl

/-- What is written of the elements of a list, as an array. -/
theorem wellFormed_list {α : Type} {write : α → Bytes} {list : List α}
    (hlength : list.length < UInt64.size) (h : ∀ a ∈ list, WellFormed (write a)) :
    WellFormed (array list.length ++ list.flatMap write) := by
  have hitems := AreItems.flatMap fun a ha => .one (h a ha)
  rw [Nat.one_mul] at hitems
  exact hitems.array hlength

/-- Bytes tell where they end: they are recognised whatever follows them, and a proper beginning of them is
incomplete. -/
structure IsDelimited (bytes : Bytes) : Prop where
  whole : ∀ more, itemLength? (bytes ++ more) = .ok (some bytes.length)
  front : ∀ front back, bytes = front ++ back → back ≠ [] → itemLength? front = .ok none

theorem WellFormed.isDelimited {bytes : Bytes} (h : WellFormed bytes) : IsDelimited bytes where
  whole := h.isItem.itemLength?_append
  front front back hbytes hback := by
    have hitem := h.isItem
    rw [hbytes] at hitem
    exact hitem.itemLength?_of_front hback

end Cbor

open Cbor (AreItems wellFormed_uint wellFormed_bool wellFormed_bytes wellFormed_text wellFormed_list)

/-! ## Points and tips -/

theorem Point.wellFormed_encode (p : Point) : WellFormed p.encode := by
  rw [encode]
  split
  · exact AreItems.nil.array (by decide)
  · have hhash : p.hash.bytes.length < UInt64.size := by
      rw [p.hash.length_eq]
      decide
    rw [List.append_assoc]
    exact (AreItems.cons (wellFormed_uint _) (.one (wellFormed_bytes hhash))).array (by decide)

theorem Tip.wellFormed_encode (t : Tip) : WellFormed t.encode := by
  rw [encode, List.append_assoc]
  exact (AreItems.cons t.point.wellFormed_encode (.one (wellFormed_uint _))).array (by decide)

/-! ## Messages -/

/-- A message is an array whose first item is its number. -/
theorem wellFormed_numbered (number : UInt64) {count : Nat} {body : Bytes} (hcount : count < 3)
    (h : AreItems count body) :
    WellFormed (Cbor.array (count + 1) ++ (Cbor.uint number ++ body)) :=
  (AreItems.cons (wellFormed_uint number) h).array
    (Nat.lt_of_le_of_lt (Nat.succ_le_of_lt hcount) (by decide))

namespace ChainSync.Message

/-- The header of a message is well formed, and its list no longer than a word can count. -/
def IsWellFormed : Message → Prop
  | .rollForward header _ => WellFormed header
  | .findIntersect points => points.length < UInt64.size
  | _ => True

theorem IsWellFormed.isWritable {m : Message} (h : m.IsWellFormed) : m.IsWritable := by
  cases m with
  | rollForward header tip => exact WellFormed.isItem h
  | findIntersect points => exact h
  | _ => trivial

theorem wellFormed_encode {m : Message} (h : m.IsWellFormed) : WellFormed m.encode := by
  cases m with
  | requestNext => exact wellFormed_numbered 0 (by decide) .nil
  | awaitReply => exact wellFormed_numbered 1 (by decide) .nil
  | rollForward header tip =>
    simp only [encode, List.append_assoc]
    exact wellFormed_numbered 2 (by decide) (.cons h (.one tip.wellFormed_encode))
  | rollBackward point tip =>
    simp only [encode, List.append_assoc]
    exact wellFormed_numbered 3 (by decide) (.cons point.wellFormed_encode (.one tip.wellFormed_encode))
  | findIntersect points =>
    simp only [encode, List.append_assoc]
    exact wellFormed_numbered 4 (by decide)
      (.one (wellFormed_list h fun point _ => point.wellFormed_encode))
  | intersectFound point tip =>
    simp only [encode, List.append_assoc]
    exact wellFormed_numbered 5 (by decide) (.cons point.wellFormed_encode (.one tip.wellFormed_encode))
  | intersectNotFound tip =>
    simp only [encode, List.append_assoc]
    exact wellFormed_numbered 6 (by decide) (.one tip.wellFormed_encode)
  | done => exact wellFormed_numbered 7 (by decide) .nil

end ChainSync.Message

theorem BlockFetch.Message.wellFormed_encode {m : BlockFetch.Message} (h : m.IsWritable) :
    WellFormed m.encode := by
  cases m with
  | requestRange first last =>
    simp only [encode, List.append_assoc]
    exact wellFormed_numbered 0 (by decide)
      (.cons first.wellFormed_encode (.one last.wellFormed_encode))
  | clientDone => exact wellFormed_numbered 1 (by decide) .nil
  | startBatch => exact wellFormed_numbered 2 (by decide) .nil
  | noBlocks => exact wellFormed_numbered 3 (by decide) .nil
  | block body =>
    simp only [encode, List.append_assoc]
    exact wellFormed_numbered 4 (by decide) (.one (.tag (Cbor.isHead_head 6 _) (wellFormed_bytes h)))
  | batchDone => exact wellFormed_numbered 5 (by decide) .nil

namespace Handshake

theorem VersionData.wellFormed_encode (d : VersionData) : WellFormed d.encode := by
  simp only [encode, List.append_assoc]
  exact (AreItems.cons (wellFormed_uint _) (.cons (wellFormed_bool _)
    (.cons (wellFormed_uint _) (.one (wellFormed_bool _))))).array (by decide)

theorem wellFormed_encodeTable {versions : List VersionEntry} (h : versions.length < UInt64.size) :
    WellFormed (encodeTable versions) :=
  AreItems.map h <| .flatMap fun entry _ =>
    .cons (wellFormed_uint entry.1) (.one entry.2.wellFormed_encode)

theorem RefuseReason.wellFormed_encode {reason : RefuseReason} (h : reason.IsWritable) :
    WellFormed reason.encode := by
  cases reason with
  | versionMismatch versions =>
    simp only [encode, List.append_assoc]
    exact wellFormed_numbered 0 (by decide) (.one (wellFormed_list h fun version _ => wellFormed_uint version))
  | decodeError version text =>
    simp only [encode, List.append_assoc]
    exact wellFormed_numbered 1 (by decide) (.cons (wellFormed_uint version) (.one (wellFormed_text h)))
  | refused version text =>
    simp only [encode, List.append_assoc]
    exact wellFormed_numbered 2 (by decide) (.cons (wellFormed_uint version) (.one (wellFormed_text h)))

theorem Message.wellFormed_encode {m : Message} (h : m.IsWritable) : WellFormed m.encode := by
  cases m with
  | proposeVersions versions =>
    simp only [encode, List.append_assoc]
    exact wellFormed_numbered 0 (by decide) (.one (wellFormed_encodeTable h))
  | acceptVersion version data =>
    simp only [encode, List.append_assoc]
    exact wellFormed_numbered 1 (by decide) (.cons (wellFormed_uint version) (.one data.wellFormed_encode))
  | refuse reason =>
    simp only [encode, List.append_assoc]
    exact wellFormed_numbered 2 (by decide) (.one (reason.wellFormed_encode h))
  | queryReply versions =>
    simp only [encode, List.append_assoc]
    exact wellFormed_numbered 3 (by decide) (.one (wellFormed_encodeTable h))

end Handshake

/-! ## Messages one after the other -/

/-- What is received, with a message read. -/
def Reception.read {α : Type} (decode : Bytes → Except DecodeError α) :
    Reception → Except Reception (Except DecodeError α)
  | .message bytes => .ok (decode bytes)
  | reception => .error reception

namespace Channel

variable {α : Type}

/-- Messages that are written one after the other are received one by one, each as what is kept of it,
however their bytes arrive and whenever the calls for them are made. After the last one the stream is over.
Calls before the peer has hung up may have to wait; every further one is answered. -/
def Delivers (encode : α → Bytes) (decode : Bytes → Except DecodeError α) (kept : α → α)
    (messages : List α) : Prop :=
  ∀ (moves : List Move) (further : Nat), arriving moves = messages.flatMap encode →
    ∃ early ≤ moves.count .call,
      (answers further moves {}).map (Reception.read decode)
        = (List.range (early + further)).map fun call =>
            (messages[call]?).elim (.error .closed) fun m => .ok (.ok (kept m))

theorem delivers {encode : α → Bytes} {decoder : Decoder α} {kept : α → α} {messages : List α}
    (hitems : ∀ m ∈ messages, WellFormed (encode m))
    (hreads : ∀ m ∈ messages, decoder.Reads (encode m) (kept m)) :
    Delivers encode decoder.value kept messages := by
  intro moves further hmoves
  have hyields : Yields (messages.flatMap encode) (messages.map encode) .closed :=
    .flatten (List.forall_mem_map.mpr fun m hm => (hitems m hm).isItem)
  obtain ⟨early, hearly, hanswers⟩ := hyields.answered moves further hmoves
  refine ⟨early, hearly, ?_⟩
  rw [hanswers, successive, List.map_map]
  refine List.map_congr_left fun call _ => ?_
  rw [Function.comp_apply, List.getElem?_map]
  cases hmessage : messages[call]? with
  | none => rfl
  | some m =>
    have hread := (hreads m (List.mem_of_getElem? hmessage)).value_eq []
    rw [List.append_nil] at hread
    exact congrArg Except.ok hread

end Channel

/-- A message is recognised at its own length whatever follows it, and no proper beginning of it is taken
for an item. Messages of one protocol that are written one after the other are received as they are, or as
the wire keeps them, however their bytes are cut. -/
theorem delimited_messages :
    (∀ m : Handshake.Message, m.IsWritable → Cbor.IsDelimited m.encode) ∧
    (∀ m : BlockFetch.Message, m.IsWritable → Cbor.IsDelimited m.encode) ∧
    (∀ m : ChainSync.Message, m.IsWellFormed → Cbor.IsDelimited m.encode) ∧
    (∀ messages : List Handshake.Message, (∀ m ∈ messages, m.IsWritable) →
      Channel.Delivers Handshake.Message.encode Handshake.Message.decode id messages) ∧
    (∀ messages : List BlockFetch.Message, (∀ m ∈ messages, m.IsWritable) →
      Channel.Delivers BlockFetch.Message.encode BlockFetch.Message.decode
        BlockFetch.Message.normalize messages) ∧
    (∀ messages : List ChainSync.Message, (∀ m ∈ messages, m.IsWellFormed) →
      Channel.Delivers ChainSync.Message.encode ChainSync.Message.decode
        ChainSync.Message.normalize messages) := by
  refine ⟨fun m h => (m.wellFormed_encode h).isDelimited, fun m h => (m.wellFormed_encode h).isDelimited,
    fun m h => (m.wellFormed_encode h).isDelimited, fun messages h => ?_, fun messages h => ?_,
    fun messages h => ?_⟩
  · exact Channel.delivers (fun m hm => m.wellFormed_encode (h m hm)) fun m hm => m.reads_encode (h m hm)
  · exact Channel.delivers (fun m hm => m.wellFormed_encode (h m hm)) fun m hm => m.reads_encode (h m hm)
  · exact Channel.delivers (fun m hm => m.wellFormed_encode (h m hm)) fun m hm =>
      m.reads_encode (h m hm).isWritable

/-- A header with a tag and a byte string in it. -/
theorem wellFormed_header : WellFormed [0x82, 0x06, 0xD8, 0x18, 0x41, 0x00] := by
  have htag : WellFormed (Cbor.tag 24 ++ Cbor.bytes [0x00]) :=
    .tag (Cbor.isHead_head 6 24) (wellFormed_bytes (by decide))
  exact (AreItems.cons (wellFormed_uint 6) (.one htag)).array (by decide)

/-- A table of versions is followed by another byte, a block is cut before its last one, and a roll-forward
is cut within its header, where a call waits for it. -/
theorem delimited_messages_sample :
    let proposal : Handshake.Message := .proposeVersions [(13, ⟨2, false, 1, true⟩)]
    let block : BlockFetch.Message := .block [0x2A]
    let forward : ChainSync.Message := .rollForward [0x82, 0x06, 0xD8, 0x18, 0x41, 0x00] ⟨⟨7, .zero⟩, 3⟩
    let moves : List Channel.Move := [.arrival [0x83, 0x02, 0x82], .call, .arrival [],
      .arrival [0x06, 0xD8, 0x18, 0x41, 0x00, 0x82, 0x80, 0x03, 0x81], .call, .arrival [0x01]]
    itemLength? (proposal.encode ++ [0xFF]) = .ok (some 9) ∧
      itemLength? [0x82, 0x04, 0xD8, 0x18, 0x41] = .ok none ∧
      itemLength? (forward.encode ++ [0x00]) = .ok (some 11) ∧
      Channel.Delivers Handshake.Message.encode Handshake.Message.decode id [proposal] ∧
      Channel.Delivers BlockFetch.Message.encode BlockFetch.Message.decode BlockFetch.Message.normalize
        [block, block] ∧
      ∃ early ≤ 2, (Channel.answers 2 moves {}).map (Reception.read ChainSync.Message.decode)
        = (List.range (early + 2)).map fun call =>
            ([forward, .awaitReply][call]?).elim (.error .closed) fun m => .ok (.ok m.normalize) := by
  intro proposal block forward moves
  have hproposal : proposal.IsWritable := show 1 < UInt64.size by decide
  have hblock : block.IsWritable := show 1 < UInt64.size by decide
  obtain ⟨hhandshake, hblocks, hchain, hproposals, hbatch, hsync⟩ := delimited_messages
  exact ⟨(hhandshake proposal hproposal).whole [0xFF], (hblocks block hblock).front _ [0x2A] rfl nofun,
    (hchain forward wellFormed_header).whole [0x00], hproposals [proposal] (by simpa using hproposal),
    hbatch [block, block] (by simpa using hblock),
    hsync [forward, .awaitReply] (by simpa using ⟨wellFormed_header, trivial⟩) moves 2 rfl⟩

end BlockFeed
