import BlockFeed.Chain.Header
import BlockFeed.Proofs.Cbor.Exact

/-!
# Two views of a header

The same header reaches the feed in two ways: chain-sync delivers it as a byte string beside the number of
its era (`Wraps`), and block-fetch as the first part of a block (`Leads`). Both views come to the same
header or the same failure (`ofWrapped_eq_ofBlock`), since both find the very bytes of the header, and what
is read of these depends on nothing else.

A byte string says how long it is. A block does not say where its header ends: there the end is found by
skipping one item, so the header has to be exactly one (`Leads.ofBlock_eq`).

Nodes are free to write lengths and numbers in any width and to leave the lengths of arrays open. The
forms below admit all of that.
-/

namespace BlockFeed.Header

open Cbor (IsHead IsArrayHead IsItem)
open Cbor.Reader (Reads)

/-! ## Forms -/

/-- Bytes begin with the pair of an era and a header that is embedded as a byte string. -/
inductive Wraps (era : UInt64) (header : Bytes) : Bytes → Prop where
  | intro {pair number tag string : Bytes} {length : UInt64} (more : Bytes) (hpair : IsArrayHead pair)
      (hnumber : IsHead 0 era number) (htag : IsHead 6 24 tag) (hstring : IsHead 2 length string)
      (hlength : length.toNat = header.length) :
      Wraps era header (pair ++ (number ++ (tag ++ (string ++ (header ++ more)))))

/-- Bytes begin with the pair of an era and an array whose first element is the header. -/
inductive Leads (era : UInt64) (header : Bytes) : Bytes → Prop where
  | intro {pair number parts : Bytes} (more : Bytes) (hpair : IsArrayHead pair)
      (hnumber : IsHead 0 era number) (hparts : IsArrayHead parts) :
      Leads era header (pair ++ (number ++ (parts ++ (header ++ more))))

/-- The bytes in which the previous block is named: its hash as a byte string, or null. -/
inductive NamesParent : Option BlockHash → Bytes → Prop where
  | first : NamesParent none [0xF6]
  | after {string : Bytes} (hash : BlockHash) (hstring : IsHead 2 32 string) :
      NamesParent (some hash) (string ++ hash.bytes)

/-- Bytes begin an array with an array that begins with a height, a slot and the previous block. -/
inductive Carries (height slot : UInt64) (parent : Option BlockHash) : Bytes → Prop where
  | intro {outer body number position previous : Bytes} (more : Bytes) (houter : IsArrayHead outer)
      (hbody : IsArrayHead body) (hnumber : IsHead 0 height number) (hposition : IsHead 0 slot position)
      (hprevious : NamesParent parent previous) :
      Carries height slot parent (outer ++ (body ++ (number ++ (position ++ (previous ++ more)))))

/-! ## What is read -/

/-- The length of an array is not asked for. -/
theorem reads_afterArray {α : Type} {f : Option UInt64 → Cbor.Reader HeaderError α} {head back : Bytes}
    {a : α} (h : IsArrayHead head) (hf : ∀ length, (f length).Reads back a) :
    (item Cbor.readArray >>= f).Reads (head ++ back) a := by
  obtain ⟨length, hlength⟩ := h.exists_reads
  exact (hlength.mapError _).bind (hf length)

theorem reads_number {n : UInt64} {bytes : Bytes} (h : IsHead 0 n bytes) :
    (item Cbor.readUInt).Reads bytes n :=
  (h.reads (by decide)).mapError _

theorem NamesParent.reads {parent : Option BlockHash} {bytes : Bytes} (h : NamesParent parent bytes) :
    parentReader.Reads bytes parent := by
  intro more
  cases h with
  | first => rfl
  | @after string hash hstring =>
    have hbytes : (item Cbor.readBytes).Reads (string ++ hash.bytes) hash.bytes :=
      (hstring.reads_content (by decide) (by rw [hash.length_eq]; rfl)).mapError _
    -- the head of a byte string does not begin with the byte of null
    obtain ⟨info, body, hinfo, rfl, -⟩ := hstring.exists_argument
    have hnull : UInt8.ofNat (32 * 2 + info) ≠ 0xF6 := by
      intro heq
      have hvalue := congrArg UInt8.toNat heq
      rw [UInt8.toNat_ofNat'] at hvalue
      simp at hvalue
      omega
    have hpeek : (item Cbor.peek).run (UInt8.ofNat (32 * 2 + info) :: body ++ hash.bytes ++ more)
        = .ok (UInt8.ofNat (32 * 2 + info), UInt8.ofNat (32 * 2 + info) :: body ++ hash.bytes ++ more) :=
      rfl
    rw [parentReader, Cbor.Reader.run_bind, hpeek]
    dsimp only
    rw [if_neg hnull, Cbor.Reader.run_bind, hbytes more]
    dsimp only
    rw [BlockHash.ofBytes?_bytes]
    rfl

/-- Height, slot and previous block are read from a header that carries them, whatever else is in it. -/
theorem Carries.ofBytes_eq {height slot : UInt64} {parent : Option BlockHash} {header : Bytes}
    (h : Carries height slot parent header) :
    ofBytes header = .ok ⟨hashOf header, height, parent, slot⟩ := by
  cases h with
  | @intro outer body number position previous more houter hbody hnumber hposition hprevious =>
    have hfields : fieldsReader.Reads (outer ++ (body ++ (number ++ (position ++ previous))))
        (height, slot, parent) :=
      reads_afterArray houter fun _ => reads_afterArray hbody fun _ =>
        (reads_number hnumber).bind <| (reads_number hposition).bind <| hprevious.reads.map (.pure _)
    have hread := hfields.value_eq more
    simp only [List.append_assoc] at hread
    rw [ofBytes, hread]

/-- From a wrapped header that is not of the Byron era the bytes of the header are taken. -/
theorem Wraps.ofWrapped_eq {era : UInt64} {header wrapped : Bytes} (h : Wraps era header wrapped)
    (hera : 1 ≤ era) : ofWrapped wrapped = ofBytes header := by
  cases h with
  | @intro pair number tag string length more hpair hnumber htag hstring hlength =>
    have hunwrap : unwrapReader.Reads (pair ++ (number ++ (tag ++ (string ++ header)))) header := by
      refine reads_afterArray hpair fun _ => (reads_number hnumber).bind ?_
      rw [if_neg (by rintro rfl; exact absurd hera (by decide))]
      refine ((htag.reads (by decide)).mapError _).bind ?_
      rw [if_neg (by simp [embeddedTag])]
      exact (hstring.reads_content (by decide) hlength).mapError _
    have hread := hunwrap.value_eq more
    simp only [List.append_assoc] at hread
    rw [ofWrapped, hread]
    rfl

/-- From a block that is not of the Byron era the first item of its array is taken. -/
theorem Leads.ofBlock_eq {era : UInt64} {header block : Bytes} (h : Leads era header block)
    (hera : 2 ≤ era) (hitem : IsItem header) : ofBlock block = ofBytes header := by
  cases h with
  | @intro pair number parts more hpair hnumber hparts =>
    have hfirst : ofBlockReader.Reads (pair ++ (number ++ (parts ++ header))) header := by
      refine reads_afterArray hpair fun _ => (reads_number hnumber).bind ?_
      have hlate : ¬era ≤ lastByronEra := by
        rw [UInt64.le_iff_toNat_le] at hera ⊢
        simp [lastByronEra] at hera ⊢
        omega
      rw [if_neg hlate]
      exact reads_afterArray hparts fun _ => hitem.reads_rawItem.mapError _
    have hread := hfirst.value_eq more
    simp only [List.append_assoc] at hread
    rw [ofBlock, hread]
    rfl

/-- A header that is read is named by the hash of all its bytes. -/
theorem hash_of_ofBytes {headerBytes : Bytes} {header : Header} (h : ofBytes headerBytes = .ok header) :
    header.hash = hashOf headerBytes := by
  unfold ofBytes at h
  split at h
  · cases h
    rfl
  · cases h

/-! ## Both views -/

/-- A header that is one item is read alike from its wrapping and from a block, later than the Byron era:
with the same success, named by the hash of its bytes, or with the same failure. A height, a slot and a
previous block at its front are what is read of it, whatever follows them. -/
theorem ofWrapped_eq_ofBlock {variant era : UInt64} {header wrapped block : Bytes}
    (hvariant : 1 ≤ variant) (hera : 2 ≤ era) (hitem : IsItem header)
    (hwrapped : Wraps variant header wrapped) (hblock : Leads era header block) :
    ofWrapped wrapped = ofBlock block ∧
      (∀ found, ofWrapped wrapped = .ok found → found.hash = hashOf header) ∧
      ∀ height slot parent, Carries height slot parent header →
        ofWrapped wrapped = .ok ⟨hashOf header, height, parent, slot⟩ ∧
          ofBlock block = .ok ⟨hashOf header, height, parent, slot⟩ := by
  rw [hwrapped.ofWrapped_eq hvariant, hblock.ofBlock_eq hera hitem]
  refine ⟨rfl, fun found hfound => hash_of_ofBytes hfound, fun height slot parent hcarries => ?_⟩
  exact ⟨hcarries.ofBytes_eq, hcarries.ofBytes_eq⟩

/-- A header of height 10 in slot 500 without a previous block: `[[10, 500, null, h'09'], h'00']`. -/
def sampleBytes : Bytes := [0x82, 0x84, 0x0A, 0x19, 0x01, 0xF4, 0xF6, 0x41, 0x09, 0x41, 0x00]

/-- The wrapping writes its numbers in more bytes than needed, and the block leaves its length open. -/
theorem ofWrapped_eq_ofBlock_sample :
    Wraps 6 sampleBytes ([0x82, 0x18, 0x06, 0xD8, 0x18, 0x58, 0x0B] ++ sampleBytes) ∧
      Leads 7 sampleBytes ([0x9F, 0x07, 0x82] ++ sampleBytes ++ [0x80, 0xFF]) ∧
      IsItem sampleBytes ∧ Carries 10 500 none sampleBytes ∧
      ofWrapped ([0x82, 0x18, 0x06, 0xD8, 0x18, 0x58, 0x0B] ++ sampleBytes)
        = .ok ⟨hashOf sampleBytes, 10, none, 500⟩ ∧
      ofBlock ([0x9F, 0x07, 0x82] ++ sampleBytes ++ [0x80, 0xFF])
        = .ok ⟨hashOf sampleBytes, 10, none, 500⟩ := by
  have hpair : IsArrayHead [0x82] := .definite (.short (n := 2) (by decide))
  have hwraps : Wraps 6 sampleBytes ([0x82, 0x18, 0x06, 0xD8, 0x18, 0x58, 0x0B] ++ sampleBytes) :=
    .intro [] hpair (.wide 0 (by decide) (by decide)) (.wide 0 (by decide) (by decide))
      (.wide 0 (by decide) (by decide) : IsHead 2 11 [0x58, 0x0B]) (by decide)
  have hleads : Leads 7 sampleBytes ([0x9F, 0x07, 0x82] ++ sampleBytes ++ [0x80, 0xFF]) :=
    .intro [0x80, 0xFF] .endless (.short (by decide)) hpair
  have hitem : IsItem sampleBytes := ⟨by decide, rfl⟩
  have hcarries : Carries 10 500 none sampleBytes :=
    .intro [0x41, 0x09, 0x41, 0x00] hpair (.definite (.short (n := 4) (by decide)))
      (.short (by decide)) (.wide 1 (by decide) (by decide)) .first
  obtain ⟨-, -, hfields⟩ := ofWrapped_eq_ofBlock (by decide) (by decide) hitem hwraps hleads
  exact ⟨hwraps, hleads, hitem, hcarries, hfields 10 500 none hcarries⟩

end BlockFeed.Header
