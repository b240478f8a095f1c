import BlockFeed.Node.Negotiation
import BlockFeed.Proofs.Node.Session
import BlockFeed.Proofs.Wire.Handshake

/-!
# Agreement on a version

A client goes on with a node only if the first item that the node sends on the handshake channel is an
acceptance of the spoken version on the network of the client. `acceptVersion_iff` tells which bytes are an
acceptance; everything else is a refusal, a stream that is over before its first item is complete among
it (`answer`). However the bytes of the node are cut, and whatever comes after its first item, the negotiation
ends with what that item is judged to be (`attend_negotiation`).

The main result is `agrees_iff_first_item`. The time that a negotiation may take is not part of it.
-/

namespace BlockFeed.Handshake

open Cbor (IsItem itemLength?)
open Multiplexer (Wrote attend payloadsOn)

/-! ## Acceptances -/

/-- Bytes begin with an acceptance: an array of any length, the number of the message, a version, and its
parameters in one of their forms. What comes after them is not looked at. -/
inductive IsAcceptance : Bytes → UInt64 → VersionData → Prop where
  | intro {head number spoken written rest : Bytes} {length : Option UInt64} {version : UInt64}
      {data : VersionData} (hhead : Cbor.readArray.Reads head length)
      (hnumber : Cbor.readUInt8.Reads number 1) (hversion : Cbor.readUInt.Reads spoken version)
      (hdata : VersionData.WrittenAs written data) :
      IsAcceptance (head ++ (number ++ (spoken ++ (written ++ rest)))) version data

theorem IsAcceptance.decode_eq {bytes : Bytes} {version : UInt64} {data : VersionData}
    (h : IsAcceptance bytes version data) : Message.decode bytes = .ok (.acceptVersion version data) := by
  cases h with
  | @intro head number spoken written rest length _ _ hhead hnumber hversion hdata =>
    have hreads : Message.decoder.Reads (head ++ (number ++ (spoken ++ written)))
        (.acceptVersion version data) :=
      (hhead.mapError _).bind <| (hnumber.mapError _).bind <| (hversion.mapError _).bind <|
        hdata.reads.map (.pure _)
    have hvalue := hreads.value_eq rest
    simp only [List.append_assoc] at hvalue
    exact hvalue

/-- What is read as an acceptance has that form. -/
theorem isAcceptance_of_decode {bytes : Bytes} {version : UInt64} {data : VersionData}
    (h : Message.decode bytes = .ok (.acceptVersion version data)) : IsAcceptance bytes version data := by
  obtain ⟨rest, hrun⟩ := Cbor.Reader.exists_run_of_value h
  obtain ⟨head, left, length, rfl, hhead, hrun⟩ := (Cbor.exact_lengthOf 4).exists_reads_of_bind hrun
  obtain ⟨number, left, kind, rfl, hnumber, hrun⟩ := Cbor.exact_uint8.exists_reads_of_bind hrun
  -- every other number leads to another message, or to none
  split at hrun
  · obtain ⟨_, hm, -⟩ := Cbor.Reader.exists_of_run_map hrun
    cases hm
  · split at hrun
    · rename_i hone
      obtain ⟨spoken, left, _, rfl, hspoken, hrun⟩ := Cbor.exact_uint.exists_reads_of_bind hrun
      obtain ⟨_, hm, hdata⟩ := Cbor.Reader.exists_of_run_map hrun
      cases hm
      obtain ⟨written, hwritten, rfl⟩ := VersionData.exists_writtenAs hdata
      exact .intro hhead (hone ▸ hnumber) hspoken hwritten
    · split at hrun
      · obtain ⟨_, hm, -⟩ := Cbor.Reader.exists_of_run_map hrun
        cases hm
      · split at hrun
        · obtain ⟨_, hm, -⟩ := Cbor.Reader.exists_of_run_map hrun
          cases hm
        · cases hrun

/-- The acceptances are these bytes and no others. -/
theorem acceptVersion_iff {bytes : Bytes} {version : UInt64} {data : VersionData} :
    Message.decode bytes = .ok (.acceptVersion version data) ↔ IsAcceptance bytes version data :=
  ⟨isAcceptance_of_decode, IsAcceptance.decode_eq⟩

/-! ## What a stream comes to -/

/-- What the bytes on the handshake channel come to: the judgement of their first item, or why there is
none. -/
def answer (magic : UInt64) (stream : Bytes) : Except ConnectionError UInt64 :=
  match itemLength? stream with
  | .ok (some length) => (judge magic (stream.take length)).mapError .handshakeRefused
  | .ok none => .error (.handshakeRefused (.noAnswer .closed))
  | .error fault => .error (.handshakeRefused (.noAnswer (.malformed .handshake fault)))

section Answers

variable {magic version : UInt64} {item stream : Bytes}

/-- What comes after the first item is not looked at. -/
theorem answer_append (h : IsItem item) (more : Bytes) :
    answer magic (item ++ more) = (judge magic item).mapError .handshakeRefused := by
  rw [answer, h.itemLength?_append]
  simp only [List.take_left]

/-- The judgement is favourable for an acceptance of the spoken version on the same network alone. -/
theorem judge_eq_ok_iff :
    judge magic item = .ok version ↔ version = spokenVersion ∧
      ∃ data, Message.decode item = .ok (.acceptVersion spokenVersion data) ∧ data.networkMagic = magic := by
  constructor
  · intro h
    rw [judge] at h
    split at h
    · cases h
    · rename_i accepted data hdecode
      split at h
      · cases h
      · rename_i hversion
        split at h
        · cases h
        · rename_i hmagic
          cases h
          rw [Decidable.not_not.mp hversion] at hdecode ⊢
          exact ⟨rfl, data, hdecode, Decidable.not_not.mp hmagic⟩
    · cases h
    · cases h
  · rintro ⟨rfl, data, hdecode, rfl⟩
    rw [judge, hdecode]
    simp only [ne_eq, not_true_eq_false, if_false]

theorem mapError_eq_ok_iff {ε ε' α : Type} {f : ε → ε'} {result : Except ε α} {a : α} :
    result.mapError f = .ok a ↔ result = .ok a := by
  cases result with
  | ok b =>
    have hsame : (Except.ok b : Except ε α).mapError f = .ok b := rfl
    rw [hsame, Except.ok.injEq, Except.ok.injEq]
  | error e => exact ⟨nofun, nofun⟩

/-- A stream comes to the spoken version exactly if its first item accepts that version on the same
network. -/
theorem answer_eq_ok_iff :
    answer magic stream = .ok version ↔ version = spokenVersion ∧
      ∃ item more data, stream = item ++ more ∧ IsItem item ∧
        Message.decode item = .ok (.acceptVersion spokenVersion data) ∧ data.networkMagic = magic := by
  constructor
  · intro h
    rcases Cbor.front_cases stream with ⟨item, more, rfl, hitem⟩ | hfront | ⟨fault, hfront⟩
    · rw [answer_append hitem, mapError_eq_ok_iff, judge_eq_ok_iff] at h
      obtain ⟨hversion, data, hdecode, hmagic⟩ := h
      exact ⟨hversion, item, more, data, rfl, hitem, hdecode, hmagic⟩
    · rw [answer, hfront] at h
      cases h
    · rw [answer, hfront] at h
      cases h
  · rintro ⟨hversion, item, more, data, rfl, hitem, hdecode, hmagic⟩
    rw [answer_append hitem, mapError_eq_ok_iff, judge_eq_ok_iff]
    exact ⟨hversion, data, hdecode, hmagic⟩

/-- Every failure is a refusal. -/
theorem exists_refusal_of_answer {error : ConnectionError} (h : answer magic stream = .error error) :
    ∃ refusal, error = .handshakeRefused refusal := by
  rw [answer] at h
  split at h
  · rename_i length _
    cases hjudge : judge magic (stream.take length) with
    | ok version =>
      rw [hjudge] at h
      cases h
    | error refusal =>
      rw [hjudge] at h
      cases h
      exact ⟨refusal, rfl⟩
  · cases h
    exact ⟨_, rfl⟩
  · cases h
    exact ⟨_, rfl⟩

end Answers

/-! ## The negotiation -/

section Negotiation

variable (magic : UInt64)

/-- The session of a negotiation takes the first message and ends. -/
theorem session_cons (failure : ConnectionError) (item : Bytes) (rest : List Bytes) :
    (negotiation magic).session failure (item :: rest) (negotiation magic).start
      = ⟨[(proposal magic).encode], [item], (judge magic item).mapError .handshakeRefused⟩ := by
  have hreaction : ((negotiation magic).react () item).leads
        = .ended ((judge magic item).mapError .handshakeRefused) ∧
      ((negotiation magic).react () item).sends = [] := by
    simp only [negotiation]
    cases judge magic item with
    | ok version => exact ⟨rfl, rfl⟩
    | error refusal => exact ⟨rfl, rfl⟩
  have hstart : (negotiation magic).start.leads = .waiting () := rfl
  rw [Exchange.session_cons hstart, Exchange.session_of_ended hreaction.1, hreaction.2]
  rfl

/-- A negotiation sends the proposal, and ends with what the stream on the handshake channel comes to,
whatever portions its bytes arrive in. -/
theorem attend_negotiation {m : Multiplexer} {held : Bytes} {portions messages : List Bytes} {last : Reception}
    (h : m.Offers .handshake held portions messages last) :
    ∃ after, attend (negotiation magic) portions (negotiation magic).start m
        = (.ended (answer magic (held
            ++ payloadsOn .handshake (Segment.parse (m.partialSegment ++ portions.flatten)).1)), after)
      ∧ Wrote .handshake [(proposal magic).encode] m after := by
  obtain ⟨after, hattend, hwrote⟩ := Multiplexer.attend_eq (negotiation magic) (negotiation magic).start h
  have hyields := h.yields
  generalize held ++ payloadsOn .handshake (Segment.parse (m.partialSegment ++ portions.flatten)).1 = stream
    at hyields
  have hwaits : (negotiation magic).start.leads = .waiting () := rfl
  refine ⟨after, ?_⟩
  rcases Cbor.front_cases stream with ⟨item, more, rfl, hitem⟩ | hfront | ⟨fault, hfront⟩
  · obtain ⟨rest, rfl, -⟩ := hyields.of_isItem hitem
    rw [session_cons] at hattend hwrote
    rw [answer_append hitem]
    exact ⟨hattend, hwrote⟩
  · obtain ⟨rfl, rfl⟩ := hyields.of_none hfront
    rw [Exchange.session_nil hwaits] at hattend hwrote
    rw [answer, hfront]
    exact ⟨hattend, hwrote⟩
  · obtain ⟨rfl, rfl⟩ := hyields.of_error hfront
    rw [Exchange.session_nil hwaits] at hattend hwrote
    rw [answer, hfront]
    exact ⟨hattend, hwrote⟩

end Negotiation

/-- Whatever bytes a node sends, and in whatever portions they arrive, a negotiation sends its proposal and
ends with what the stream on the handshake channel comes to. That is the version 13 exactly if the first item
of the stream decodes to an acceptance of that version with the magic of the network, in any form that
parameters have, and in every other case a refusal. What comes after the first item is not looked at. -/
theorem agrees_iff_first_item :
    (∀ (magic : UInt64) (side : Side) (protocols : List MiniProtocol) (portions : List Bytes),
      .handshake ∈ protocols →
      ∃ after, attend (negotiation magic) portions (negotiation magic).start (.new side protocols)
          = (.ended (answer magic (payloadsOn .handshake (Segment.parse portions.flatten).1)), after) ∧
        Wrote .handshake [(proposal magic).encode] (.new side protocols) after) ∧
    (∀ magic stream version, answer magic stream = .ok version ↔
      version = 13 ∧ ∃ item more data, stream = item ++ more ∧ IsItem item ∧
        Message.decode item = .ok (.acceptVersion 13 data) ∧ data.networkMagic = magic) ∧
    (∀ magic stream error, answer magic stream = .error error →
      ∃ refusal, error = .handshakeRefused refusal) ∧
    (∀ magic item more, IsItem item →
      answer magic (item ++ more) = (judge magic item).mapError .handshakeRefused) ∧
    (∀ bytes version data, Message.decode bytes = .ok (.acceptVersion version data) ↔
      IsAcceptance bytes version data) := by
  refine ⟨fun magic side protocols portions hprotocol => ?_, fun _ _ _ => answer_eq_ok_iff,
    fun _ _ _ => exists_refusal_of_answer, fun _ _ more hitem => answer_append hitem more,
    fun _ _ _ => acceptVersion_iff⟩
  obtain ⟨messages, last, hyields⟩ :=
    Channel.exists_yields (payloadsOn .handshake (Segment.parse portions.flatten).1)
  exact attend_negotiation magic (Multiplexer.offers_new hprotocol hyields)

/-- An acceptance with two parameters, in two segments and three portions, is followed by a stop byte. On
another network it is a refusal, and so is a stream that is over within it. -/
theorem agrees_iff_first_item_sample :
    let portions : List Bytes := [[0, 0, 0, 0, 0x80], [0, 0, 3, 0x83, 0x01, 0x0D, 0, 0, 0, 1, 0x80, 0, 0, 5],
      [0x82, 0x18, 0x2A, 0xF5, 0xFF]]
    (∃ after, attend (negotiation 42) portions (negotiation 42).start (.new .initiator MiniProtocol.all)
        = (.ended (.ok 13), after)) ∧
      (∃ refusal, answer 43 [0x83, 0x01, 0x0D, 0x82, 0x18, 0x2A, 0xF5, 0xFF]
        = .error (.handshakeRefused refusal)) ∧
      (∃ refusal, answer 42 [0x83, 0x01, 0x0D, 0x82, 0x18, 0x2A] = .error (.handshakeRefused refusal)) := by
  intro portions
  obtain ⟨hattends, hagrees, hrefuses, happends, -⟩ := agrees_iff_first_item
  have hstream : payloadsOn .handshake (Segment.parse portions.flatten).1
      = [0x83, 0x01, 0x0D, 0x82, 0x18, 0x2A, 0xF5] ++ [0xFF] := by decide
  have hitem : IsItem [0x83, 0x01, 0x0D, 0x82, 0x18, 0x2A, 0xF5] := ⟨by decide, rfl⟩
  refine ⟨?_, ?_, ?_⟩
  · obtain ⟨after, hattend, -⟩ := hattends 42 .initiator MiniProtocol.all portions (by decide)
    refine ⟨after, hattend.trans ?_⟩
    rw [(hagrees 42 _ 13).mpr ⟨rfl, _, _, ⟨42, true, 0, false⟩, hstream, hitem, rfl, rfl⟩]
  · exact ⟨_, (happends 43 _ [0xFF] hitem).trans rfl⟩
  · have hover : answer 42 [0x83, 0x01, 0x0D, 0x82, 0x18, 0x2A]
        = .error (.handshakeRefused (.noAnswer .closed)) := rfl
    obtain ⟨refusal, hrefusal⟩ := hrefuses _ _ _ hover
    exact ⟨refusal, hrefusal ▸ hover⟩

end BlockFeed.Handshake
