import BlockFeed.Proofs.Cbor.Exact
import BlockFeed.Proofs.Wire.Reassembly

/-!
# Messages do not depend on how a stream is cut

A stream of bytes holds messages, which are the items at its front, and then ends or goes on with bytes
that begin no item (`Yields`). This is a matter of the bytes alone, and every stream is of that kind
(`exists_yields`).

The bytes arrive on a channel in payloads, with calls for the next message in between. Whatever the
payloads are, some of them empty or not, the calls are answered with the messages of the stream, one after
the other, and then with its end again and again (`answers_of_bytes`). Where a stream is cut off, the
messages before the cut stay what they are (`Yields.ofFront`).
-/

namespace BlockFeed.Channel

open Cbor (IsItem itemLength?)

/-! ## What a stream holds -/

/-- A stream of bytes holds these messages, and this is what it says from then on. -/
inductive Yields : Bytes → List Bytes → Reception → Prop where
  /-- The item at the front is the first message. -/
  | message {item more : Bytes} {messages : List Bytes} {last : Reception} (hitem : IsItem item)
      (hmore : Yields more messages last) : Yields (item ++ more) (item :: messages) last
  /-- The stream is over before another item is complete. -/
  | unfinished {left : Bytes} (hleft : itemLength? left = .ok none) : Yields left [] .closed
  /-- No item begins like this. -/
  | malformed {left : Bytes} {fault : Cbor.Fault} (hleft : itemLength? left = .error fault) :
      Yields left [] (.malformed fault)

/-- Every stream holds some messages. -/
theorem exists_yields (bytes : Bytes) : ∃ messages last, Yields bytes messages last := by
  -- every item takes a byte at least
  induction hlength : bytes.length using Nat.strongRecOn generalizing bytes with
  | ind length ih =>
    rcases Cbor.front_cases bytes with ⟨item, more, rfl, hitem⟩ | hfront | ⟨fault, hfront⟩
    · have hpos : 0 < item.length := List.length_pos_iff.mpr hitem.1
      rw [List.length_append] at hlength
      obtain ⟨messages, last, hmore⟩ := ih more.length (by omega) more rfl
      exact ⟨item :: messages, last, .message hitem hmore⟩
    · exact ⟨[], _, .unfinished hfront⟩
    · exact ⟨[], _, .malformed hfront⟩

namespace Yields

variable {bytes item more : Bytes} {messages : List Bytes} {last : Reception}

/-- The item at the front of a stream is its first message. -/
theorem of_isItem (h : Yields (item ++ more) messages last) (hitem : IsItem item) :
    ∃ rest, messages = item :: rest ∧ Yields more rest last := by
  have hfront := hitem.itemLength?_append more
  generalize hbytes : item ++ more = bytes at h hfront
  cases h with
  | message hfirst hrest =>
    have hlength := (hfirst.itemLength?_append _).symm.trans hfront
    simp only [Except.ok.injEq, Option.some.injEq] at hlength
    obtain ⟨rfl, rfl⟩ := List.append_inj hbytes hlength.symm
    exact ⟨_, rfl, hrest⟩
  | unfinished hleft => cases hleft.symm.trans hfront
  | malformed hleft => cases hleft.symm.trans hfront

/-- Nothing is a message of a stream whose front begins no item. -/
theorem of_error {fault : Cbor.Fault} (h : Yields bytes messages last)
    (hfront : itemLength? bytes = .error fault) : messages = [] ∧ last = .malformed fault := by
  cases h with
  | message hitem hmore => cases (hitem.itemLength?_append _).symm.trans hfront
  | unfinished hleft => cases hleft.symm.trans hfront
  | malformed hleft => cases hleft.symm.trans hfront; exact ⟨rfl, rfl⟩

/-- Nothing is a message of a stream that is over before its first item is complete. -/
theorem of_none (h : Yields bytes messages last) (hfront : itemLength? bytes = .ok none) :
    messages = [] ∧ last = .closed := by
  cases h with
  | message hitem hmore => cases (hitem.itemLength?_append _).symm.trans hfront
  | unfinished hleft => exact ⟨rfl, rfl⟩
  | malformed hleft => cases hleft.symm.trans hfront

/-- Items one after the other are the messages of a stream that is over after the last one. -/
theorem flatten (hitems : ∀ message ∈ messages, IsItem message) :
    Yields messages.flatten messages .closed := by
  induction messages with
  | nil => exact .unfinished rfl
  | cons message rest ih =>
    rw [List.forall_mem_cons] at hitems
    exact .message hitems.1 (ih hitems.2)

/-- Of a stream that is cut off, the messages up to the cut are left. Either it says then that it is
over, or nothing was cut off but what follows all of the messages. -/
theorem ofFront {front back : Bytes} (h : Yields (front ++ back) messages last) :
    ∃ count last', Yields front (messages.take count) last' ∧
      (last' = .closed ∨ last' = last ∧ messages.length ≤ count) := by
  induction messages generalizing front with
  | nil =>
    rcases Cbor.front_cases front with ⟨item, more, rfl, hitem⟩ | hfront | ⟨fault, hfront⟩
    · rw [List.append_assoc] at h
      obtain ⟨rest, hrest, -⟩ := h.of_isItem hitem
      cases hrest
    · exact ⟨0, _, .unfinished hfront, .inl rfl⟩
    · have hlast := (h.of_error (Cbor.itemLength?_append_of_error hfront back)).2
      exact ⟨0, _, .malformed hfront, .inr ⟨hlast.symm, Nat.le_refl _⟩⟩
  | cons message messages ih =>
    rcases Cbor.front_cases front with ⟨item, more, rfl, hitem⟩ | hfront | ⟨fault, hfront⟩
    · rw [List.append_assoc] at h
      obtain ⟨rest, hrest, hmore⟩ := h.of_isItem hitem
      cases hrest
      obtain ⟨count, last', hcount, hlast⟩ := ih hmore
      exact ⟨count + 1, last', .message hitem hcount, hlast.imp_right fun ⟨heq, hle⟩ =>
        ⟨heq, Nat.succ_le_succ hle⟩⟩
    · exact ⟨0, _, .unfinished hfront, .inl rfl⟩
    · cases (h.of_error (Cbor.itemLength?_append_of_error hfront back)).1

end Yields

/-! ## What calls are answered with -/

/-- What happens on a channel before the peer hangs up. -/
inductive Move where
  | arrival (payload : Bytes)
  /-- The next message is asked for. -/
  | call
  deriving DecidableEq

/-- The bytes that arrive. -/
def arriving (moves : List Move) : Bytes :=
  moves.flatMap fun
    | .arrival payload => payload
    | .call => []

/-- The answers to a number of successive calls. -/
def receptions : Nat → Channel → List Reception
  | 0, _ => []
  | calls + 1, c => c.receive.1 :: receptions calls c.receive.2

/-- The answers to the calls among some moves, and to further ones after the peer has hung up. A call
that has to wait is not answered; the next one takes its place. -/
def answers (further : Nat) : List Move → Channel → List Reception
  | [], c => receptions further c.finish
  | .arrival payload :: rest, c => answers further rest (c.deliver payload)
  | .call :: rest, c =>
    if c.receive.1 = .waiting then answers further rest c.receive.2
    else c.receive.1 :: answers further rest c.receive.2

/-- A number of successive answers: the messages, one after the other, then what is said last, again and
again. -/
def successive (messages : List Bytes) (last : Reception) (calls : Nat) : List Reception :=
  (List.range calls).map fun call => (messages[call]?).elim last .message

theorem successive_nil (last : Reception) (calls : Nat) :
    successive [] last (calls + 1) = last :: successive [] last calls := by
  rw [successive, List.range_succ_eq_map, List.map_cons, List.map_map]
  rfl

theorem successive_cons (message : Bytes) (messages : List Bytes) (last : Reception) (calls : Nat) :
    successive (message :: messages) last (calls + 1)
      = .message message :: successive messages last calls := by
  rw [successive, List.range_succ_eq_map, List.map_cons, List.map_map]
  rfl

section Calls

variable {messages : List Bytes} {last : Reception}

/-- A call finds that an item is still incomplete, or it takes one answer from the stream. -/
theorem receive_cases (c : Channel) {more : Bytes} (h : Yields (c.pending ++ more) messages last) :
    (itemLength? c.pending = .ok none ∧ c.receive.1 = c.exhausted ∧
        c.receive.2.pending = c.pending) ∨
      (c.receive.1 ≠ .waiting ∧ ∃ rest, Yields (c.receive.2.pending ++ more) rest last ∧
        ∀ calls, successive messages last (calls + 1)
          = c.receive.1 :: successive rest last calls) := by
  obtain ⟨c', hreceive, hpending, -⟩ := c.receive_eq
  rw [hreceive]
  rcases Cbor.front_cases c.pending with ⟨item, left, hbytes, hitem⟩ | hfront | ⟨fault, hfront⟩
  · rw [hbytes, verdict_of_isItem hitem] at hpending ⊢
    rw [hbytes, List.append_assoc] at h
    obtain ⟨rest, rfl, hrest⟩ := h.of_isItem hitem
    refine .inr ⟨Reception.noConfusion, rest, ?_, successive_cons item rest last⟩
    rw [hpending]
    exact hrest
  · have hverdict : verdict c.ended c.pending = (c.exhausted, c.pending) := by
      rw [verdict, ofBuffer?, hfront]
      rfl
    rw [hverdict] at hpending ⊢
    exact .inl ⟨hfront, rfl, hpending⟩
  · have hverdict : verdict c.ended c.pending = (.malformed fault, c.pending) := by
      rw [verdict, ofBuffer?, hfront]
      rfl
    rw [hverdict] at hpending ⊢
    obtain ⟨rfl, rfl⟩ := h.of_error (Cbor.itemLength?_append_of_error hfront more)
    refine .inr ⟨Reception.noConfusion, [], ?_, successive_nil _⟩
    rw [hpending]
    exact h

theorem ended_receive (c : Channel) : c.receive.2.ended = c.ended := by
  obtain ⟨c', hreceive, -, hended⟩ := c.receive_eq
  rw [hreceive]
  exact hended

/-- Once the peer has hung up, every call is answered. -/
theorem receptions_eq (calls : Nat) {c : Channel} (hended : c.ended = true)
    (h : Yields c.pending messages last) : receptions calls c = successive messages last calls := by
  induction calls generalizing c messages with
  | zero => rfl
  | succ calls ih =>
    have hnext : c.receive.2.ended = true := (ended_receive c).trans hended
    rw [← List.append_nil c.pending] at h
    rw [receptions]
    rcases c.receive_cases h with ⟨hfront, hreceive, hpending⟩ | ⟨-, rest, hrest, hsuccessive⟩
    · rw [List.append_nil] at h
      obtain ⟨rfl, rfl⟩ := h.of_none hfront
      rw [ih hnext (by rwa [hpending]), hreceive, exhausted, if_pos hended, successive_nil]
    · rw [List.append_nil] at hrest
      rw [ih hnext hrest, hsuccessive]

/-- Whatever has arrived and whatever is still to arrive, the calls are answered with what all of it
holds. -/
theorem answers_eq (further : Nat) {moves : List Move} {c : Channel} (hended : c.ended = false)
    (h : Yields (c.pending ++ arriving moves) messages last) :
    ∃ early ≤ moves.count .call,
      answers further moves c = successive messages last (early + further) := by
  induction moves generalizing c messages with
  | nil =>
    rw [arriving, List.flatMap_nil, List.append_nil, ← pending_finish] at h
    refine ⟨0, Nat.le_refl _, ?_⟩
    rw [answers, Nat.zero_add, receptions_eq further c.ended_finish h]
  | cons move rest ih =>
    cases move with
    | arrival payload =>
      rw [arriving, List.flatMap_cons, ← List.append_assoc, ← pending_deliver] at h
      obtain ⟨early, hearly, hanswers⟩ := ih ((ended_deliver c payload).trans hended) h
      exact ⟨early, by simpa using hearly, hanswers⟩
    | call =>
      have hmore : arriving (.call :: rest) = arriving rest := rfl
      have hcalls : (Move.call :: rest).count .call = rest.count .call + 1 := List.count_cons_self
      have hnext : c.receive.2.ended = false := (ended_receive c).trans hended
      rw [hmore] at h
      rw [answers, hcalls]
      rcases c.receive_cases h with ⟨-, hwaits, hpending⟩ | ⟨hanswered, left, hleft, hsuccessive⟩
      -- the call waits, and all is as it was
      · obtain ⟨early, hearly, hanswers⟩ := ih hnext (by rwa [hpending])
        refine ⟨early, Nat.le_succ_of_le hearly, ?_⟩
        rw [if_pos (by rw [hwaits, exhausted, hended]; rfl), hanswers]
      · obtain ⟨early, hearly, hanswers⟩ := ih hnext hleft
        refine ⟨early + 1, Nat.succ_le_succ hearly, ?_⟩
        rw [if_neg hanswered, hanswers, Nat.add_right_comm, hsuccessive]

end Calls

/-- However the bytes of a stream arrive, the calls are answered with these messages and with this in the
end. Calls before the peer has hung up may have to wait; every further one is answered. -/
def Answered (bytes : Bytes) (messages : List Bytes) (last : Reception) : Prop :=
  ∀ (moves : List Move) (further : Nat), arriving moves = bytes →
    ∃ early ≤ moves.count .call,
      answers further moves {} = successive messages last (early + further)

/-- What a stream holds is what the calls are answered with. -/
theorem Yields.answered {bytes : Bytes} {messages : List Bytes} {last : Reception}
    (h : Yields bytes messages last) : Answered bytes messages last := by
  intro moves further hmoves
  have hstart : ({} : Channel).pending ++ arriving moves = bytes := hmoves
  exact answers_eq further rfl (by rwa [hstart])

/-- The answers to the calls on a channel are told by the bytes that arrive on it, however these are cut
into payloads and whenever the calls are made: some items, and then that the stream is over or that it
goes on with no item. Of a stream that is cut off anywhere, the first of these messages are left, and
either it says then that it is over, or all of the messages are left and it says the same as before. -/
theorem answers_of_bytes (bytes : Bytes) :
    ∃ messages last, Yields bytes messages last ∧ Answered bytes messages last ∧
      ∀ cut, ∃ count last', Yields (bytes.take cut) (messages.take count) last' ∧
        Answered (bytes.take cut) (messages.take count) last' ∧
        (last' = .closed ∨ last' = last ∧ messages.length ≤ count) := by
  obtain ⟨messages, last, h⟩ := exists_yields bytes
  refine ⟨messages, last, h, h.answered, fun cut => ?_⟩
  have hwhole : Yields (bytes.take cut ++ bytes.drop cut) messages last := by
    rwa [List.take_append_drop]
  obtain ⟨count, last', hcount, hlast⟩ := hwhole.ofFront
  exact ⟨count, last', hcount, hcount.answered, hlast⟩

/-- An item in three payloads, one of them empty, and the beginning of another one. -/
example : answers 2 [.arrival [0x82, 0x01], .call, .arrival [], .call, .arrival [0x02, 0x18], .call] {}
    = [.message [0x82, 0x01, 0x02], .closed, .closed] := by decide

end BlockFeed.Channel
