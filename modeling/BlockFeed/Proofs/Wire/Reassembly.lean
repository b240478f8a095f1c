import BlockFeed.Proofs.Cbor.Incremental
import BlockFeed.Wire.Channel

/-!
# Reassembly of messages

A channel holds the bytes that have arrived for it in two parts, joined and not joined yet. Only
their concatenation matters for what is received and for what stays (`receive_eq`): while it begins with
an item, that item is the next message, and the rest stays (`receive_of_pending_eq`).
-/

namespace BlockFeed.Channel

open Cbor (IsItem)

/-- The bytes that have arrived and have not been handed out. -/
def pending (c : Channel) : Bytes := c.buffer ++ c.arrived.flatten

/-- What a channel says that has nothing to give. -/
def exhausted (c : Channel) : Reception := if c.ended then .closed else .waiting

@[simp] theorem pending_deliver (c : Channel) (payload : Bytes) :
    (c.deliver payload).pending = c.pending ++ payload := by
  simp [deliver, pending]

@[simp] theorem pending_finish (c : Channel) : c.finish.pending = c.pending := rfl

@[simp] theorem ended_deliver (c : Channel) (payload : Bytes) :
    (c.deliver payload).ended = c.ended := rfl

@[simp] theorem ended_finish (c : Channel) : c.finish.ended = true := rfl

/-- What joined bytes have to give they give whatever follows them, and that stays, too. -/
theorem ofBuffer?_append {front left : Bytes} {reception : Reception}
    (h : ofBuffer? front = some (reception, left)) (more : Bytes) :
    ofBuffer? (front ++ more) = some (reception, left ++ more) := by
  unfold ofBuffer? at h
  split at h
  · rename_i fault hfault
    cases h
    rw [ofBuffer?, Cbor.itemLength?_append_of_error hfault]
  · rename_i length hlength
    cases h
    have hle : length ≤ front.length := Cbor.le_length_of_itemLength? hlength
    rw [ofBuffer?, Cbor.itemLength?_append_of_some hlength]
    simp only [List.take_append_of_le_length hle, List.drop_append_of_le_length hle]
  · cases h

/-- What all the bytes of a channel have to give, with the bytes that stay. -/
def verdict (ended : Bool) (bytes : Bytes) : Reception × Bytes :=
  (ofBuffer? bytes).getD (if ended then .closed else .waiting, bytes)

/-- Joining payloads one by one gives what joining all of them gives. -/
theorem receiveFrom_eq (ended : Bool) (buffer : Bytes) (arrived : List Bytes) :
    ∃ c, receiveFrom ended buffer arrived = ((verdict ended (buffer ++ arrived.flatten)).1, c) ∧
      c.pending = (verdict ended (buffer ++ arrived.flatten)).2 ∧ c.ended = ended := by
  induction arrived generalizing buffer with
  | nil =>
    rw [receiveFrom, List.flatten_nil, List.append_nil, verdict]
    cases ofBuffer? buffer with
    | none => exact ⟨_, rfl, by simp [pending], rfl⟩
    | some given => exact ⟨_, rfl, by simp [pending], rfl⟩
  | cons payload rest ih =>
    rw [receiveFrom]
    cases hbuffer : ofBuffer? buffer with
    | none =>
      rw [List.flatten_cons, ← List.append_assoc]
      exact ih (buffer ++ payload)
    | some given =>
      rw [verdict, ofBuffer?_append hbuffer]
      exact ⟨_, rfl, rfl, rfl⟩

/-- What is received, and what stays, is told by all the bytes that have arrived. -/
theorem receive_eq (c : Channel) :
    ∃ c', c.receive = ((verdict c.ended c.pending).1, c') ∧
      c'.pending = (verdict c.ended c.pending).2 ∧ c'.ended = c.ended :=
  receiveFrom_eq c.ended c.buffer c.arrived

/-- Bytes that begin with an item give it away. -/
theorem verdict_of_isItem {item : Bytes} (h : IsItem item) (ended : Bool) (more : Bytes) :
    verdict ended (item ++ more) = (.message item, more) := by
  rw [verdict, ofBuffer?, h.itemLength?_append]
  simp only [List.take_left, List.drop_left, Option.getD_some]

/-- The next message is the first item of what has arrived. -/
theorem receive_of_pending_eq {c : Channel} {item more : Bytes} (h : IsItem item)
    (hp : c.pending = item ++ more) :
    ∃ c', c.receive = (.message item, c') ∧ c'.pending = more ∧ c'.ended = c.ended := by
  have hreceive := c.receive_eq
  rwa [hp, verdict_of_isItem h] at hreceive

/-- Where nothing has arrived there is nothing to receive. -/
theorem receive_of_pending_eq_nil {c : Channel} (hp : c.pending = []) :
    ∃ c', c.receive = (c.exhausted, c') ∧ c'.pending = [] ∧ c'.ended = c.ended := by
  have hreceive := c.receive_eq
  rwa [hp] at hreceive

end BlockFeed.Channel
