import BlockFeed.Proofs.Cbor.Exact

/-!
# What a reader can give

What is read from an input in memory, which has fewer bytes than a word can count, can be written again: its
strings and lists have no more elements than the head of an item can announce. `Reader.Gives` states a
property of whatever a reader gives, and goes through readers that are put together.

A list of definite length has no more elements than its head announces (`Gives.times`). Every element of
one of open length takes a round of the loop, of which there are as many as there are bytes
(`Gives.untilStop`).
-/

namespace BlockFeed

/-- The bytes of a text are the ones that it has been made from. -/
theorem Bytes.ofText_of_toText? {bytes : Bytes} {text : String} (h : toText? bytes = some text) :
    ofText text = bytes := by
  unfold toText? String.fromUTF8? at h
  split at h
  · cases h
    rfl
  · cases h

namespace Cbor

namespace Reader

variable {ε ε' α β : Type}

/-- Whatever is read from an input in memory has a property, and nothing is added to the input. -/
def Gives (r : Reader ε α) (p : α → Prop) : Prop :=
  ∀ ⦃input : Bytes⦄ ⦃a : α⦄ ⦃rest : Bytes⦄, input.length < UInt64.size →
    r.run input = .ok (a, rest) → p a ∧ rest.length ≤ input.length

namespace Gives

variable {p : α → Prop} {q : β → Prop} {r : Reader ε α}

theorem pure {a : α} (h : p a) : Gives (Pure.pure a : Reader ε α) p := by
  intro input a' rest _ hread
  cases hread
  exact ⟨h, Nat.le_refl _⟩

theorem fail (e : ε) : Gives (Reader.fail e : Reader ε α) p := by
  intro input a rest _ hread
  cases hread

theorem bind {f : α → Reader ε β} (hr : r.Gives p) (hf : ∀ a, p a → (f a).Gives q) :
    (r >>= f).Gives q := by
  intro input b rest hinput hread
  rw [run_bind] at hread
  split at hread
  · rename_i a between ha
    obtain ⟨hp, hbetween⟩ := hr hinput ha
    obtain ⟨hq, hrest⟩ := hf a hp (by omega) hread
    exact ⟨hq, by omega⟩
  · cases hread

theorem ite {c : Prop} [Decidable c] {s : Reader ε α} (hr : r.Gives p) (hs : s.Gives p) :
    Gives (if c then r else s) p := by
  split
  · exact hr
  · exact hs

theorem mapError (f : ε → ε') (hr : r.Gives p) : (r.mapError f).Gives p := by
  intro input a rest hinput hread
  rw [run_mapError] at hread
  cases h : r.run input with
  | ok read =>
    rw [h] at hread
    cases hread
    exact hr hinput h
  | error e =>
    rw [h] at hread
    cases hread

/-- As many values are given as are asked for. -/
theorem times (hr : r.Gives p) (n : Nat) :
    (r.times n).Gives fun items => items.length = n ∧ ∀ item ∈ items, p item := by
  induction n with
  | zero => exact pure ⟨rfl, List.forall_mem_nil _⟩
  | succ n ih =>
    refine hr.bind fun a ha => ih.bind fun items hitems => pure ⟨?_, ?_⟩
    · rw [List.length_cons, hitems.1]
    · exact List.forall_mem_cons.mpr ⟨ha, hitems.2⟩

/-- Every value takes one of the rounds, and the stop byte another one. -/
theorem untilStop {lift : Fault → ε} (hr : r.Gives p) (rounds : Nat) :
    (Cbor.untilStop lift r rounds).Gives fun items =>
      items.length < rounds ∧ ∀ item ∈ items, p item := by
  induction rounds with
  | zero => exact fail _
  | succ rounds ih =>
    have hpeek : (peek.mapError lift).Gives fun _ => True := by
      intro input a rest _ hread
      cases input with
      | nil => cases hread
      | cons b tail => cases hread; exact ⟨trivial, Nat.le_refl _⟩
    have hbyte : (byte.mapError lift).Gives fun _ => True := by
      intro input a rest _ hread
      cases input with
      | nil => cases hread
      | cons b tail => cases hread; exact ⟨trivial, Nat.le_succ _⟩
    refine hpeek.bind fun _ _ => ite ?_ ?_
    · exact hbyte.bind fun _ _ => pure ⟨Nat.succ_pos _, List.forall_mem_nil _⟩
    · refine hr.bind fun a ha => ih.bind fun items hitems => pure ⟨?_, ?_⟩
      · rw [List.length_cons]
        exact Nat.succ_lt_succ hitems.1
      · exact List.forall_mem_cons.mpr ⟨ha, hitems.2⟩

end Gives

/-- What is read has the property, whatever follows it. -/
theorem Gives.of_value {r : Reader ε α} {p : α → Prop} (hr : r.Gives p) {input : Bytes} {a : α}
    (hinput : input.length < UInt64.size) (h : r.value input = .ok a) : p a := by
  obtain ⟨rest, hread⟩ := exists_run_of_value h
  exact (hr hinput hread).1

/-- An exact reader adds nothing to its input. -/
theorem Exact.gives {r : Reader Fault α} (hr : r.Exact) : r.Gives fun _ => True :=
  fun _ _ _ _ hread => ⟨trivial, (hr.suffix hread).length_le⟩

end Reader

open Reader

/-! ## Items -/

theorem gives_content (major : Nat) :
    (content major).Gives fun bytes => bytes.length < UInt64.size := by
  refine (exact_initial major).gives.bind fun info _ => (exact_argument info).gives.bind fun n _ => ?_
  intro input bytes rest _ hread
  have hrest := ((exact_take n.toNat).suffix hread).length_le
  simp only [run, take] at hread
  split at hread
  · rename_i hle
    cases hread
    have hlength : (input.take n.toNat).length = n.toNat := List.length_take_of_le hle
    exact ⟨Nat.lt_of_le_of_lt (Nat.le_of_eq hlength) n.toNat_lt, hrest⟩
  · cases hread

theorem gives_bytes : readBytes.Gives fun bytes => bytes.length < UInt64.size :=
  gives_content 2

theorem gives_text : readText.Gives fun text => (Bytes.ofText text).length < UInt64.size := by
  refine (gives_content 3).bind fun bytes hbytes => ?_
  cases htext : Bytes.toText? bytes with
  | none => exact .fail _
  | some text => exact .pure (by rwa [Bytes.ofText_of_toText? htext])

theorem gives_rawItem : rawItem.Gives IsItem := by
  intro input item rest _ hread
  refine ⟨isItem_of_rawItem hread, ?_⟩
  simp only [run, rawItem] at hread
  split at hread
  · rename_i left hskip
    cases hread
    exact (exact_skipItem.suffix hskip).length_le
  · cases hread

/-- The elements of an array are no more than a word can count. -/
theorem Reader.Gives.elements {ε α : Type} {lift : Fault → ε} {r : Reader ε α} {p : α → Prop}
    (hr : r.Gives p) :
    (Cbor.elements lift r).Gives fun items =>
      items.length < UInt64.size ∧ ∀ item ∈ items, p item := by
  refine ((exact_lengthOf 4).gives.mapError lift).bind fun length _ => ?_
  cases length with
  | some n =>
    intro input items rest hinput hread
    obtain ⟨⟨hlength, hitems⟩, hrest⟩ := hr.times n.toNat hinput hread
    exact ⟨⟨hlength ▸ n.toNat_lt, hitems⟩, hrest⟩
  | none =>
    intro input items rest hinput hread
    obtain ⟨⟨hlength, hitems⟩, hrest⟩ := hr.untilStop (input.length + 1) hinput hread
    exact ⟨⟨by omega, hitems⟩, hrest⟩

end Cbor

end BlockFeed
