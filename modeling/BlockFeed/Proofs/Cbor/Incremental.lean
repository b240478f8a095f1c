import BlockFeed.Cbor.Extent

/-!
# Readers that do not look ahead

Reassembly looks at the first bytes of a stream and has to decide whether they hold an item. That is
sound because what a reader makes of some bytes does not change when more of them arrive, unless it
has said that the input is cut short. `Reader.Incremental` states this, and every reader that takes
part in `itemLength?` has the property.

Loops are bounded by the length of the input, which grows when more arrives. `Reader.Takes` says how
many bytes a reader takes at least; a round that takes one byte never runs out of rounds.

The results are `itemLength?_append_of_some` and `itemLength?_append_of_error`: what is recognised in some
bytes, or refused as malformed, is so whatever follows them.
-/

namespace BlockFeed.Cbor

namespace Reader

variable {α β : Type}

/-- What is accepted or refused as malformed is so whatever follows. -/
structure Incremental (r : Reader Fault α) : Prop where
  accepts : ∀ {input : Bytes} {a : α} {rest : Bytes}, r.run input = .ok (a, rest) →
    ∀ more, r.run (input ++ more) = .ok (a, rest ++ more)
  refuses : ∀ {input : Bytes}, r.run input = .error .malformed →
    ∀ more, r.run (input ++ more) = .error .malformed

/-- An accepted input is at least a number of bytes longer than what is left of it. -/
structure Takes (n : Nat) (r : Reader Fault α) : Prop where
  le_length : ∀ {input : Bytes} {a : α} {rest : Bytes}, r.run input = .ok (a, rest) →
    rest.length + n ≤ input.length

/-- The two ways in which a first part can let the whole succeed or fail. -/
theorem run_bind_cases {r : Reader Fault α} {f : α → Reader Fault β} {input : Bytes}
    {outcome : Except Fault (β × Bytes)} (h : (r >>= f).run input = outcome) :
    (∃ a rest, r.run input = .ok (a, rest) ∧ (f a).run rest = outcome) ∨
      (∃ e, r.run input = .error e ∧ outcome = .error e) := by
  rw [run_bind] at h
  cases hr : r.run input with
  | ok p => exact .inl ⟨p.1, p.2, rfl, by simpa [hr] using h⟩
  | error e => exact .inr ⟨e, rfl, by simpa [hr] using h.symm⟩

namespace Incremental

theorem pure (a : α) : Incremental (Pure.pure a : Reader Fault α) where
  accepts h more := by
    simp only [run_pure, Except.ok.injEq, Prod.mk.injEq] at h ⊢
    exact ⟨h.1, by rw [h.2]⟩
  refuses h := by simp at h

theorem fail (e : Fault) : Incremental (Reader.fail e : Reader Fault α) where
  accepts h := by simp at h
  refuses h more := by simpa using h

theorem bind {r : Reader Fault α} {f : α → Reader Fault β} (hr : r.Incremental)
    (hf : ∀ a, (f a).Incremental) : (r >>= f).Incremental where
  accepts h more := by
    rcases run_bind_cases h with ⟨a, rest, ha, hb⟩ | ⟨e, -, he⟩
    · rw [run_bind, hr.accepts ha more]
      exact (hf a).accepts hb more
    · cases he
  refuses h more := by
    rcases run_bind_cases h with ⟨a, rest, ha, hb⟩ | ⟨e, he, hm⟩
    · rw [run_bind, hr.accepts ha more]
      exact (hf a).refuses hb more
    · cases hm
      rw [run_bind, hr.refuses he more]

theorem ite {p : Prop} [Decidable p] {r s : Reader Fault α} (hr : r.Incremental)
    (hs : s.Incremental) : Incremental (if p then r else s) := by
  split
  · exact hr
  · exact hs

/-- A loop whose number of rounds is the length of the input and one more, if further rounds make no
difference. -/
theorem ofRounds {r : Nat → Reader Fault α} (hr : ∀ n, (r n).Incremental)
    (hrounds : ∀ {n m : Nat} {input : Bytes}, input.length < n → input.length < m →
      (r n).run input = (r m).run input) :
    Incremental (fun input => r (input.length + 1) input : Reader Fault α) where
  accepts {input a rest} h more := by
    have hn : (r ((input ++ more).length + 1)).run input = .ok (a, rest) :=
      (hrounds (by rw [List.length_append]; omega) (Nat.lt_succ_self _)).trans h
    exact (hr _).accepts hn more
  refuses {input} h more := by
    have hn : (r ((input ++ more).length + 1)).run input = .error .malformed :=
      (hrounds (by rw [List.length_append]; omega) (Nat.lt_succ_self _)).trans h
    exact (hr _).refuses hn more

end Incremental

namespace Takes

theorem bind {n m : Nat} {r : Reader Fault α} {f : α → Reader Fault β} (hr : r.Takes n)
    (hf : ∀ a, (f a).Takes m) : (r >>= f).Takes (n + m) where
  le_length h := by
    rcases run_bind_cases h with ⟨a, between, ha, hb⟩ | ⟨e, -, he⟩
    · have h1 := hr.le_length ha
      have h2 := (hf a).le_length hb
      omega
    · cases he

theorem weaken {n m : Nat} {r : Reader Fault α} (hr : r.Takes n) (hm : m ≤ n) : r.Takes m where
  le_length h := by
    have := hr.le_length h
    omega

theorem pure (a : α) : Takes 0 (Pure.pure a : Reader Fault α) where
  le_length h := by
    simp only [run_pure, Except.ok.injEq, Prod.mk.injEq] at h
    rw [h.2]
    exact Nat.le_refl _

theorem fail (n : Nat) (e : Fault) : Takes n (Reader.fail e : Reader Fault α) where
  le_length h := by simp at h

theorem ite {n : Nat} {p : Prop} [Decidable p] {r s : Reader Fault α} (hr : r.Takes n)
    (hs : s.Takes n) : Takes n (if p then r else s) := by
  split
  · exact hr
  · exact hs

end Takes

/-- Two continuations that agree on what is left agree after the same first part. -/
theorem run_bind_congr {n : Nat} {r : Reader Fault α} {f g : α → Reader Fault β} {input : Bytes}
    (hr : r.Takes n) (h : ∀ a rest, rest.length + n ≤ input.length →
      (f a).run rest = (g a).run rest) : (r >>= f).run input = (r >>= g).run input := by
  rw [run_bind, run_bind]
  cases hi : r.run input with
  | ok p => exact h p.1 p.2 (hr.le_length hi)
  | error e => rfl

end Reader

open Reader

/-! ## The readers of tokens -/

theorem incremental_byte : Incremental byte where
  accepts {input a rest} h more := by
    cases input with
    | nil => cases h
    | cons b tail => cases h; rfl
  refuses {input} h := by
    cases input with
    | nil => cases h
    | cons b tail => cases h

theorem takes_byte : Takes 1 byte where
  le_length {input a rest} h := by
    cases input with
    | nil => cases h
    | cons b tail => cases h; exact Nat.le_refl _

theorem incremental_peek : Incremental peek where
  accepts {input a rest} h more := by
    cases input with
    | nil => cases h
    | cons b tail => cases h; rfl
  refuses {input} h := by
    cases input with
    | nil => cases h
    | cons b tail => cases h

theorem takes_peek : Takes 0 peek where
  le_length {input a rest} h := by
    cases input with
    | nil => cases h
    | cons b tail => cases h; exact Nat.le_refl _

theorem incremental_take (n : Nat) : Incremental (take n) where
  accepts {input a rest} h more := by
    simp only [run, take] at h ⊢
    split at h
    · rename_i hle
      cases h
      rw [if_pos (by rw [List.length_append]; omega), List.take_append_of_le_length hle,
        List.drop_append_of_le_length hle]
    · cases h
  refuses {input} h := by
    simp only [run, take] at h
    split at h
    · cases h
    · cases h

theorem takes_take (n : Nat) : Takes 0 (take n) where
  le_length h := by
    simp only [run, take] at h
    split at h
    · cases h
      rw [List.length_drop]
      omega
    · cases h

theorem incremental_word (width : Nat) : Incremental (word width) :=
  (incremental_take width).bind fun _ => .pure _

theorem takes_word (width : Nat) : Takes 0 (word width) :=
  (takes_take width).bind fun _ => .pure _

theorem incremental_argument (info : Nat) : Incremental (argument info) :=
  .ite (.pure _) <| .ite (incremental_word 1) <| .ite (incremental_word 2) <|
    .ite (incremental_word 4) <| .ite (incremental_word 8) (.fail _)

theorem takes_argument (info : Nat) : Takes 0 (argument info) :=
  .ite (.pure _) <| .ite (takes_word 1) <| .ite (takes_word 2) <| .ite (takes_word 4) <|
    .ite (takes_word 8) (.fail 0 _)

theorem incremental_initial (major : Nat) : Incremental (initial major) :=
  incremental_byte.bind fun _ => .ite (.pure _) (.fail _)

theorem takes_initial (major : Nat) : Takes 1 (initial major) :=
  takes_byte.bind fun _ => .ite (.pure _) (.fail 0 _)

theorem incremental_content (major : Nat) : Incremental (content major) :=
  (incremental_initial major).bind fun info =>
    (incremental_argument info).bind fun _ => incremental_take _

theorem takes_content (major : Nat) : Takes 1 (content major) :=
  (takes_initial major).bind fun info => (takes_argument info).bind fun _ => takes_take _

/-- What stands in the place of a chunk is refused as malformed only once that can be told. -/
theorem incremental_notAChunk : Incremental notAChunk where
  accepts {input a rest} h := by
    cases input with
    | nil => cases h
    | cons b tail => cases h
  refuses {input} h more := by
    cases input with
    | nil => cases h
    | cons b tail =>
      simp only [run, notAChunk, List.cons_append, Except.error.injEq, List.length_append] at h ⊢
      split at h
      · cases h
      · rename_i hlong
        rw [if_neg]
        simp only [Bool.and_eq_true, decide_eq_true_eq] at hlong ⊢
        rintro ⟨hrange, hshort⟩
        exact hlong ⟨hrange, by omega⟩

theorem takes_notAChunk (n : Nat) : Takes n notAChunk where
  le_length {input a rest} h := by
    cases input with
    | nil => cases h
    | cons b tail => cases h

section Strings

variable (major : Nat) (accept : Bytes → Bool)

theorem incremental_chunks (rounds : Nat) : Incremental (chunks major accept rounds) := by
  induction rounds with
  | zero => exact .fail _
  | succ rounds ih =>
    exact incremental_peek.bind fun _ => .ite (incremental_byte.bind fun _ => .pure _) <|
      .ite incremental_notAChunk <| (incremental_content major).bind fun _ => .ite ih (.fail _)

/-- Every chunk takes a byte at least, so rounds beyond the length of the input are not used. -/
theorem chunks_rounds {n m : Nat} {input : Bytes} (hn : input.length < n) (hm : input.length < m) :
    (chunks major accept n).run input = (chunks major accept m).run input := by
  induction n generalizing m input with
  | zero => omega
  | succ n ih =>
    obtain ⟨m, rfl⟩ : ∃ k, m = k + 1 := ⟨m - 1, by omega⟩
    refine run_bind_congr takes_peek fun b rest hrest => ?_
    split
    · rfl
    · split
      · rfl
      · refine run_bind_congr (takes_content major) fun piece left hleft => ?_
        split
        · exact ih (by omega) (by omega)
        · rfl

theorem incremental_skipString : Incremental (skipString major accept) :=
  incremental_peek.bind fun _ => .ite
    (incremental_byte.bind fun _ =>
      .ofRounds (incremental_chunks major accept) (chunks_rounds major accept))
    ((incremental_content major).bind fun _ => .ite (.pure _) (.fail _))

theorem takes_chunks (rounds : Nat) : Takes 1 (chunks major accept rounds) := by
  induction rounds with
  | zero => exact .fail 1 _
  | succ rounds ih =>
    refine takes_peek.bind fun _ => .ite (takes_byte.bind fun _ => .pure _) <|
      .ite (takes_notAChunk 1) ?_
    exact ((takes_content major).bind fun _ => .ite (ih.weaken (Nat.zero_le 1)) (.fail 0 _))

theorem takes_skipString : Takes 1 (skipString major accept) := by
  refine takes_peek.bind fun _ => .ite (takes_byte.bind fun _ => ⟨fun h => ?_⟩)
    ((takes_content major).bind fun _ => .ite (.pure _) (.fail 0 _))
  exact ((takes_chunks major accept _).weaken (Nat.zero_le 1)).le_length h

end Strings

theorem incremental_token : Incremental token := by
  have arrayHead (f : UInt64 → Token) (info : Nat) : Incremental (if info = 31
      then (pure (.opening none) : Reader Fault Token)
      else do return f (← argument info)) :=
    .ite (.pure _) ((incremental_argument info).bind fun _ => .pure _)
  refine incremental_peek.bind fun b => .ite ?_ <| .ite ?_ <| incremental_byte.bind fun _ => .ite ?_ <|
    .ite ?_ <| .ite ?_ <| .ite (.pure _) ?_
  · exact (incremental_skipString 2 _).bind fun _ => .pure _
  · exact (incremental_skipString 3 _).bind fun _ => .pure _
  · exact arrayHead (fun n => .opening (some n.toNat)) _
  · exact arrayHead (fun n => .opening (some (2 * n.toNat))) _
  · exact (incremental_argument _).bind fun _ => .pure _
  · exact (incremental_argument _).bind fun _ => .pure _

theorem takes_token : Takes 1 token := by
  have head (f : UInt64 → Token) (info : Nat) : Takes 0 (do return f (← argument info)) :=
    (takes_argument info).bind fun _ => .pure _
  refine takes_peek.bind fun b => .ite ?_ <| .ite ?_ <| takes_byte.bind fun _ => .ite ?_ <|
    .ite ?_ <| .ite ?_ <| .ite (.pure _) ?_
  · exact (takes_skipString 2 _).bind fun _ => .pure _
  · exact (takes_skipString 3 _).bind fun _ => .pure _
  · exact .ite (.pure _) (head (fun n => .opening (some n.toNat)) _)
  · exact .ite (.pure _) (head (fun n => .opening (some (2 * n.toNat))) _)
  · exact head (fun _ => .tag) _
  · exact head (fun _ => .leaf) _

/-! ## The extent of an item -/

theorem incremental_skipPending (rounds : Nat) (p : Pending) :
    Incremental (skipPending rounds p) := by
  induction rounds generalizing p with
  | zero => exact .fail _
  | succ rounds ih =>
    refine incremental_token.bind fun t => ?_
    cases p.after t with
    | none => exact .pure _
    | some next => exact ih next

/-- Every token takes a byte at least, so rounds beyond the length of the input are not used. -/
theorem skipPending_rounds {n m : Nat} {p : Pending} {input : Bytes} (hn : input.length < n)
    (hm : input.length < m) : (skipPending n p).run input = (skipPending m p).run input := by
  induction n generalizing m p input with
  | zero => omega
  | succ n ih =>
    obtain ⟨m, rfl⟩ : ∃ k, m = k + 1 := ⟨m - 1, by omega⟩
    refine run_bind_congr takes_token fun t rest hrest => ?_
    cases p.after t with
    | none => rfl
    | some next => exact ih (by omega) (by omega)

theorem incremental_skipItem : Incremental skipItem :=
  .ofRounds (fun n => incremental_skipPending n .one) skipPending_rounds

/-- Bytes are exactly one item. -/
def IsItem (bytes : Bytes) : Prop := bytes ≠ [] ∧ itemLength? bytes = .ok (some bytes.length)

/-- An item is skipped to its end. -/
theorem IsItem.skipItem_eq {item : Bytes} (h : IsItem item) :
    skipItem.run item = .ok ((), []) := by
  obtain ⟨hne, hlen⟩ := h
  have hpos : 0 < item.length := List.length_pos_iff.mpr hne
  unfold itemLength? at hlen
  split at hlen
  · rename_i rest hskip
    have hrest : rest.length = 0 := by
      simp only [Except.ok.injEq, Option.some.injEq] at hlen
      omega
    rw [List.length_eq_zero_iff.mp hrest] at hskip
    exact hskip
  · cases hlen
  · cases hlen

/-- The length of an item is at most that of the input. -/
theorem le_length_of_itemLength? {input : Bytes} {length : Nat}
    (h : itemLength? input = .ok (some length)) : length ≤ input.length := by
  unfold itemLength? at h
  split at h
  · cases h
    exact Nat.sub_le _ _
  · cases h
  · cases h

/-- What is recognised is so whatever follows it. -/
theorem itemLength?_append_of_some {front : Bytes} {length : Nat}
    (h : itemLength? front = .ok (some length)) (more : Bytes) :
    itemLength? (front ++ more) = .ok (some length) := by
  unfold itemLength? at h
  split at h
  · rename_i rest hskip
    cases h
    have hmore : skipItem (front ++ more) = .ok ((), rest ++ more) :=
      incremental_skipItem.accepts hskip more
    simp only [itemLength?, hmore, List.length_append, Nat.add_sub_add_right]
  · cases h
  · cases h

/-- What is malformed is so whatever follows it. -/
theorem itemLength?_append_of_error {front : Bytes} {fault : Fault}
    (h : itemLength? front = .error fault) (more : Bytes) :
    itemLength? (front ++ more) = .error fault := by
  unfold itemLength? at h
  split at h
  · cases h
  · cases h
  · rename_i hskip
    cases h
    have hmore : skipItem (front ++ more) = .error .malformed :=
      incremental_skipItem.refuses hskip more
    simp only [itemLength?, hmore]

/-- An item is recognised whatever follows it. -/
theorem IsItem.itemLength?_append {item : Bytes} (h : IsItem item) (more : Bytes) :
    itemLength? (item ++ more) = .ok (some item.length) :=
  itemLength?_append_of_some h.2 more

/-- A token that is a whole item is one. -/
theorem IsItem.of_token {bytes : Bytes} (hne : bytes ≠ [])
    (htoken : token.run bytes = .ok (.leaf, [])) : IsItem bytes := by
  refine ⟨hne, ?_⟩
  have hskip : skipItem bytes = .ok ((), []) := by
    show (skipPending (bytes.length + 1) .one).run bytes = _
    rw [skipPending, run_bind, htoken]
    rfl
  simp [itemLength?, hskip]

/-- A byte string with a length of two bytes is an item. -/
theorem IsItem.of_long_string {content : Bytes} {high low : UInt8}
    (hlength : Bytes.ofBigEndian [high, low] = content.length) :
    IsItem (0x59 :: high :: low :: content) := by
  refine .of_token (List.cons_ne_nil _ _) ?_
  have hbound : content.length < 2 ^ 64 := by
    have := high.toNat_lt
    have := low.toNat_lt
    simp [Bytes.ofBigEndian] at hlength
    omega
  have hword : (word 2).run (high :: low :: content)
      = .ok (UInt64.ofNat content.length, content) := by
    simp [word, take, Reader.run, Bind.bind, Reader.bind, Pure.pure, Reader.pure, hlength]
  have hall : (take (UInt64.ofNat content.length).toNat).run content = .ok (content, []) := by
    rw [UInt64.toNat_ofNat_of_lt' hbound]
    simp [take, Reader.run]
  have hcontent : (Cbor.content 2).run (0x59 :: high :: low :: content) = .ok (content, []) := by
    have hargument : (argument 25).run (high :: low :: content)
        = .ok (UInt64.ofNat content.length, content) := hword
    have hinitial : (initial 2).run (0x59 :: high :: low :: content)
        = .ok (25, high :: low :: content) := rfl
    simp only [Cbor.content, run_bind, hinitial, hargument, hall]
  have hpeek : peek.run (0x59 :: high :: low :: content)
      = .ok (0x59, 0x59 :: high :: low :: content) := rfl
  have hstring : (skipString 2 fun _ => true).run (0x59 :: high :: low :: content)
      = .ok ((), []) := by
    rw [skipString, run_bind, hpeek]
    simp [run_bind, hcontent]
  rw [token, run_bind, hpeek]
  simp [run_bind, hstring]

end BlockFeed.Cbor
