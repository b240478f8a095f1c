import BlockFeed.Proofs.Cbor.Incremental
import BlockFeed.Proofs.Cbor.Reads

/-!
# Readers that take no more than they read

A reader that does not look ahead is exact if it leaves an end of its input, and says that an input is cut
short only if whatever lets it succeed reaches beyond that input (`Reader.Exact`). What an exact reader has
taken it would have read alone, so an accepted input falls into bytes that are read whatever follows them
and bytes that are left (`Reader.Exact.exists_reads`).

Looking at the next byte without taking it is not exact, but every reader that does so takes that byte
afterwards (`Exact.afterPeek`).

The results are `exact_skipItem` and, for the bytes that are skipped, `exists_isItem_of_skipItem`: they are
exactly one item. So there are three ways in which bytes can begin (`front_cases`).
-/

namespace BlockFeed.Cbor

namespace Reader

variable {α β : Type}

/-- What is accepted is read from the front of the input, and an input is cut short only if more of it is
needed. -/
structure Exact (r : Reader Fault α) : Prop extends Incremental r where
  suffix : ∀ {input : Bytes} {a : α} {rest : Bytes}, r.run input = .ok (a, rest) → rest <:+ input
  demands : ∀ {front back : Bytes} {a : α} {rest : Bytes}, r.run front = .error .truncated →
    r.run (front ++ back) = .ok (a, rest) → rest.length < back.length

namespace Exact

theorem pure (a : α) : Exact (Pure.pure a : Reader Fault α) where
  toIncremental := .pure a
  suffix h := by
    simp only [run_pure, Except.ok.injEq, Prod.mk.injEq] at h
    exact h.2 ▸ List.suffix_refl _
  demands h := by simp at h

theorem fail (e : Fault) : Exact (Reader.fail e : Reader Fault α) where
  toIncremental := .fail e
  suffix h := by simp at h
  demands _ h := by simp at h

theorem bind {r : Reader Fault α} {f : α → Reader Fault β} (hr : r.Exact)
    (hf : ∀ a, (f a).Exact) : (r >>= f).Exact where
  toIncremental := hr.toIncremental.bind fun a => (hf a).toIncremental
  suffix h := by
    rcases run_bind_cases h with ⟨a, between, ha, hb⟩ | ⟨e, -, he⟩
    · exact ((hf a).suffix hb).trans (hr.suffix ha)
    · cases he
  demands {front back} _ _ hcut h := by
    rcases run_bind_cases h with ⟨a, between, ha, hb⟩ | ⟨e, -, he⟩
    · rcases run_bind_cases hcut with ⟨a', between', ha', hb'⟩ | ⟨e, ha', he⟩
      -- either the second part is cut short, after the first one has been read
      · rw [hr.accepts ha' back] at ha
        cases ha
        exact (hf _).demands hb' hb
      -- or the first part is
      · cases he
        have hmore := hr.demands ha' ha
        have hleft := ((hf a).suffix hb).length_le
        omega
    · cases he

theorem ite {p : Prop} [Decidable p] {r s : Reader Fault α} (hr : r.Exact) (hs : s.Exact) :
    Exact (if p then r else s) := by
  split
  · exact hr
  · exact hs

/-- The next byte may be looked at by work that takes it. -/
theorem afterPeek {f : UInt8 → Reader Fault α} (hf : ∀ b, (f b).Exact) (ht : (peek >>= f).Takes 1) :
    (peek >>= f).Exact where
  toIncremental := incremental_peek.bind fun b => (hf b).toIncremental
  suffix {input _ _} h := by
    cases input with
    | nil => cases h
    | cons b tail => exact (hf b).suffix h
  demands {front back _ _} hcut h := by
    cases front with
    | nil => exact ht.le_length h
    | cons b tail => exact (hf b).demands hcut h

/-- A loop whose number of rounds is the length of the input and one more, if further rounds make no
difference. -/
theorem ofRounds {r : Nat → Reader Fault α} (hr : ∀ n, (r n).Exact)
    (hrounds : ∀ {n m : Nat} {input : Bytes}, input.length < n → input.length < m →
      (r n).run input = (r m).run input) :
    Exact (fun input => r (input.length + 1) input : Reader Fault α) where
  toIncremental := .ofRounds (fun n => (hr n).toIncremental) hrounds
  suffix h := (hr _).suffix h
  demands {front back _ _} hcut h := by
    have hfront : (r ((front ++ back).length + 1)).run front = .error .truncated :=
      (hrounds (by rw [List.length_append]; omega) (Nat.lt_succ_self _)).trans hcut
    exact (hr _).demands hfront h

/-- An accepted input falls into what is read, whatever follows it, and what is left. -/
theorem exists_reads {r : Reader Fault α} (hr : r.Exact) {input rest : Bytes} {a : α}
    (h : r.run input = .ok (a, rest)) : ∃ taken, input = taken ++ rest ∧ r.Reads taken a := by
  obtain ⟨taken, rfl⟩ := hr.suffix h
  refine ⟨taken, rfl, fun more => ?_⟩
  cases hrun : r.run taken with
  | ok p =>
    have hwhole := (hr.accepts hrun rest).symm.trans h
    simp only [Except.ok.injEq, Prod.mk.injEq] at hwhole
    have hnil : p.2 = [] := by simpa using hwhole.2
    rw [hr.accepts hrun more, hwhole.1, hnil, List.nil_append]
  | error e =>
    cases e with
    | truncated => exact absurd (hr.demands hrun h) (Nat.lt_irrefl _)
    | malformed =>
      have hwhole := (hr.refuses hrun rest).symm.trans h
      cases hwhole

/-- The same for the first part of a reader whose failures are reported under another cause. -/
theorem exists_reads_of_bind {ε : Type} {lift : Fault → ε} {r : Reader Fault α} {f : α → Reader ε β}
    (hr : r.Exact) {input rest : Bytes} {b : β}
    (h : (r.mapError lift >>= f).run input = .ok (b, rest)) :
    ∃ taken left a, input = taken ++ left ∧ r.Reads taken a ∧ (f a).run left = .ok (b, rest) := by
  rw [run_bind, run_mapError] at h
  cases hread : r.run input with
  | ok p =>
    obtain ⟨taken, htaken, hreads⟩ := hr.exists_reads hread
    rw [hread] at h
    exact ⟨taken, p.2, p.1, htaken, hreads, h⟩
  | error e =>
    rw [hread] at h
    cases h

end Exact

end Reader

open Reader

/-! ## The readers of items and tokens -/

theorem exact_byte : Exact byte where
  toIncremental := incremental_byte
  suffix {input _ _} h := by
    cases input with
    | nil => cases h
    | cons b tail => cases h; exact List.suffix_cons _ _
  demands {front back _ _} hcut h := by
    cases front with
    | nil =>
      cases back with
      | nil => cases h
      | cons b tail => cases h; exact Nat.lt_succ_self _
    | cons b tail => cases hcut

theorem exact_take (n : Nat) : Exact (take n) where
  toIncremental := incremental_take n
  suffix h := by
    simp only [run, take] at h
    split at h
    · cases h
      exact List.drop_suffix _ _
    · cases h
  demands {front back _ _} hcut h := by
    simp only [run, take] at hcut h
    split at hcut
    · cases hcut
    · split at h
      · cases h
        rw [List.length_drop]
        simp only [List.length_append] at *
        omega
      · cases h

theorem exact_word (width : Nat) : Exact (word width) :=
  (exact_take width).bind fun _ => .pure _

theorem exact_argument (info : Nat) : Exact (argument info) :=
  .ite (.pure _) <| .ite (exact_word 1) <| .ite (exact_word 2) <| .ite (exact_word 4) <|
    .ite (exact_word 8) (.fail _)

theorem exact_initial (major : Nat) : Exact (initial major) :=
  exact_byte.bind fun _ => .ite (.pure _) (.fail _)

theorem exact_content (major : Nat) : Exact (content major) :=
  (exact_initial major).bind fun info => (exact_argument info).bind fun _ => exact_take _

theorem exact_lengthOf (major : Nat) : Exact (lengthOf major) :=
  (exact_initial major).bind fun info =>
    .ite (.pure _) ((exact_argument info).bind fun _ => .pure _)

theorem exact_uint : Exact readUInt :=
  (exact_initial 0).bind fun info => exact_argument info

theorem exact_uint8 : Exact readUInt8 :=
  exact_uint.bind fun _ => .ite (.pure _) (.fail _)

theorem exact_bool : Exact readBool :=
  exact_byte.bind fun _ => .ite (.pure _) <| .ite (.pure _) (.fail _)

theorem exact_tag : Exact readTag :=
  (exact_initial 6).bind fun info => exact_argument info

theorem exact_notAChunk : Exact notAChunk where
  toIncremental := incremental_notAChunk
  suffix {input _ _} h := by
    cases input with
    | nil => cases h
    | cons b tail => cases h
  demands {front back _ _} _ h := by
    cases hinput : front ++ back with
    | nil =>
      rw [hinput] at h
      cases h
    | cons b tail =>
      rw [hinput] at h
      cases h

section Strings

variable (major : Nat) (accept : Bytes → Bool)

theorem exact_chunks (rounds : Nat) : Exact (chunks major accept rounds) := by
  induction rounds with
  | zero => exact .fail _
  | succ rounds ih =>
    refine .afterPeek (fun _ => ?_) (takes_chunks major accept (rounds + 1))
    exact .ite (exact_byte.bind fun _ => .pure _) <| .ite exact_notAChunk <|
      (exact_content major).bind fun _ => .ite ih (.fail _)

theorem exact_skipString : Exact (skipString major accept) := by
  refine .afterPeek (fun _ => .ite ?_ ?_) (takes_skipString major accept)
  · exact exact_byte.bind fun _ =>
      .ofRounds (exact_chunks major accept) (chunks_rounds major accept)
  · exact (exact_content major).bind fun _ => .ite (.pure _) (.fail _)

end Strings

theorem exact_token : Exact token := by
  have head (f : UInt64 → Token) (info : Nat) : Exact (do return f (← argument info)) :=
    (exact_argument info).bind fun _ => .pure _
  refine .afterPeek (fun b => .ite ?_ <| .ite ?_ <| exact_byte.bind fun _ => .ite ?_ <| .ite ?_ <|
    .ite ?_ <| .ite (.pure _) ?_) takes_token
  · exact (exact_skipString 2 _).bind fun _ => .pure _
  · exact (exact_skipString 3 _).bind fun _ => .pure _
  · exact .ite (.pure _) (head (fun n => .opening (some n.toNat)) _)
  · exact .ite (.pure _) (head (fun n => .opening (some (2 * n.toNat))) _)
  · exact head (fun _ => .tag) _
  · exact head (fun _ => .leaf) _

/-! ## The extent of an item -/

theorem exact_skipPending (rounds : Nat) (p : Pending) : Exact (skipPending rounds p) := by
  induction rounds generalizing p with
  | zero => exact .fail _
  | succ rounds ih =>
    refine exact_token.bind fun t => ?_
    cases p.after t with
    | none => exact .pure _
    | some next => exact ih next

theorem exact_skipItem : Exact skipItem :=
  .ofRounds (fun n => exact_skipPending n .one) skipPending_rounds

theorem takes_skipItem : Takes 1 skipItem where
  le_length {input a rest} h := by
    -- the first token takes a byte, and nothing gives one back
    have hpending : (skipPending (input.length + 1) .one).run input = .ok (a, rest) := h
    rw [skipPending] at hpending
    rcases run_bind_cases hpending with ⟨t, between, ht, hafter⟩ | ⟨e, -, he⟩
    · have htoken := takes_token.le_length ht
      have hleft : rest.length ≤ between.length := by
        cases hnext : Pending.one.after t with
        | none =>
          rw [hnext] at hafter
          cases hafter
          exact Nat.le_refl _
        | some next =>
          rw [hnext] at hafter
          exact ((exact_skipPending input.length next).suffix hafter).length_le
      omega
    · cases he

/-- What is skipped is exactly one item. -/
theorem exists_isItem_of_skipItem {input rest : Bytes} (h : skipItem.run input = .ok ((), rest)) :
    ∃ item, input = item ++ rest ∧ IsItem item := by
  obtain ⟨item, rfl, hreads⟩ := exact_skipItem.exists_reads h
  have hne : item ≠ [] := by
    rintro rfl
    exact absurd (takes_skipItem.le_length h) (Nat.not_succ_le_self _)
  have halone : skipItem item = .ok ((), []) := by
    have hrun := hreads []
    rwa [List.append_nil] at hrun
  exact ⟨item, rfl, hne, by simp [itemLength?, halone]⟩

/-- The bytes of an item that are kept are one. -/
theorem isItem_of_rawItem {input item rest : Bytes} (h : rawItem.run input = .ok (item, rest)) :
    IsItem item := by
  simp only [run, rawItem] at h
  split at h
  · rename_i left hskip
    cases h
    obtain ⟨taken, rfl, htaken⟩ := exists_isItem_of_skipItem hskip
    rw [List.length_append, Nat.add_sub_cancel, List.take_left]
    exact htaken
  · cases h

/-- The bytes of an item are read back as they are. -/
theorem IsItem.reads_rawItem {item : Bytes} (h : IsItem item) : rawItem.Reads item item := by
  intro more
  have hskip : skipItem (item ++ more) = .ok ((), more) :=
    incremental_skipItem.accepts h.skipItem_eq more
  rw [run, rawItem, hskip]
  simp

/-- An item stands at the front of some bytes, or they are cut short before it is complete, or no item
begins like them. -/
theorem front_cases (bytes : Bytes) :
    (∃ item more, bytes = item ++ more ∧ IsItem item) ∨ itemLength? bytes = .ok none ∨
      ∃ fault, itemLength? bytes = .error fault := by
  unfold itemLength?
  cases hskip : skipItem bytes with
  | ok read =>
    obtain ⟨item, hbytes, hitem⟩ := exists_isItem_of_skipItem hskip
    exact .inl ⟨item, read.2, hbytes, hitem⟩
  | error fault =>
    cases fault with
    | truncated => exact .inr (.inl rfl)
    | malformed => exact .inr (.inr ⟨.malformed, rfl⟩)

end BlockFeed.Cbor
