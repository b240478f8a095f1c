import BlockFeed.Proofs.Cbor.Exact

/-!
# Well-formed items

The grammar of the items that are skipped by counting (`WellFormed`): integers, strings in one piece or in
chunks, arrays and maps that tell their length, tags, simple values and floats. Heads may have any width.

Skipping keeps a number of items that are still owed, which an array or a map raises by what it holds.
`skipItems` is that loop without its bound on the rounds. The loop pays for each item of the grammar exactly
once, however deep it is nested (`WellFormed.run_skipItems`), so a well-formed item is recognised to its
end (`WellFormed.isItem`), and every proper beginning of an item as one (`IsItem.itemLength?_of_front`).
-/

namespace BlockFeed.Cbor

open Reader

/-! ## The grammar -/

/-- A string in one piece: a head of its major type that tells the length, and a content that is fit for the
type. -/
inductive IsPiece (major : Nat) (accept : Bytes → Bool) : Bytes → Prop where
  | intro {n : UInt64} {head content : Bytes} (hhead : IsHead major n head)
      (hlength : n.toNat = content.length) (haccept : accept content = true) :
      IsPiece major accept (head ++ content)

/-- A string in one piece, or in any number of pieces between an initial byte of open length and a stop
byte. -/
inductive IsString (major : Nat) (accept : Bytes → Bool) : Bytes → Prop where
  | whole {bytes : Bytes} (h : IsPiece major accept bytes) : IsString major accept bytes
  | chunked {pieces : List Bytes} (h : ∀ piece ∈ pieces, IsPiece major accept piece) :
      IsString major accept (UInt8.ofNat (32 * major + 31) :: (pieces.flatten ++ [stopByte]))

/-- A well-formed item whose arrays and maps have definite lengths. Of a map `items` are its keys and values
in turn. -/
inductive WellFormed : Bytes → Prop where
  | integer {major : Nat} {n : UInt64} {bytes : Bytes} (hmajor : major < 2)
      (h : IsHead major n bytes) : WellFormed bytes
  | bytes {bytes : Bytes} (h : IsString 2 (fun _ => true) bytes) : WellFormed bytes
  | text {bytes : Bytes} (h : IsString 3 isText bytes) : WellFormed bytes
  | array {n : UInt64} {head : Bytes} {items : List Bytes} (hhead : IsHead 4 n head)
      (hlength : items.length = n.toNat) (hitems : ∀ item ∈ items, WellFormed item) :
      WellFormed (head ++ items.flatten)
  | map {n : UInt64} {head : Bytes} {items : List Bytes} (hhead : IsHead 5 n head)
      (hlength : items.length = 2 * n.toNat) (hitems : ∀ item ∈ items, WellFormed item) :
      WellFormed (head ++ items.flatten)
  | tag {n : UInt64} {head item : Bytes} (hhead : IsHead 6 n head) (hitem : WellFormed item) :
      WellFormed (head ++ item)
  /-- A simple value, or a float in two, four or eight bytes. -/
  | simple {n : UInt64} {bytes : Bytes} (h : IsHead 7 n bytes) : WellFormed bytes

/-! ## Tokens -/

theorem parts_initialByte {major info : Nat} (hmajor : major < 8) (hinfo : info < 32) :
    (UInt8.ofNat (32 * major + info)).toNat / 32 = major ∧
      (UInt8.ofNat (32 * major + info)).toNat % 32 = info := by
  rw [UInt8.toNat_ofNat']
  omega

theorem run_peek_bind {α : Type} (f : UInt8 → Reader Fault α) (b : UInt8) (rest : Bytes) :
    (peek >>= f).run (b :: rest) = (f b).run (b :: rest) := rfl

theorem run_byte_bind {α : Type} (f : UInt8 → Reader Fault α) (b : UInt8) (rest : Bytes) :
    (byte >>= f).run (b :: rest) = (f b).run rest := rfl

/-- The items that have to follow a token before what it begins is complete. -/
def Token.owed : Token → Nat
  | .opening (some items) => items
  | .tag => 1
  | _ => 0

/-- The token of a head that no string has. -/
def Token.ofHead (major : Nat) (n : UInt64) : Token :=
  if major = 4 then .opening (some n.toNat)
  else if major = 5 then .opening (some (2 * n.toNat))
  else if major = 6 then .tag
  else .leaf

theorem IsHead.reads_token {major : Nat} {n : UInt64} {bytes : Bytes} (h : IsHead major n bytes)
    (hmajor : major < 8) (hbytes : major ≠ 2) (htext : major ≠ 3) :
    token.Reads bytes (.ofHead major n) := by
  obtain ⟨info, body, hinfo, rfl, hbody⟩ := h.exists_argument
  obtain ⟨hhigh, hlow⟩ := parts_initialByte hmajor (Nat.lt_succ_of_lt hinfo)
  have hdefinite : info ≠ 31 := by omega
  intro more
  rw [List.cons_append, token, run_peek_bind]
  simp only [hhigh, hlow, if_neg hbytes, if_neg htext, run_byte_bind, if_neg hdefinite]
  rw [Token.ofHead]
  split
  · rw [run_bind, hbody more]
    rfl
  · split
    · rw [run_bind, hbody more]
      rfl
    · split
      · rw [run_bind, hbody more]
        rfl
      · rw [if_neg (by simp [hdefinite]), run_bind, hbody more]
        rfl

section Strings

variable {major : Nat} {accept : Bytes → Bool} {bytes : Bytes}

/-- A piece begins with its major type and a definite length, and its content is read. -/
theorem IsPiece.exists_content (hmajor : major < 8) (h : IsPiece major accept bytes) :
    ∃ info tail content, info < 31 ∧ bytes = UInt8.ofNat (32 * major + info) :: tail ∧
      (Cbor.content major).Reads bytes content ∧ accept content = true := by
  obtain ⟨hhead, hlength, haccept⟩ := h
  have hreads := hhead.reads_content hmajor hlength
  obtain ⟨info, body, hinfo, rfl, -⟩ := hhead.exists_argument
  exact ⟨info, _, _, hinfo, rfl, hreads, haccept⟩

theorem reads_chunks (hmajor : major < 8) {pieces : List Bytes}
    (h : ∀ piece ∈ pieces, IsPiece major accept piece) {rounds : Nat}
    (hrounds : pieces.flatten.length < rounds) :
    (chunks major accept rounds).Reads (pieces.flatten ++ [stopByte]) () := by
  induction pieces generalizing rounds with
  | nil =>
    obtain ⟨rounds, rfl⟩ := Nat.exists_eq_add_one_of_ne_zero (Nat.ne_zero_of_lt hrounds)
    exact fun _ => rfl
  | cons piece rest ih =>
    obtain ⟨rounds, rfl⟩ := Nat.exists_eq_add_one_of_ne_zero (Nat.ne_zero_of_lt hrounds)
    rw [List.forall_mem_cons] at h
    obtain ⟨info, tail, content, hinfo, rfl, hcontent, haccept⟩ := h.1.exists_content hmajor
    obtain ⟨hhigh, hlow⟩ := parts_initialByte hmajor (Nat.lt_succ_of_lt hinfo)
    have hgoesOn : UInt8.ofNat (32 * major + info) ≠ stopByte := by
      intro hstop
      rw [hstop] at hlow
      have hlast : stopByte.toNat % 32 = 31 := rfl
      omega
    -- a piece takes a byte at least, so the rounds last
    have hrest : (chunks major accept rounds).Reads (rest.flatten ++ [stopByte]) () := by
      refine ih h.2 ?_
      rw [List.flatten_cons, List.length_append, List.length_cons] at hrounds
      omega
    have hpiece : (do
        let piece ← Cbor.content major
        if accept piece then chunks major accept rounds else Reader.fail .malformed).Reads
          (UInt8.ofNat (32 * major + info) :: tail ++ (rest.flatten ++ [stopByte])) () := by
      refine hcontent.bind ?_
      rwa [if_pos haccept]
    intro more
    rw [List.flatten_cons, List.append_assoc, List.append_assoc, List.cons_append, chunks,
      run_peek_bind, if_neg hgoesOn, if_neg (not_not_intro hhigh)]
    simpa using hpiece more

theorem IsString.reads_skipString (hmajor : major < 8) (h : IsString major accept bytes) :
    (skipString major accept).Reads bytes () := by
  intro more
  cases h with
  | whole h =>
    obtain ⟨info, tail, content, hinfo, rfl, hcontent, haccept⟩ := h.exists_content hmajor
    obtain ⟨-, hlow⟩ := parts_initialByte hmajor (Nat.lt_succ_of_lt hinfo)
    rw [List.cons_append, skipString, run_peek_bind, if_neg (by omega)]
    refine hcontent.map ?_ more
    rw [if_pos haccept]
    exact .pure ()
  | @chunked pieces h =>
    obtain ⟨-, hlow⟩ := parts_initialByte hmajor (Nat.lt_succ_self 31)
    rw [List.cons_append, skipString, run_peek_bind, if_pos hlow]
    change (chunks major accept ((pieces.flatten ++ [stopByte] ++ more).length + 1)).run _ = _
    refine reads_chunks hmajor h ?_ more
    simp only [List.length_append]
    omega

/-- A string begins with its major type. -/
theorem IsString.exists_front (hmajor : major < 8) (h : IsString major accept bytes) :
    ∃ b tail, bytes = b :: tail ∧ b.toNat / 32 = major := by
  cases h with
  | whole h =>
    obtain ⟨info, tail, -, hinfo, rfl, -⟩ := h.exists_content hmajor
    exact ⟨_, tail, rfl, (parts_initialByte hmajor (Nat.lt_succ_of_lt hinfo)).1⟩
  | chunked h => exact ⟨_, _, rfl, (parts_initialByte hmajor (Nat.lt_succ_self 31)).1⟩

theorem IsString.reads_token_of_bytes (h : IsString 2 (fun _ => true) bytes) :
    token.Reads bytes .leaf := by
  have hskip := h.reads_skipString (by decide)
  obtain ⟨b, tail, rfl, hmajor⟩ := h.exists_front (by decide)
  intro more
  rw [List.cons_append, token, run_peek_bind, if_pos hmajor]
  exact hskip.map (.pure Token.leaf) more

theorem IsString.reads_token_of_text (h : IsString 3 isText bytes) : token.Reads bytes .leaf := by
  have hskip := h.reads_skipString (by decide)
  obtain ⟨b, tail, rfl, hmajor⟩ := h.exists_front (by decide)
  intro more
  rw [List.cons_append, token, run_peek_bind, if_neg (by omega), if_pos hmajor]
  exact hskip.map (.pure Token.leaf) more

end Strings

/-! ## Skipping by counting -/

/-- Skips a number of items, one after the other. -/
def skipItems : Nat → Reader Fault Unit
  | 0 => pure ()
  | n + 1 => fun input => skipPending (input.length + 1) ⟨n + 1, 0, []⟩ input

/-- While no level is set aside, a token pays for one item and owes those it leaves to be read. -/
theorem Pending.after_count {t : Token} (hstop : t ≠ .stop) (hopen : t ≠ .opening none) (n : Nat) :
    (⟨n + 1, 0, []⟩ : Pending).after t
      = if n + t.owed = 0 then none else some ⟨n + t.owed, 0, []⟩ := by
  cases t with
  | leaf => cases n <;> simp [after, settle, levelDone, Token.owed]
  | opening items =>
    cases items with
    | none => exact absurd rfl hopen
    | some items =>
      cases items with
      | zero => cases n <;> simp [after, enter, settle, levelDone, Token.owed]
      | succ items =>
        have hpaid : n + 1 + items = n + (items + 1) := by omega
        simp [after, enter, settle, levelDone, Token.owed, hpaid]
  | tag => simp [after, Token.owed]
  | stop => exact absurd rfl hstop

/-- The items that a token leaves are skipped after it. -/
theorem run_skipItems_of_token {n : Nat} {bytes : Bytes} {t : Token} (h : token.Reads bytes t)
    (hstop : t ≠ .stop) (hopen : t ≠ .opening none) (more : Bytes) :
    (skipItems (n + 1)).run (bytes ++ more) = (skipItems (n + t.owed)).run more := by
  have hafter := Pending.after_count hstop hopen n
  show (skipPending ((bytes ++ more).length + 1) ⟨n + 1, 0, []⟩).run (bytes ++ more) = _
  rw [skipPending, run_bind, h more]
  cases hcount : n + t.owed with
  | zero =>
    rw [hcount, if_pos rfl] at hafter
    simp only [hafter, skipItems]
  | succ count =>
    rw [hcount, if_neg (Nat.succ_ne_zero count)] at hafter
    simp only [hafter]
    have htakes := takes_token.le_length (h more)
    exact skipPending_rounds (by omega) (Nat.lt_succ_self _)

/-- Items that are each skipped as one are skipped as many as there are. -/
theorem run_skipItems_flatten {items : List Bytes}
    (h : ∀ item ∈ items, ∀ n more,
      (skipItems (n + 1)).run (item ++ more) = (skipItems n).run more) (n : Nat) (more : Bytes) :
    (skipItems (n + items.length)).run (items.flatten ++ more) = (skipItems n).run more := by
  induction items with
  | nil => rfl
  | cons item rest ih =>
    rw [List.forall_mem_cons] at h
    rw [List.flatten_cons, List.append_assoc, List.length_cons, ← Nat.add_assoc, h.1, ih h.2]

/-- However deep it is nested, a well-formed item is skipped as one. -/
theorem WellFormed.run_skipItems {bytes : Bytes} (h : WellFormed bytes) (n : Nat) (more : Bytes) :
    (skipItems (n + 1)).run (bytes ++ more) = (skipItems n).run more := by
  induction h generalizing n more with
  | integer hmajor h =>
    have htoken := h.reads_token (by omega) (by omega) (by omega)
    rw [Token.ofHead, if_neg (by omega), if_neg (by omega), if_neg (by omega)] at htoken
    exact run_skipItems_of_token htoken nofun nofun more
  | bytes h => exact run_skipItems_of_token h.reads_token_of_bytes nofun nofun more
  | text h => exact run_skipItems_of_token h.reads_token_of_text nofun nofun more
  | @array m head items hhead hlength hitems ih =>
    have htoken := hhead.reads_token (by decide) (by decide) (by decide)
    rw [List.append_assoc, run_skipItems_of_token htoken nofun nofun]
    show (skipItems (n + m.toNat)).run _ = _
    rw [← hlength, run_skipItems_flatten ih]
  | @map m head items hhead hlength hitems ih =>
    have htoken := hhead.reads_token (by decide) (by decide) (by decide)
    rw [List.append_assoc, run_skipItems_of_token htoken nofun nofun]
    show (skipItems (n + 2 * m.toNat)).run _ = _
    rw [← hlength, run_skipItems_flatten ih]
  | @tag m head item hhead hitem ih =>
    have htoken := hhead.reads_token (by decide) (by decide) (by decide)
    rw [List.append_assoc, run_skipItems_of_token htoken nofun nofun]
    exact ih n more
  | simple h =>
    have htoken := h.reads_token (by decide) (by decide) (by decide)
    exact run_skipItems_of_token htoken nofun nofun more

/-- A well-formed item is recognised to its end. -/
theorem WellFormed.isItem {bytes : Bytes} (h : WellFormed bytes) : IsItem bytes := by
  have hskip : skipItem bytes = .ok ((), []) := by
    have hrun := h.run_skipItems 0 []
    rwa [List.append_nil] at hrun
  have hne : bytes ≠ [] := by
    rintro rfl
    cases hskip
  exact ⟨hne, by simp [itemLength?, hskip]⟩

/-- Every proper beginning of an item is incomplete. -/
theorem IsItem.itemLength?_of_front {front back : Bytes} (h : IsItem (front ++ back))
    (hback : back ≠ []) : itemLength? front = .ok none := by
  have hlength : 0 < back.length := List.length_pos_iff.mpr hback
  rcases front_cases front with ⟨item, more, rfl, hitem⟩ | hfront | ⟨fault, hfront⟩
  · -- an item that ends before would be the one that is recognised
    have hwhole := h.2
    rw [List.append_assoc, hitem.itemLength?_append] at hwhole
    simp only [Except.ok.injEq, Option.some.injEq, List.length_append] at hwhole
    omega
  · exact hfront
  · have hwhole := h.2
    rw [itemLength?_append_of_error hfront] at hwhole
    cases hwhole

end BlockFeed.Cbor
