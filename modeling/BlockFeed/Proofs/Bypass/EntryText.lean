import BlockFeed.Bypass.Range

/-!
# The forms of a bypass entry

An entry spans the heights from one to another, both included. As a text it is one numeral, or two numerals
joined by a hyphen; there may be white space around either (`Entry.Spans`). These forms are accepted and no
others (`Entry.range_eq_ok_iff`).

Neither digits, nor the plus sign, nor white space can be taken for the hyphen, and numerals hold no white
space. So it does not matter in which order a text is trimmed, split and read.
-/

namespace BlockFeed

/-! ## White space at the ends -/

namespace Blank

/-- Text that is nothing but white space. -/
def IsGap (cs : List Char) : Prop := ∀ c ∈ cs, isBlank c = true

theorem IsGap.append {front back : List Char} (hfront : IsGap front) (hback : IsGap back) :
    IsGap (front ++ back) := by
  intro c hc
  rcases List.mem_append.mp hc with hc | hc
  · exact hfront c hc
  · exact hback c hc

/-- A text is what is left of it when it is trimmed, between white space. -/
theorem exists_trim (cs : List Char) :
    ∃ before after, IsGap before ∧ IsGap after ∧ cs = before ++ (trim cs ++ after) := by
  refine ⟨cs.takeWhile isBlank, ((cs.dropWhile isBlank).reverse.takeWhile isBlank).reverse, ?_, ?_, ?_⟩
  · intro c hc
    exact List.all_eq_true.mp List.all_takeWhile c hc
  · intro c hc
    exact List.all_eq_true.mp List.all_takeWhile c (List.mem_reverse.mp hc)
  · rw [trim, ← List.reverse_append, List.takeWhile_append_dropWhile, List.reverse_reverse,
      List.takeWhile_append_dropWhile]

/-- White space is dropped up to the first other character. -/
theorem dropWhile_gap {before : List Char} (h : IsGap before) {c : Char} (hc : isBlank c = false)
    (rest : List Char) : (before ++ c :: rest).dropWhile isBlank = c :: rest := by
  rw [List.dropWhile_append_of_pos h, List.dropWhile_cons_of_neg (by simp [hc])]

/-- What begins and ends with something else than white space is what is left of a text when the white
space around it is trimmed. -/
theorem trim_eq {before after middle : List Char} {first last : Char} (hbefore : IsGap before)
    (hafter : IsGap after) (hfirst : isBlank first = false) (hlast : isBlank last = false)
    (hmiddle : ∃ rest front, middle = first :: rest ∧ middle = front ++ [last]) :
    trim (before ++ (middle ++ after)) = middle := by
  obtain ⟨rest, front, hhead, hend⟩ := hmiddle
  have hstart : (before ++ (middle ++ after)).dropWhile isBlank = middle ++ after := by
    rw [hhead, List.cons_append, dropWhile_gap hbefore hfirst]
  have hback : (middle ++ after).reverse = after.reverse ++ last :: front.reverse := by
    rw [hend]
    simp
  have hgap : IsGap after.reverse := fun c hc => hafter c (List.mem_reverse.mp hc)
  rw [trim, hstart, hback, dropWhile_gap hgap hlast, hend]
  simp

end Blank

/-! ## Numerals -/

namespace Numeral

/-- A number in decimal, perhaps with zeros before it. -/
def IsDecimal (n : Nat) (cs : List Char) : Prop :=
  cs ≠ [] ∧ (∀ c ∈ cs, isDigit c = true) ∧ Nat.ofDigitChars 10 cs 0 = n

/-- The texts of a word: its decimals, alone or after a plus sign. -/
inductive Spells (n : UInt64) : List Char → Prop where
  | plain {digits : List Char} (h : IsDecimal n.toNat digits) : Spells n digits
  | signed {digits : List Char} (h : IsDecimal n.toNat digits) : Spells n ('+' :: digits)

theorem natural?_eq_some_iff {cs : List Char} {n : Nat} : natural? cs = some n ↔ IsDecimal n cs := by
  unfold natural? IsDecimal
  split
  · rename_i hbad
    refine iff_of_false (fun h => nomatch h) fun ⟨hne, hdigits, _⟩ => ?_
    have hall : cs.all isDigit = true := List.all_eq_true.mpr hdigits
    simp [hall, hne] at hbad
  · rename_i hgood
    simp only [Bool.or_eq_true, List.isEmpty_iff, Bool.not_eq_true', not_or, Bool.not_eq_false,
      List.all_eq_true] at hgood
    rw [and_iff_right hgood.1, and_iff_right hgood.2, Option.some.injEq]

/-- A number that is below the bound of a word is read as that word. -/
theorem map_filter_eq_some_iff {found : Option Nat} {n : UInt64} :
    (found.filter (· < UInt64.size)).map UInt64.ofNat = some n ↔ found = some n.toNat := by
  cases found with
  | none => simp
  | some m =>
    have hlt : n.toNat < UInt64.size := n.toNat_lt
    rw [Option.filter_some, Option.some.injEq]
    by_cases hm : m < UInt64.size
    · simp [hm, ← UInt64.toNat_inj, UInt64.toNat_ofNat_of_lt' hm]
    · refine iff_of_false (by simp [hm]) ?_
      rintro rfl
      exact hm hlt

/-- The texts that are read as a word are those that spell it. -/
theorem word?_eq_some_iff {cs : List Char} {n : UInt64} : word? cs = some n ↔ Spells n cs := by
  unfold word? below?
  rw [map_filter_eq_some_iff, natural?_eq_some_iff]
  split
  · rename_i digits
    refine ⟨.signed, fun h => ?_⟩
    cases h with
    | plain h => exact absurd (h.2.1 '+' List.mem_cons_self) (by decide)
    | signed h => exact h
  · rename_i hplain
    refine ⟨.plain, fun h => ?_⟩
    cases h with
    | plain h => exact h
    | signed h => exact absurd rfl (hplain _)

/-- A numeral has a first and a last character. -/
theorem Spells.exists_ends {n : UInt64} {cs : List Char} (h : Spells n cs) :
    ∃ first last rest front, first ∈ cs ∧ last ∈ cs ∧ cs = first :: rest ∧ cs = front ++ [last] := by
  have hne : cs ≠ [] := by
    cases h with
    | plain h => exact h.1
    | signed h => exact List.cons_ne_nil _ _
  exact ⟨cs.head hne, cs.getLast hne, cs.tail, cs.dropLast, List.head_mem hne, List.getLast_mem hne,
    (List.cons_head_tail hne).symm, (List.dropLast_concat_getLast hne).symm⟩

/-- A numeral consists of digits, but for its sign. -/
theorem Spells.isDigit_or {n : UInt64} {cs : List Char} (h : Spells n cs) {c : Char} (hc : c ∈ cs) :
    isDigit c = true ∨ c = '+' := by
  cases h with
  | plain h => exact .inl (h.2.1 c hc)
  | signed h =>
    rcases List.mem_cons.mp hc with rfl | hc
    · exact .inr rfl
    · exact .inl (h.2.1 c hc)

/-- No character of a numeral is white space. -/
theorem Spells.isBlank_eq_false {n : UInt64} {cs : List Char} (h : Spells n cs) {c : Char}
    (hc : c ∈ cs) : Blank.isBlank c = false := by
  rcases h.isDigit_or hc with hdigit | rfl
  · simp only [isDigit, Bool.and_eq_true, decide_eq_true_eq, Char.le_def, UInt32.le_iff_toNat_le] at hdigit
    have hlow : 48 ≤ c.toNat ∧ c.toNat ≤ 57 := hdigit
    simp [Blank.isBlank]
    omega
  · decide

/-- No character of a numeral is a hyphen. -/
theorem Spells.ne_hyphen {n : UInt64} {cs : List Char} (h : Spells n cs) {c : Char} (hc : c ∈ cs) :
    c ≠ '-' := by
  rintro rfl
  rcases h.isDigit_or hc with hdigit | hsign
  · exact absurd hdigit (by decide)
  · exact absurd hsign (by decide)

/-- A numeral is what is left of a text when the white space around it is trimmed. -/
theorem Spells.trim_eq {n : UInt64} {cs before after : List Char} (h : Spells n cs)
    (hbefore : Blank.IsGap before) (hafter : Blank.IsGap after) :
    Blank.trim (before ++ (cs ++ after)) = cs := by
  obtain ⟨first, last, rest, front, hfirst, hlast, hhead, hend⟩ := h.exists_ends
  exact Blank.trim_eq hbefore hafter (h.isBlank_eq_false hfirst) (h.isBlank_eq_false hlast)
    ⟨rest, front, hhead, hend⟩

end Numeral

/-! ## Entries -/

namespace Bypass

open Blank (IsGap)
open Numeral (Spells)

/-- An entry spans the heights from one to another, both included. -/
inductive Entry.Spans : Entry → UInt64 → UInt64 → Prop where
  | height (h : UInt64) : Spans (.height h) h h
  | single {text : String} {before numeral after : List Char} {h : UInt64} (hbefore : IsGap before)
      (hafter : IsGap after) (hnumeral : Spells h numeral)
      (htext : text.toList = before ++ (numeral ++ after)) : Spans (.text text) h h
  | pair {text : String} {before left inner inner' right after : List Char} {first last : UInt64}
      (hbefore : IsGap before) (hinner : IsGap inner) (hinner' : IsGap inner') (hafter : IsGap after)
      (hleft : Spells first left) (hright : Spells last right) (hle : first ≤ last)
      (htext : text.toList = before ++ (left ++ (inner ++ '-' :: (inner' ++ (right ++ after))))) :
      Spans (.text text) first last

namespace Range

theorem splitAtHyphen_of_not_mem {cs : List Char} (h : ∀ c ∈ cs, c ≠ '-') : splitAtHyphen cs = none := by
  have hpass : ∀ c ∈ cs, decide (c ≠ '-') = true := by simpa using h
  have hnone : (cs ++ []).dropWhile (· ≠ '-') = [] := List.dropWhile_append_of_pos hpass
  rw [List.append_nil] at hnone
  rw [splitAtHyphen, hnone]

theorem splitAtHyphen_append {before : List Char} (h : ∀ c ∈ before, c ≠ '-') (after : List Char) :
    splitAtHyphen (before ++ '-' :: after) = some (before, after) := by
  have hpass : ∀ c ∈ before, decide (c ≠ '-') = true := by simpa using h
  rw [splitAtHyphen, List.dropWhile_append_of_pos hpass, List.takeWhile_append_of_pos hpass]
  simp

/-- What is split lies before and after a hyphen. -/
theorem eq_of_splitAtHyphen {cs before after : List Char} (h : splitAtHyphen cs = some (before, after)) :
    cs = before ++ '-' :: after := by
  unfold splitAtHyphen at h
  split at h
  · rename_i c rest hdrop
    cases h
    obtain rfl : c = '-' := by
      have hstop := List.head?_dropWhile_not (· ≠ '-') cs
      rw [hdrop] at hstop
      simpa using hstop
    rw [← hdrop, List.takeWhile_append_dropWhile]
  · cases h

/-- Two numerals and what stands between them are what is left of a text when the white space around them is
trimmed. -/
theorem trim_pair {before left between right after : List Char} {first last : UInt64}
    (hbefore : IsGap before) (hafter : IsGap after) (hleft : Spells first left)
    (hright : Spells last right) :
    Blank.trim (before ++ (left ++ (between ++ right) ++ after)) = left ++ (between ++ right) := by
  obtain ⟨c, -, rest, -, hc, -, hhead, -⟩ := hleft.exists_ends
  obtain ⟨-, d, -, front, -, hd, -, hend⟩ := hright.exists_ends
  refine Blank.trim_eq hbefore hafter (hleft.isBlank_eq_false hc) (hright.isBlank_eq_false hd)
    ⟨rest ++ (between ++ right), left ++ (between ++ front), ?_, ?_⟩
  · rw [hhead, List.cons_append]
  · rw [hend]
    simp only [List.append_assoc]

/-- A text of one of the forms is read as the range that it spans. -/
theorem ofText_of_spans {text : String} {first last : UInt64} (h : (Entry.text text).Spans first last) :
    ofText text = .ok (inclusive first last) := by
  cases h with
  | single hbefore hafter hnumeral htext =>
    rw [ofText, htext, hnumeral.trim_eq hbefore hafter,
      splitAtHyphen_of_not_mem fun c hc => hnumeral.ne_hyphen hc, Numeral.word?_eq_some_iff.mpr hnumeral]
    rfl
  | @pair _ before left inner inner' right after _ _ hbefore hinner hinner' hafter hleft hright hle htext =>
    have hgap : IsGap [] := fun _ hc => nomatch hc
    have hshape : text.toList
        = before ++ (left ++ ((inner ++ '-' :: inner') ++ right) ++ after) := by
      rw [htext]
      simp only [List.append_assoc, List.cons_append]
    have htrim : Blank.trim text.toList = (left ++ inner) ++ '-' :: (inner' ++ right) := by
      rw [hshape, trim_pair hbefore hafter hleft hright]
      simp only [List.append_assoc, List.cons_append]
    have hsplit : splitAtHyphen (Blank.trim text.toList) = some (left ++ inner, inner' ++ right) := by
      rw [htrim]
      refine splitAtHyphen_append (fun c hc => ?_) _
      rcases List.mem_append.mp hc with hc | hc
      · exact hleft.ne_hyphen hc
      · rintro rfl
        exact absurd (hinner _ hc) (by decide)
    have hfirst : Blank.trim (left ++ inner) = left := hleft.trim_eq hgap hinner
    have hlast : Blank.trim (inner' ++ right) = right := by
      simpa using hright.trim_eq hinner' hgap
    rw [ofText, hsplit]
    dsimp only
    rw [hfirst, hlast, Numeral.word?_eq_some_iff.mpr hleft, Numeral.word?_eq_some_iff.mpr hright]
    exact if_neg (UInt64.not_lt.mpr hle)

/-- A text that is read has one of the forms. -/
theorem exists_spans_of_ofText {text : String} {r : Range} (h : ofText text = .ok r) :
    ∃ first last, (Entry.text text).Spans first last ∧ r = inclusive first last := by
  obtain ⟨before, after, hbefore, hafter, htext⟩ := Blank.exists_trim text.toList
  unfold ofText at h
  dsimp only at h
  split at h
  · split at h
    · rename_i n hword
      cases h
      exact ⟨n, n, .single hbefore hafter (Numeral.word?_eq_some_iff.mp hword) htext, rfl⟩
    · cases h
  · rename_i left right hsplit
    split at h
    · rename_i first last hfirst hlast
      split at h
      · cases h
      · rename_i hle
        cases h
        obtain ⟨outer, inner, houter, hinner, hleft⟩ := Blank.exists_trim left
        obtain ⟨inner', outer', hinner', houter', hright⟩ := Blank.exists_trim right
        refine ⟨first, last, .pair (hbefore.append houter) hinner hinner' (houter'.append hafter)
          (Numeral.word?_eq_some_iff.mp hfirst) (Numeral.word?_eq_some_iff.mp hlast)
          (UInt64.not_lt.mp hle) ?_, rfl⟩
        calc text.toList = before ++ (left ++ '-' :: right ++ after) := by
              rw [eq_of_splitAtHyphen hsplit] at htext
              exact htext
          _ = before ++ (outer ++ (Blank.trim left ++ inner)
                ++ '-' :: (inner' ++ (Blank.trim right ++ outer')) ++ after) := by
              rw [← hleft, ← hright]
          _ = _ := by simp only [List.append_assoc, List.cons_append]
    · cases h

end Range

/-- The entries that are accepted are those that span some heights; their range holds these. -/
theorem Entry.range_eq_ok_iff {entry : Entry} {r : Range} :
    entry.range = .ok r ↔ ∃ first last, entry.Spans first last ∧ r = .inclusive first last := by
  cases entry with
  | height h =>
    constructor
    · intro hr
      cases hr
      exact ⟨h, h, .height h, rfl⟩
    · rintro ⟨first, last, hspans, rfl⟩
      cases hspans
      rfl
  | text text =>
    constructor
    · exact Range.exists_spans_of_ofText
    · rintro ⟨first, last, hspans, rfl⟩
      exact Range.ofText_of_spans hspans

end Bypass

end BlockFeed
