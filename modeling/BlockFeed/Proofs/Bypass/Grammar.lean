import Mathlib.Data.List.TakeWhile
import BlockFeed.Proofs.Bypass.Configured

/-!
# What becomes of every bypass entry

A text stands for one height, or for two that its first hyphen joins, or for none at all (`Bypass.IsHeight`,
`Bypass.IsPair`). Reading it comes to three outcomes accordingly: a range, the error that the second height is
below the first, or the error that it is malformed. Which one it is depends on these forms only, and a list of
entries is as good as its first bad one (`outcomes_of_entries`).

Reading trims the whole text before it splits it. This can be left out, because the two parts are trimmed
anyway and no hyphen is white space (`Range.ofText_of_hyphen`).
-/

namespace BlockFeed

/-! ## White space -/

namespace Blank

variable {gap : List Char}

theorem IsGap.hyphen_not_mem (h : IsGap gap) : '-' ∉ gap := fun hmem =>
  absurd (h '-' hmem) (by decide)

theorem trim_gap_append (h : IsGap gap) (cs : List Char) : trim (gap ++ cs) = trim cs := by
  rw [trim, trim, List.dropWhile_append_of_pos h]

theorem trim_append_gap (h : IsGap gap) (cs : List Char) : trim (cs ++ gap) = trim cs := by
  have hback : ∀ c ∈ gap.reverse, isBlank c = true := fun c hc => h c (List.mem_reverse.mp hc)
  rw [trim, trim, List.dropWhile_append]
  split
  · rename_i hempty
    rw [List.isEmpty_iff.mp hempty, List.dropWhile_eq_nil_iff.mpr h]
  · rw [List.reverse_append, List.dropWhile_append_of_pos hback]

end Blank

namespace Numeral

/-- The texts of a word with white space around them, or without. -/
def SpellsPadded (n : UInt64) (cs : List Char) : Prop :=
  ∃ before numeral after, Blank.IsGap before ∧ Blank.IsGap after ∧ Spells n numeral ∧
    cs = before ++ (numeral ++ after)

/-- They are the texts that spell the word once they are trimmed. -/
theorem spellsPadded_iff {n : UInt64} {cs : List Char} :
    SpellsPadded n cs ↔ word? (Blank.trim cs) = some n := by
  rw [word?_eq_some_iff]
  constructor
  · rintro ⟨before, numeral, after, hbefore, hafter, hnumeral, rfl⟩
    rwa [hnumeral.trim_eq hbefore hafter]
  · intro h
    obtain ⟨before, after, hbefore, hafter, hcs⟩ := Blank.exists_trim cs
    exact ⟨before, _, after, hbefore, hafter, h, hcs⟩

/-- No hyphen stands in such a text. -/
theorem SpellsPadded.hyphen_not_mem {n : UInt64} {cs : List Char} (h : SpellsPadded n cs) :
    '-' ∉ cs := by
  obtain ⟨before, numeral, after, hbefore, hafter, hnumeral, rfl⟩ := h
  intro hmem
  rcases List.mem_append.mp hmem with hmem | hmem
  · exact hbefore.hyphen_not_mem hmem
  · rcases List.mem_append.mp hmem with hmem | hmem
    · exact hnumeral.ne_hyphen hmem rfl
    · exact hafter.hyphen_not_mem hmem

end Numeral

namespace Bypass

open Blank (IsGap)
open Numeral (SpellsPadded)

variable {text : String} {left right : List Char}

/-! ## Forms -/

/-- The text is one height. -/
def IsHeight (text : String) (height : UInt64) : Prop := SpellsPadded height text.toList

/-- The text is two heights, which its first hyphen joins. -/
def IsPair (text : String) (first last : UInt64) : Prop :=
  ∃ left right, text.toList = left ++ '-' :: right ∧ '-' ∉ left ∧
    SpellsPadded first left ∧ SpellsPadded last right

/-! ## Reading a text -/

namespace Range

/-- There is only one way to split a text at its first hyphen. -/
theorem split_unique {left right left' right' : List Char} (hleft : '-' ∉ left) (hleft' : '-' ∉ left')
    (h : left ++ '-' :: right = left' ++ '-' :: right') : left = left' ∧ right = right' := by
  have hsplit := splitAtHyphen_append (fun c hc heq => hleft (heq ▸ hc)) right
  rw [h, splitAtHyphen_append (fun c hc heq => hleft' (heq ▸ hc)) right'] at hsplit
  cases hsplit
  exact ⟨rfl, rfl⟩

/-- A text without a hyphen is read as one height. -/
theorem ofText_of_no_hyphen (h : '-' ∉ text.toList) :
    ofText text = match Numeral.word? (Blank.trim text.toList) with
      | some height => .ok (single height)
      | none => .error (.malformed text) := by
  obtain ⟨before, after, -, -, htext⟩ := Blank.exists_trim text.toList
  have htrimmed : ∀ c ∈ Blank.trim text.toList, c ≠ '-' := by
    rintro _ hmem rfl
    apply h
    rw [htext]
    exact List.mem_append_right _ (List.mem_append_left _ hmem)
  have hsplit := splitAtHyphen_of_not_mem htrimmed
  unfold ofText
  dsimp only
  generalize splitAtHyphen (Blank.trim text.toList) = parts at hsplit
  subst hsplit
  rfl

/-- A text with a hyphen is read as two heights. -/
theorem ofText_of_hyphen (htext : text.toList = left ++ '-' :: right) (hleft : '-' ∉ left) :
    ofText text = match Numeral.word? (Blank.trim left), Numeral.word? (Blank.trim right) with
      | some first, some last =>
        if last < first then .error (.inverted text) else .ok (inclusive first last)
      | _, _ => .error (.malformed text) := by
  obtain ⟨before, after, hbefore, hafter, hwhole⟩ := Blank.exists_trim text.toList
  -- the hyphen is not trimmed away
  have hmem : '-' ∈ Blank.trim text.toList := by
    have hyphen : '-' ∈ before ++ (Blank.trim text.toList ++ after) := by
      rw [← hwhole, htext]
      exact List.mem_append_right _ List.mem_cons_self
    rcases List.mem_append.mp hyphen with hmem | hmem
    · exact absurd hmem hbefore.hyphen_not_mem
    · exact (List.mem_append.mp hmem).resolve_right hafter.hyphen_not_mem
  obtain ⟨inner, inner', htrim, hinner⟩ := List.eq_append_cons_of_mem hmem
  obtain ⟨rfl, rfl⟩ : left = before ++ inner ∧ right = inner' ++ after := by
    refine split_unique hleft (fun hmem => ?_) ?_
    · exact (List.mem_append.mp hmem).elim hbefore.hyphen_not_mem hinner
    · rw [← htext, hwhole, htrim]
      simp only [List.append_assoc, List.cons_append]
  have hsplit := splitAtHyphen_append (fun c hc heq => hinner (heq ▸ hc)) inner'
  rw [← htrim] at hsplit
  rw [Blank.trim_gap_append hbefore, Blank.trim_append_gap hafter]
  unfold ofText
  dsimp only
  generalize splitAtHyphen (Blank.trim text.toList) = parts at hsplit
  subst hsplit
  rfl

end Range

/-! ## Outcomes -/

theorem Range.ofText_of_isHeight {height : UInt64} (h : IsHeight text height) :
    Range.ofText text = .ok (.single height) := by
  rw [ofText_of_no_hyphen h.hyphen_not_mem, Numeral.spellsPadded_iff.mp h]

theorem Range.ofText_of_isPair {first last : UInt64} (h : IsPair text first last) :
    Range.ofText text
      = if last < first then .error (.inverted text) else .ok (.inclusive first last) := by
  obtain ⟨left, right, htext, hleft, hfirst, hlast⟩ := h
  rw [ofText_of_hyphen htext hleft, Numeral.spellsPadded_iff.mp hfirst,
    Numeral.spellsPadded_iff.mp hlast]

theorem Range.ofText_of_neither (hheight : ¬∃ height, IsHeight text height)
    (hpair : ¬∃ first last, IsPair text first last) :
    Range.ofText text = .error (.malformed text) := by
  by_cases hyphen : '-' ∈ text.toList
  · obtain ⟨left, right, htext, hleft⟩ := List.eq_append_cons_of_mem hyphen
    rw [ofText_of_hyphen htext hleft]
    split
    · rename_i first last hfirst hlast
      exact absurd ⟨first, last, left, right, htext, hleft, Numeral.spellsPadded_iff.mpr hfirst,
        Numeral.spellsPadded_iff.mpr hlast⟩ hpair
    · rfl
  · rw [ofText_of_no_hyphen hyphen]
    split
    · rename_i height hword
      exact absurd ⟨height, Numeral.spellsPadded_iff.mpr hword⟩ hheight
    · rfl

/-- Every text has one of four outcomes. -/
theorem Range.ofText_cases (text : String) :
    (∃ n, IsHeight text n ∧ ofText text = .ok (single n)) ∨
      (∃ a b, IsPair text a b ∧ a ≤ b ∧ ofText text = .ok (inclusive a b)) ∨
      (∃ a b, IsPair text a b ∧ b < a ∧ ofText text = .error (.inverted text)) ∨
      (¬∃ n, IsHeight text n) ∧ (¬∃ a b, IsPair text a b) ∧ ofText text = .error (.malformed text) := by
  by_cases hheight : ∃ n, IsHeight text n
  · obtain ⟨n, hn⟩ := hheight
    exact .inl ⟨n, hn, ofText_of_isHeight hn⟩
  · by_cases hpair : ∃ a b, IsPair text a b
    · obtain ⟨a, b, hab⟩ := hpair
      have hread := ofText_of_isPair hab
      by_cases horder : b < a
      · rw [if_pos horder] at hread
        exact .inr (.inr (.inl ⟨a, b, hab, horder, hread⟩))
      · rw [if_neg horder] at hread
        exact .inr (.inl ⟨a, b, hab, UInt64.not_lt.mp horder, hread⟩)
    · exact .inr (.inr (.inr ⟨hheight, hpair, ofText_of_neither hheight hpair⟩))

theorem Range.exists_ofText_iff :
    (∃ r, ofText text = .ok r) ↔ (∃ n, IsHeight text n) ∨ ∃ a b, IsPair text a b ∧ a ≤ b := by
  constructor
  · rintro ⟨r, hr⟩
    rcases ofText_cases text with ⟨n, hn, -⟩ | ⟨a, b, hab, hle, -⟩ | ⟨a, b, -, -, hbad⟩ | ⟨-, -, hbad⟩
    · exact .inl ⟨n, hn⟩
    · exact .inr ⟨a, b, hab, hle⟩
    all_goals
      rw [hbad] at hr
      cases hr
  · rintro (⟨n, hn⟩ | ⟨a, b, hab, hle⟩)
    · exact ⟨_, ofText_of_isHeight hn⟩
    · exact ⟨_, (ofText_of_isPair hab).trans (if_neg (UInt64.not_lt.mpr hle))⟩

theorem Range.ofText_eq_inverted_iff :
    ofText text = .error (.inverted text) ↔ ∃ a b, IsPair text a b ∧ b < a := by
  constructor
  · intro h
    rcases ofText_cases text with ⟨n, -, hgood⟩ | ⟨a, b, -, -, hgood⟩ | ⟨a, b, hab, hlt, -⟩ | ⟨-, -, hbad⟩
    · rw [hgood] at h
      cases h
    · rw [hgood] at h
      cases h
    · exact ⟨a, b, hab, hlt⟩
    · rw [hbad] at h
      cases h
  · rintro ⟨a, b, hab, hlt⟩
    exact (ofText_of_isPair hab).trans (if_pos hlt)

theorem Range.ofText_eq_malformed_iff :
    ofText text = .error (.malformed text) ↔
      (¬∃ n, IsHeight text n) ∧ ¬∃ a b, IsPair text a b := by
  constructor
  · intro h
    rcases ofText_cases text with ⟨n, -, hgood⟩ | ⟨a, b, -, -, hgood⟩ | ⟨a, b, -, -, hbad⟩ | ⟨hn, hab, -⟩
    · rw [hgood] at h
      cases h
    · rw [hgood] at h
      cases h
    · rw [hbad] at h
      cases h
    · exact ⟨hn, hab⟩
  · rintro ⟨hn, hab⟩
    exact ofText_of_neither hn hab

/-- A single height is the range that holds it, unless it is the largest one of all. -/
theorem Range.contains_single {height h : UInt64} :
    (single height).contains h = true ↔ h < Word.max ∧ h = height := by
  rw [single, contains_inclusive]
  refine and_congr_right fun _ => ⟨fun hboth => UInt64.le_antisymm hboth.2 hboth.1, ?_⟩
  rintro rfl
  exact ⟨UInt64.le_refl _, UInt64.le_refl _⟩

end Bypass

/-! ## Lists of entries -/

/-- A list has a bad element behind good ones if its first element is bad, or it is good and the rest has. -/
theorem exists_split_cons {α : Type} {good bad : α → Prop} {first : α} {rest : List α} :
    (∃ before element after, first :: rest = before ++ element :: after ∧
        (∀ other ∈ before, good other) ∧ bad element) ↔
      bad first ∨ good first ∧ ∃ before element after, rest = before ++ element :: after ∧
        (∀ other ∈ before, good other) ∧ bad element := by
  constructor
  · rintro ⟨before, element, after, hsplit, hgood, hbad⟩
    cases before with
    | nil =>
      cases hsplit
      exact .inl hbad
    | cons other before =>
      cases hsplit
      exact .inr ⟨hgood first List.mem_cons_self, before, element, after, rfl,
        fun other hother => hgood other (List.mem_cons_of_mem _ hother), hbad⟩
  · rintro (hbad | ⟨hfirst, before, element, after, rfl, hgood, hbad⟩)
    · exact ⟨[], first, rest, rfl, nofun, hbad⟩
    · exact ⟨first :: before, element, after, rfl, List.forall_mem_cons.mpr ⟨hfirst, hgood⟩, hbad⟩

/-- A list fails with the first of its elements that does. -/
theorem mapM_eq_error_iff {α β ε : Type} {f : α → Except ε β} {elements : List α} {e : ε} :
    elements.mapM f = .error e ↔ ∃ before element after, elements = before ++ element :: after ∧
      (∀ other ∈ before, ∃ value, f other = .ok value) ∧ f element = .error e := by
  induction elements with
  | nil =>
    refine iff_of_false nofun ?_
    rintro ⟨before, element, after, hsplit, -⟩
    cases before <;> cases hsplit
  | cons first rest ih =>
    rw [exists_split_cons, ← ih, List.mapM_cons]
    cases f first with
    | error cause =>
      rw [or_iff_left (fun h => nomatch h.1), Except.error.injEq]
      exact (Except.error.injEq cause e).to_iff
    | ok value =>
      rw [or_iff_right nofun, and_iff_right ⟨value, rfl⟩]
      cases rest.mapM f with
      | error cause => exact Iff.rfl
      | ok values => exact iff_of_false nofun nofun

namespace BypassRanges

open Bypass (Entry Range IsHeight IsPair RangeError)

theorem ofEntries_eq_error_iff {entries : List Entry} {e : RangeError} :
    ofEntries entries = .error e ↔ ∃ before entry after, entries = before ++ entry :: after ∧
      (∀ other ∈ before, ∃ r, other.range = .ok r) ∧ entry.range = .error e := by
  rw [← mapM_eq_error_iff, ofEntries]
  cases entries.mapM Entry.range with
  | error cause =>
    show Except.error cause = Except.error e ↔ Except.error cause = Except.error e
    rw [Except.error.injEq, Except.error.injEq]
  | ok ranges => constructor <;> intro h <;> cases h

/-- Entries of which none is bad cover the heights of their ranges. -/
theorem exists_ofEntries {entries : List Entry} (h : ∀ entry ∈ entries, ∃ r, entry.range = .ok r) :
    ∃ s, ofEntries entries = .ok s ∧ ∀ height,
      s.contains height = true ↔ ∃ entry ∈ entries, ∃ r, entry.range = .ok r ∧ r.contains height = true := by
  cases hentries : ofEntries entries with
  | error e =>
    obtain ⟨before, entry, after, rfl, -, hbad⟩ := ofEntries_eq_error_iff.mp hentries
    obtain ⟨r, hgood⟩ := h entry (List.mem_append_right _ List.mem_cons_self)
    rw [hbad] at hgood
    cases hgood
  | ok s =>
    obtain ⟨ranges, hranges, rfl⟩ := exists_ranges_of_ofEntries hentries
    refine ⟨_, rfl, fun height => ?_⟩
    rw [contains_ofList]
    constructor
    · rintro ⟨r, hr, hcontains⟩
      obtain ⟨entry, hentry, hrange⟩ := (mem_of_mapM_range hranges).mp hr
      exact ⟨entry, hentry, r, hrange, hcontains⟩
    · rintro ⟨entry, hentry, r, hrange, hcontains⟩
      exact ⟨r, (mem_of_mapM_range hranges).mpr ⟨entry, hentry, hrange⟩, hcontains⟩

/-- A text that is one height is read as a range that has this height alone, and one that is two heights as a
range of all heights between them, if they are not in the wrong order. No range has the largest height of all. Texts
of heights in the wrong order and all other ones are refused, each for its own reason. Entries are refused for the
reason of the first bad one; if there is none, they cover what their ranges have. -/
theorem outcomes_of_entries (text : String) (entries : List Entry) :
    ((∃ r, Range.ofText text = .ok r) ↔
        (∃ n, IsHeight text n) ∨ ∃ a b, IsPair text a b ∧ a ≤ b) ∧
      (∀ n, IsHeight text n → ∃ r, Range.ofText text = .ok r ∧
        ∀ h, r.contains h = true ↔ h < Word.max ∧ h = n) ∧
      (∀ a b, IsPair text a b → a ≤ b → ∃ r, Range.ofText text = .ok r ∧
        ∀ h, r.contains h = true ↔ h < Word.max ∧ a ≤ h ∧ h ≤ b) ∧
      (Range.ofText text = .error (.inverted text) ↔ ∃ a b, IsPair text a b ∧ b < a) ∧
      (Range.ofText text = .error (.malformed text) ↔
        (¬∃ n, IsHeight text n) ∧ ¬∃ a b, IsPair text a b) ∧
      (∀ e, ofEntries entries = .error e ↔ ∃ before entry after, entries = before ++ entry :: after ∧
        (∀ other ∈ before, ∃ r, other.range = .ok r) ∧ entry.range = .error e) ∧
      ((∀ entry ∈ entries, ∃ r, entry.range = .ok r) → ∃ s, ofEntries entries = .ok s ∧ ∀ h,
        s.contains h = true ↔ ∃ entry ∈ entries, ∃ r, entry.range = .ok r ∧ r.contains h = true) := by
  refine ⟨Range.exists_ofText_iff, fun n hn => ?_, fun a b hab hle => ?_, Range.ofText_eq_inverted_iff,
    Range.ofText_eq_malformed_iff, fun e => ofEntries_eq_error_iff, exists_ofEntries⟩
  · exact ⟨_, Range.ofText_of_isHeight hn, fun h => Range.contains_single⟩
  · exact ⟨_, (Range.ofText_of_isPair hab).trans (if_neg (UInt64.not_lt.mpr hle)),
      fun h => Range.contains_inclusive⟩

end BypassRanges

end BlockFeed
