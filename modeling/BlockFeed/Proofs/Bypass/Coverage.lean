import BlockFeed.Proofs.Window
import BlockFeed.DataSource

/-!
# The heights of a set of ranges

A set made from ranges has the heights of these ranges and no others (`contains_ofList`): joining ranges
that overlap or touch covers nothing new (`covers_join`), and in ranges that ascend by their starts the
first one that ends beyond a height is the only one that has to be looked at (`contains_iff_covers`).

The gaps of a list of periods have exactly the heights, from the initial one on, that lie in no period
(`covers_gapsFrom`). Only the order of the starts matters for that: a period may lie within another, end
below its start, or never end.
-/

namespace BlockFeed

open Bypass (Range)

/-- A range has the heights between its ends, the second one left out. -/
theorem Bypass.Range.contains_iff {r : Range} {h : UInt64} :
    r.contains h = true ↔ r.start.toNat ≤ h.toNat ∧ h.toNat < r.stop.toNat := by
  simp [contains, UInt64.le_iff_toNat_le, UInt64.lt_iff_toNat_lt]

namespace BypassRanges

/-- A height lies in one of some ranges. -/
def Covers (ranges : List Range) (h : UInt64) : Prop := ∃ r ∈ ranges, r.contains h = true

theorem covers_cons {r : Range} {rest : List Range} {h : UInt64} :
    Covers (r :: rest) h ↔ r.contains h = true ∨ Covers rest h := by
  simp [Covers]

theorem covers_append {front back : List Range} {h : UInt64} :
    Covers (front ++ back) h ↔ Covers front h ∨ Covers back h := by
  simp only [Covers, List.mem_append, or_and_right, exists_or]

/-- Ranges ascend by their starts. -/
def Ascends (ranges : List Range) : Prop := ranges.Pairwise fun a b => a.start ≤ b.start

/-- If ranges ascend, the first one that ends beyond a height tells whether one of them holds it. -/
theorem contains_iff_covers {ranges : List Range} (hranges : Ascends ranges) {h : UInt64} :
    (⟨ranges⟩ : BypassRanges).contains h = true ↔ Covers ranges h := by
  unfold contains
  cases hfind : ranges.find? (h < ·.stop) with
  | none =>
    refine iff_of_false Bool.false_ne_true ?_
    rintro ⟨r, hmem, hr⟩
    have hstop := List.find?_eq_none.mp hfind r hmem
    rw [Range.contains_iff] at hr
    simp only [decide_eq_true_eq, UInt64.lt_iff_toNat_lt] at hstop
    omega
  | some first =>
    obtain ⟨hfirst, before, after, rfl, hbefore⟩ := List.find?_eq_some_iff_append.mp hfind
    simp only [decide_eq_true_eq, UInt64.lt_iff_toNat_lt] at hfirst
    refine ⟨fun hr => ⟨first, by simp, hr⟩, ?_⟩
    rintro ⟨r, hmem, hr⟩
    rcases List.mem_append.mp hmem with hmem | hmem
    · -- the ranges before it end at or below the height
      have hstop := hbefore r hmem
      rw [Range.contains_iff] at hr
      simp [UInt64.lt_iff_toNat_lt] at hstop
      omega
    · rcases List.mem_cons.mp hmem with rfl | hmem
      · exact hr
      · -- those after it start at or above its start
        have hstart := (List.pairwise_cons.mp (List.pairwise_append.mp hranges).2.1).1 r hmem
        rw [UInt64.le_iff_toNat_le] at hstart
        rw [Range.contains_iff] at hr ⊢
        omega

/-! ## Joined ranges -/

/-- Two ranges that overlap or touch are one. -/
theorem contains_joined {a b : Range} (hstart : a.start ≤ b.start) (htouch : b.start ≤ a.stop)
    {h : UInt64} : ({ a with stop := max a.stop b.stop } : Range).contains h = true ↔
      a.contains h = true ∨ b.contains h = true := by
  rw [UInt64.le_iff_toNat_le] at hstart htouch
  simp only [Range.contains_iff, Word.toNat_max]
  omega

/-- Joining ranges that ascend covers the same heights. -/
theorem covers_join {last : Range} {rest : List Range} (hranges : Ascends (last :: rest)) {h : UInt64} :
    Covers (join last rest) h ↔ Covers (last :: rest) h := by
  fun_induction join last rest with
  | case1 last => exact Iff.rfl
  | case2 last r rest htouch ih =>
    obtain ⟨hlast, hrest⟩ := List.pairwise_cons.mp hranges
    have hjoined : Ascends ({ last with stop := max last.stop r.stop } :: rest) :=
      List.pairwise_cons.mpr ⟨fun q hq => hlast q (List.mem_cons_of_mem _ hq), hrest.tail⟩
    rw [ih hjoined, covers_cons, contains_joined (hlast r List.mem_cons_self) htouch, covers_cons,
      covers_cons, or_assoc]
  | case3 last r rest hapart ih =>
    exact covers_cons.trans ((or_congr_right (ih hranges.tail)).trans covers_cons.symm)

/-- Joined ranges ascend, and none of them starts before the first. -/
theorem ascends_join {last : Range} {rest : List Range} (hranges : Ascends (last :: rest)) :
    Ascends (join last rest) ∧ ∀ r ∈ join last rest, last.start ≤ r.start := by
  fun_induction join last rest with
  | case1 last =>
    refine ⟨hranges, fun r hr => ?_⟩
    rw [List.mem_singleton.mp hr]
    exact UInt64.le_refl _
  | case2 last r rest htouch ih =>
    obtain ⟨hlast, hrest⟩ := List.pairwise_cons.mp hranges
    exact ih (List.pairwise_cons.mpr ⟨fun q hq => hlast q (List.mem_cons_of_mem _ hq), hrest.tail⟩)
  | case3 last r rest hapart ih =>
    obtain ⟨hlast, hrest⟩ := List.pairwise_cons.mp hranges
    obtain ⟨hascends, hstarts⟩ := ih hrest
    have hfirst : ∀ q ∈ join r rest, last.start ≤ q.start := by
      intro q hq
      exact UInt64.le_trans (hlast r List.mem_cons_self) (hstarts q hq)
    refine ⟨List.pairwise_cons.mpr ⟨hfirst, hascends⟩, fun q hq => ?_⟩
    rcases List.mem_cons.mp hq with rfl | hq
    · exact UInt64.le_refl _
    · exact hfirst q hq

/-! ## Sets from lists -/

theorem precedes_iff {a b : Range} : precedes a b = true ↔
    a.start.toNat < b.start.toNat ∨ a.start.toNat = b.start.toNat ∧ a.stop.toNat ≤ b.stop.toNat := by
  simp [precedes, UInt64.le_iff_toNat_le, UInt64.lt_iff_toNat_lt, ← UInt64.toNat_inj]

/-- Sorted ranges ascend. -/
theorem ascends_mergeSort (ranges : List Range) : Ascends (ranges.mergeSort precedes) := by
  have hsorted : (ranges.mergeSort precedes).Pairwise fun a b => precedes a b = true := by
    refine List.pairwise_mergeSort (fun a b c => ?_) (fun a b => ?_) ranges
    · simp only [precedes_iff]
      omega
    · simp only [Bool.or_eq_true, precedes_iff]
      omega
  refine hsorted.imp fun {a b} hab => ?_
  rw [precedes_iff] at hab
  rw [UInt64.le_iff_toNat_le]
  omega

theorem ascends_ofList (ranges : List Range) : Ascends (ofList ranges).ranges := by
  have hsorted := ascends_mergeSort ranges
  unfold ofList
  cases hranges : ranges.mergeSort precedes with
  | nil => exact .nil
  | cons r rest => exact (ascends_join (hranges ▸ hsorted)).1

/-- A set that is made from ranges has their heights and no others. -/
theorem contains_ofList {ranges : List Range} {h : UInt64} :
    (ofList ranges).contains h = true ↔ Covers ranges h := by
  have hsorted := ascends_mergeSort ranges
  have hjoined : Covers (joinAll (ranges.mergeSort precedes)) h
      ↔ Covers (ranges.mergeSort precedes) h := by
    cases hranges : ranges.mergeSort precedes with
    | nil => exact Iff.rfl
    | cons r rest => exact covers_join (hranges ▸ hsorted)
  rw [contains_iff_covers (ascends_ofList ranges)]
  refine hjoined.trans ?_
  simp only [Covers, List.mem_mergeSort]

/-- The union of two sets has the heights of both. -/
theorem contains_merge {a b : BypassRanges} (ha : Ascends a.ranges) (hb : Ascends b.ranges) {h : UInt64} :
    (a.merge b).contains h = true ↔ a.contains h = true ∨ b.contains h = true := by
  rw [merge, contains_ofList, covers_append, contains_iff_covers ha, contains_iff_covers hb]

/-! ## Gaps -/

/-- A height lies in a period. -/
def Activation.Has (a : Activation) (h : UInt64) : Prop := a.1 ≤ h ∧ ∀ last, a.2 = some last → h ≤ last

theorem Activation.has_endless {start h : UInt64} : Activation.Has (start, none) h ↔ start ≤ h := by
  simp [Activation.Has]

theorem Activation.has_ending {start last h : UInt64} :
    Activation.Has (start, some last) h ↔ start ≤ h ∧ h ≤ last := by
  simp [Activation.Has]

theorem covers_ofBounds? {start stop h : UInt64} :
    Covers (Range.ofBounds? start stop).toList h ↔ start ≤ h ∧ h < stop := by
  unfold Range.ofBounds?
  split
  · simp [Covers, Range.contains]
  · rename_i hempty
    refine iff_of_false (fun ⟨r, hr, _⟩ => nomatch hr) ?_
    rw [UInt64.lt_iff_toNat_lt] at hempty
    rw [UInt64.le_iff_toNat_le, UInt64.lt_iff_toNat_lt]
    omega

/-- The gaps of periods that ascend by their starts: from a height on, all but those in a period. The
largest height is in no gap. -/
theorem covers_gapsFrom {next : UInt64} {activations : List Activation}
    (hsorted : activations.Pairwise fun a b => a.1 ≤ b.1) {h : UInt64} :
    Covers (gapsFrom next activations) h ↔
      h < Word.max ∧ next ≤ h ∧ ∀ a ∈ activations, ¬a.Has h := by
  -- the induction is on the periods; a height below the start of one is below those after it, too
  induction activations generalizing next with
  | nil => simp [gapsFrom, covers_ofBounds?, and_comm]
  | cons a rest ih =>
    obtain ⟨start, stop⟩ := a
    obtain ⟨hstart, hrest⟩ := List.pairwise_cons.mp hsorted
    have hbefore : h < start → ∀ a ∈ rest, ¬a.Has h := by
      intro hlt a ha hhas
      have hle : start ≤ h := UInt64.le_trans (hstart a ha) hhas.1
      rw [UInt64.lt_iff_toNat_lt] at hlt
      rw [UInt64.le_iff_toNat_le] at hle
      omega
    have hmax := start.toNat_lt
    have hword : Word.max.toNat = 2 ^ 64 - 1 := rfl
    unfold gapsFrom
    rw [covers_append, covers_ofBounds?, List.forall_mem_cons]
    cases stop with
    | none =>
      rw [Activation.has_endless]
      simp only [UInt64.le_iff_toNat_le, UInt64.lt_iff_toNat_lt] at hbefore ⊢
      constructor
      · rintro (hgap | ⟨r, hr, -⟩)
        · exact ⟨by omega, hgap.1, by omega, hbefore hgap.2⟩
        · cases hr
      · rintro ⟨-, hnext, hout, -⟩
        exact .inl ⟨hnext, by omega⟩
    | some last =>
      dsimp only
      rw [Activation.has_ending, ih hrest]
      simp only [UInt64.le_iff_toNat_le, UInt64.lt_iff_toNat_lt, Word.toNat_max,
        Word.toNat_satSucc] at hbefore ⊢
      constructor
      · rintro (hgap | ⟨hlow, hnext, hout⟩)
        · exact ⟨by omega, hgap.1, by omega, hbefore hgap.2⟩
        · exact ⟨hlow, by omega, by omega, hout⟩
      · rintro ⟨hlow, hnext, hin, hout⟩
        by_cases hgap : h.toNat < start.toNat
        · exact .inl ⟨hnext, hgap⟩
        · exact .inr ⟨hlow, by omega, hout⟩

/-- The place of an end among those of periods with one start: an endless period comes first. -/
def rank : Option UInt64 → Nat
  | none => 0
  | some last => last.toNat + 1

theorem activationPrecedes_iff {a b : Activation} : activationPrecedes a b = true ↔
    a.1.toNat < b.1.toNat ∨ a.1.toNat = b.1.toNat ∧ rank a.2 ≤ rank b.2 := by
  obtain ⟨start, stop⟩ := a
  obtain ⟨start', stop'⟩ := b
  cases stop <;> cases stop' <;>
    simp [activationPrecedes, rank, UInt64.le_iff_toNat_le, UInt64.lt_iff_toNat_lt, ← UInt64.toNat_inj]

/-- Sorted periods ascend by their starts. -/
theorem ascends_activations (activations : List Activation) :
    (activations.mergeSort activationPrecedes).Pairwise fun a b => a.1 ≤ b.1 := by
  have hsorted : (activations.mergeSort activationPrecedes).Pairwise
      fun a b => activationPrecedes a b = true := by
    refine List.pairwise_mergeSort (fun a b c => ?_) (fun a b => ?_) activations
    · simp only [activationPrecedes_iff]
      omega
    · simp only [Bool.or_eq_true, activationPrecedes_iff]
      omega
  refine hsorted.imp fun {a b} hab => ?_
  rw [activationPrecedes_iff] at hab
  rw [UInt64.le_iff_toNat_le]
  omega

theorem ascends_ofActivationGaps (initial : UInt64) (activations : List Activation) :
    Ascends (ofActivationGaps initial activations).ranges := by
  unfold ofActivationGaps
  split
  · exact .nil
  · exact ascends_ofList _

/-- The heights, from the initial one on, that lie in no period. Without any period there are none. -/
theorem contains_ofActivationGaps {initial : UInt64} {activations : List Activation} {h : UInt64} :
    (ofActivationGaps initial activations).contains h = true ↔
      h < Word.max ∧ activations ≠ [] ∧ initial ≤ h ∧ ∀ a ∈ activations, ¬a.Has h := by
  unfold ofActivationGaps
  split
  · rename_i hnone
    rw [List.isEmpty_iff.mp hnone]
    exact iff_of_false Bool.false_ne_true fun hgap => hgap.2.1 rfl
  · rename_i hsome
    rw [List.isEmpty_iff] at hsome
    rw [contains_ofList, covers_gapsFrom (ascends_activations activations), and_iff_right hsome]
    simp only [List.mem_mergeSort]

end BypassRanges

/-- A data source is active at the heights of its period. -/
theorem DataSource.isActiveAt_iff {source : DataSource} {h : UInt64} :
    source.isActiveAt h = true ↔ BypassRanges.Activation.Has source.activation h := by
  unfold isActiveAt activation BypassRanges.Activation.Has
  cases source.endBlock <;> simp

end BlockFeed
