import BlockFeed.Config
import BlockFeed.Proofs.Bypass.Coverage
import BlockFeed.Proofs.Bypass.EntryText

/-!
# What a configuration bypasses

The set of bypassed heights that a configuration describes is what its texts and periods say: a height is
bypassed if an entry spans it, or if there are data sources, none of which is active at it, and it is not
below the first height to be fetched (`Config.contains_bypassRanges`).

Ranges are kept by the height after their last one, so the largest height of all cannot be bypassed.
-/

namespace BlockFeed

open Bypass (Range Entry RangeError)

/-- A range with both its ends has the heights between them, except for the largest one of all. -/
theorem Bypass.Range.contains_inclusive {first last h : UInt64} :
    (inclusive first last).contains h = true ↔ h < Word.max ∧ first ≤ h ∧ h ≤ last := by
  have hmax : Word.max.toNat = 2 ^ 64 - 1 := rfl
  rw [contains_iff, inclusive, Word.toNat_satSucc]
  simp only [UInt64.le_iff_toNat_le, UInt64.lt_iff_toNat_lt]
  omega

namespace BypassRanges

/-- The ranges of entries are those of its elements. -/
theorem mem_of_mapM_range {entries : List Entry} {ranges : List Range}
    (h : entries.mapM Entry.range = .ok ranges) {r : Range} :
    r ∈ ranges ↔ ∃ entry ∈ entries, entry.range = .ok r := by
  induction entries generalizing ranges with
  | nil =>
    cases h
    simp
  | cons entry rest ih =>
    rw [List.mapM_cons] at h
    cases hentry : entry.range with
    | error e =>
      rw [hentry] at h
      cases h
    | ok found =>
      cases hrest : rest.mapM Entry.range with
      | error e =>
        rw [hentry, hrest] at h
        cases h
      | ok others =>
        rw [hentry, hrest] at h
        cases h
        simp [ih hrest, hentry, eq_comm]

/-- A set of entries is made from their ranges. -/
theorem exists_ranges_of_ofEntries {entries : List Entry} {s : BypassRanges}
    (hs : ofEntries entries = .ok s) :
    ∃ ranges, entries.mapM Entry.range = .ok ranges ∧ s = ofList ranges := by
  unfold ofEntries at hs
  cases hranges : entries.mapM Entry.range with
  | error e =>
    rw [hranges] at hs
    cases hs
  | ok ranges =>
    rw [hranges] at hs
    cases hs
    exact ⟨ranges, rfl, rfl⟩

theorem ascends_ofEntries {entries : List Entry} {s : BypassRanges} (hs : ofEntries entries = .ok s) :
    Ascends s.ranges := by
  obtain ⟨ranges, -, rfl⟩ := exists_ranges_of_ofEntries hs
  exact ascends_ofList ranges

/-- The configured heights are those that an entry spans. -/
theorem contains_ofEntries {entries : List Entry} {s : BypassRanges} (hs : ofEntries entries = .ok s)
    {h : UInt64} : s.contains h = true ↔ h < Word.max ∧
      ∃ entry ∈ entries, ∃ first last, entry.Spans first last ∧ first ≤ h ∧ h ≤ last := by
  obtain ⟨ranges, hranges, rfl⟩ := exists_ranges_of_ofEntries hs
  rw [contains_ofList]
  constructor
  · rintro ⟨r, hmem, hr⟩
    obtain ⟨entry, hentry, hrange⟩ := (mem_of_mapM_range hranges).mp hmem
    obtain ⟨first, last, hspans, rfl⟩ := Entry.range_eq_ok_iff.mp hrange
    obtain ⟨hmax, hbetween⟩ := Range.contains_inclusive.mp hr
    exact ⟨hmax, entry, hentry, first, last, hspans, hbetween⟩
  · rintro ⟨hmax, entry, hentry, first, last, hspans, hbetween⟩
    have hrange := Entry.range_eq_ok_iff.mpr ⟨first, last, hspans, rfl⟩
    exact ⟨_, (mem_of_mapM_range hranges).mpr ⟨entry, hentry, hrange⟩,
      Range.contains_inclusive.mpr ⟨hmax, hbetween⟩⟩

end BypassRanges

namespace Config

/-- The gaps are the heights from the initial one on at which no data source is active. -/
theorem contains_gaps {c : Config} {h : UInt64} :
    (BypassRanges.ofActivationGaps c.fetch.initialHeight
        (c.dataSources.map DataSource.activation)).contains h = true ↔
      h < Word.max ∧ c.dataSources ≠ [] ∧ c.fetch.initialHeight ≤ h ∧
        ∀ source ∈ c.dataSources, source.isActiveAt h = false := by
  rw [BypassRanges.contains_ofActivationGaps]
  simp only [List.forall_mem_map, ← DataSource.isActiveAt_iff, Bool.not_eq_true, ne_eq,
    List.map_eq_nil_iff]

/-- If the entries of a configuration can be read, the heights it bypasses are, except for the largest one
of all, those that an entry spans, and those from the initial height on at which there are data sources but
none is active. -/
theorem contains_bypassRanges {c : Config} {configured : BypassRanges}
    (hparse : BypassRanges.ofEntries c.bypassBlocks = .ok configured) :
    ∃ s, c.bypassRanges = .ok s ∧ ∀ h, s.contains h = true ↔ h < Word.max ∧
      ((∃ entry ∈ c.bypassBlocks, ∃ first last, entry.Spans first last ∧ first ≤ h ∧ h ≤ last) ∨
        (c.dataSources ≠ [] ∧ c.fetch.initialHeight ≤ h ∧
          ∀ source ∈ c.dataSources, source.isActiveAt h = false)) := by
  refine ⟨_, by rw [bypassRanges, hparse]; rfl, fun h => ?_⟩
  rw [BypassRanges.contains_merge (BypassRanges.ascends_ofEntries hparse)
    (BypassRanges.ascends_ofActivationGaps _ _), BypassRanges.contains_ofEntries hparse, contains_gaps,
    and_or_left]

/-- A height, a text with signs, zeros and white space, and three data sources that are not sorted: one ends
below its start, and one lies within another. -/
def sampleConfig : Config :=
  { fetch := { initialHeight := 14 }
    bypassBlocks := [.height 7, .text " +10 - 012\t"]
    dataSources := [⟨30, some 20, none⟩, ⟨15, some 40, none⟩, ⟨18, some 20, none⟩] }

/-- A height that the text spans is bypassed, and one after the last data source, but not the largest one of
all. -/
theorem contains_bypassRanges_sample :
    BypassRanges.ofEntries sampleConfig.bypassBlocks
        = .ok (.ofList [.single 7, .inclusive 10 12]) ∧
      ∃ s, sampleConfig.bypassRanges = .ok s ∧ s.contains 11 = true ∧ s.contains 50 = true ∧
        s.contains Word.max = false := by
  have htext : Entry.range (.text " +10 - 012\t") = .ok (.inclusive 10 12) := by cbv
  have hparse : BypassRanges.ofEntries sampleConfig.bypassBlocks
      = .ok (.ofList [.single 7, .inclusive 10 12]) := by
    simp only [BypassRanges.ofEntries, sampleConfig, List.mapM_cons, htext]
    rfl
  obtain ⟨s, hs, hcontains⟩ := contains_bypassRanges hparse
  obtain ⟨first, last, hspans, hrange⟩ := Entry.range_eq_ok_iff.mp htext
  have hbetween : 11 < Word.max ∧ first ≤ 11 ∧ 11 ≤ last := by
    rw [← Range.contains_inclusive, ← hrange]
    decide
  refine ⟨hparse, s, hs, (hcontains 11).mpr ⟨hbetween.1, .inl ?_⟩, (hcontains 50).mpr ?_, ?_⟩
  · exact ⟨.text " +10 - 012\t", by simp [sampleConfig], first, last, hspans, hbetween.2⟩
  · exact ⟨by decide, .inr ⟨by simp [sampleConfig], by decide, by decide⟩⟩
  · rw [Bool.eq_false_iff]
    intro hlargest
    exact absurd ((hcontains Word.max).mp hlargest).1 (by decide)

end Config

end BlockFeed
