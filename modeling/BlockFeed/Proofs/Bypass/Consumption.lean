import BlockFeed.Bypass.Ranges

/-!
# Passing bypass ranges

The ranges that the feed has passed are forgotten. Above the height it has come to the set is the same
as before (`contains_consumeThrough`), so that forgetting is never noticed.
-/

namespace BlockFeed.BypassRanges

open Bypass (Range)

/-- The heights outside a set, in their order. -/
theorem mem_strip {s : BypassRanges} {heights : List UInt64} {h : UInt64} :
    h ∈ s.strip heights ↔ h ∈ heights ∧ s.contains h = false := by
  rw [strip, List.mem_filter, Bool.not_eq_true']

/-- Dropping ranges that end before a height does not change which one is the first to end beyond
it. -/
theorem find?_filter_stop {next h : UInt64} (hnext : next ≤ h) (ranges : List Range) :
    (ranges.filter (next < ·.stop)).find? (h < ·.stop) = ranges.find? (h < ·.stop) := by
  rw [List.find?_filter]
  congr 1
  funext r
  have hboth : h < r.stop → next < r.stop := UInt64.lt_of_le_of_lt hnext
  by_cases hstop : h < r.stop
  · simp [hstop, hboth hstop]
  · simp [hstop]

/-- Raising the start of the first range is not noticed above. -/
theorem contains_raiseFirst {next h : UInt64} (hnext : next ≤ h) (ranges : List Range) :
    (⟨raiseFirst next ranges⟩ : BypassRanges).contains h
      = (⟨ranges⟩ : BypassRanges).contains h := by
  cases ranges with
  | nil => rfl
  | cons r rest =>
    have hstart : max r.start next ≤ h ↔ r.start ≤ h := by
      rw [show max r.start next = if r.start ≤ next then next else r.start from rfl]
      split
      · rename_i hle
        exact ⟨fun _ => UInt64.le_trans hle hnext, fun _ => hnext⟩
      · exact Iff.rfl
    unfold contains raiseFirst
    by_cases hstop : h < r.stop
    · simp [hstop, Range.contains, hstart]
    · simp [hstop]

/-- Above the height up to which a set is forgotten it is the same as before. -/
theorem contains_consumeThrough {height h : UInt64} (hlt : height < h) (s : BypassRanges) :
    (s.consumeThrough height).contains h = s.contains h := by
  have hnext : Word.satSucc height ≤ h := by
    rw [UInt64.lt_iff_toNat_lt] at hlt
    rw [UInt64.le_iff_toNat_le, Word.toNat_satSucc]
    omega
  unfold consumeThrough
  rw [contains_raiseFirst hnext, contains, contains, find?_filter_stop hnext]

end BlockFeed.BypassRanges
