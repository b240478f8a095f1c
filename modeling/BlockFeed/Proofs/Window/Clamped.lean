import Mathlib.Order.Interval.Finset.Nat
import BlockFeed.Proofs.Window

/-!
# Windows that are cut off

The heights of a window up to a given one are counted here as natural numbers, which do not end where words
do (`Window.upTo`). A window that is cut off after a height keeps exactly these (`clamp_upTo`), also if its
own last height would be no word.

There is one exception. From height zero up to the largest word there is one height more than words can count,
so a window that begins at zero cannot be cut off there (`clamp_eq_error_iff`), however small it is
(`uncut_at_largest`).
-/

namespace BlockFeed.Window

/-- The heights of a window that do not lie above a given one. The heights of the window itself may go beyond
the largest word. -/
def upTo (w : Window) (highest : UInt64) : Finset Nat :=
  {n ∈ Finset.Ico w.start.toNat (w.start.toNat + w.size.toNat) | n ≤ highest.toNat}

variable {w c : Window} {highest last : UInt64} {n : Nat}

theorem mem_upTo : n ∈ w.upTo highest ↔
    w.start.toNat ≤ n ∧ n < w.start.toNat + w.size.toNat ∧ n ≤ highest.toNat := by
  rw [upTo, Finset.mem_filter, Finset.mem_Ico, and_assoc]

theorem card_upTo (w : Window) (highest : UInt64) :
    (w.upTo highest).card = min w.size.toNat (highest.toNat + 1 - w.start.toNat) := by
  have hinterval : w.upTo highest
      = Finset.Ico w.start.toNat (min (w.start.toNat + w.size.toNat) (highest.toNat + 1)) := by
    ext n
    rw [mem_upTo, Finset.mem_Ico]
    omega
  rw [hinterval, Nat.card_Ico]
  omega

/-! ## The three outcomes -/

theorem clamp_of_lt (h : highest < w.start) : w.clamp highest = .ok none := if_pos h

/-- From the start on there is a height left, unless there are more of them than a word can tell. -/
theorem clamp_of_le (h : w.start ≤ highest) :
    w.clamp highest
      = (Word.add (highest - w.start) 1).map fun reach => some ⟨w.start, min w.size reach⟩ := by
  rw [clamp, if_neg (UInt64.not_lt.mpr h)]
  cases Word.add (highest - w.start) 1 <;> rfl

theorem clamp_eq_none_iff : w.clamp highest = .ok none ↔ highest < w.start := by
  refine ⟨fun h => ?_, clamp_of_lt⟩
  by_contra hlow
  rw [clamp_of_le (UInt64.not_lt.mp hlow)] at h
  cases hreach : Word.add (highest - w.start) 1 <;> rw [hreach] at h <;> cases h

/-- Only the heights from zero to the largest word cannot be counted. -/
theorem add_eq_error_iff (h : w.start ≤ highest) :
    Word.add (highest - w.start) 1 = .error .overflow ↔ w.start = 0 ∧ highest = Word.max := by
  have hdistance := UInt64.toNat_sub_of_le _ _ h
  have hstart := UInt64.le_iff_toNat_le.mp h
  have hbound := highest.toNat_lt_size
  have hmax := Word.toNat_largest
  rw [← UInt64.toNat_inj, ← UInt64.toNat_inj, UInt64.toNat_zero]
  constructor
  · intro herror
    have hlargest := Word.eq_largest_of_add_eq_error herror
    rw [← UInt64.toNat_inj] at hlargest
    omega
  · rintro ⟨hzero, hlargest⟩
    refine if_neg ?_
    rw [UInt64.toNat_one]
    omega

theorem clamp_eq_error_iff :
    w.clamp highest = .error .overflow ↔ w.start = 0 ∧ highest = Word.max := by
  by_cases hlow : highest < w.start
  · rw [clamp_of_lt hlow]
    refine iff_of_false nofun ?_
    rintro ⟨hzero, -⟩
    rw [hzero] at hlow
    exact absurd hlow (UInt64.not_lt.mpr (UInt64.le_iff_toNat_le.mpr (Nat.zero_le _)))
  · have hle := UInt64.not_lt.mp hlow
    rw [← add_eq_error_iff hle, clamp_of_le hle]
    cases hreach : Word.add (highest - w.start) 1 with
    | error e => cases e; exact iff_of_true rfl rfl
    | ok reach => exact iff_of_false nofun nofun

/-! ## What is left -/

/-- What is left of a window that is cut off ends where the window does or where it is cut off, whichever comes
first. -/
theorem exists_last_of_clamp (hsize : 0 < w.size) (h : w.clamp highest = .ok (some c)) :
    ∃ last, c.last = .ok last ∧
      last.toNat = min (w.start.toNat + w.size.toNat - 1) highest.toNat := by
  obtain ⟨hstart, hwidth, hle⟩ := clamp_eq_some h
  have hpos := UInt64.lt_iff_toNat_lt.mp hsize
  have hreach := UInt64.le_iff_toNat_le.mp hle
  have hbound := highest.toNat_lt_size
  rw [UInt64.toNat_zero] at hpos
  have hlast : (UInt64.ofNat (min (w.start.toNat + w.size.toNat - 1) highest.toNat)).toNat
      = min (w.start.toNat + w.size.toNat - 1) highest.toNat :=
    UInt64.toNat_ofNat_of_lt' (by omega)
  refine ⟨_, ?_, hlast⟩
  rw [Window.last, Word.add_eq_ok_iff, hlast, Word.toNat_satSub, hstart, hwidth, UInt64.toNat_one]
  omega

/-- What is left of a window that is cut off has its heights up to the place of the cut. -/
theorem mem_heights_of_clamp (hsize : 0 < w.size) (h : w.clamp highest = .ok (some c))
    (hlast : last.toNat = min (w.start.toNat + w.size.toNat - 1) highest.toNat) :
    n ∈ (heightsBetween c.start last).map UInt64.toNat ↔ n ∈ w.upTo highest := by
  obtain ⟨hstart, -, -⟩ := clamp_eq_some h
  have hpos := UInt64.lt_iff_toNat_lt.mp hsize
  rw [UInt64.toNat_zero] at hpos
  rw [mem_upTo, List.mem_map]
  constructor
  · rintro ⟨height, hmem, rfl⟩
    obtain ⟨hlow, hhigh⟩ := mem_heightsBetween.mp hmem
    rw [hstart, UInt64.le_iff_toNat_le] at hlow
    rw [UInt64.le_iff_toNat_le] at hhigh
    omega
  · rintro ⟨hlow, hhigh, hcut⟩
    have hword : (UInt64.ofNat n).toNat = n :=
      UInt64.toNat_ofNat_of_lt' (Nat.lt_of_le_of_lt hcut highest.toNat_lt_size)
    refine ⟨UInt64.ofNat n, mem_heightsBetween.mpr ?_, hword⟩
    rw [UInt64.le_iff_toNat_le, UInt64.le_iff_toNat_le, hstart, hword]
    omega

/-- Something is left of it. -/
theorem isEmpty_of_clamp (hsize : 0 < w.size) (h : w.clamp highest = .ok (some c)) :
    c.isEmpty = false := by
  obtain ⟨-, hwidth, hle⟩ := clamp_eq_some h
  have hpos := UInt64.lt_iff_toNat_lt.mp hsize
  have hreach := UInt64.le_iff_toNat_le.mp hle
  rw [UInt64.toNat_zero] at hpos
  rw [isEmpty, decide_eq_false_iff_not, ← UInt64.toNat_inj, UInt64.toNat_zero]
  omega

/-- A window cannot be cut off after the largest word if it begins at zero. Otherwise nothing is left of it just
when it begins above the place of the cut, and what is left begins where it does and has exactly its heights up to
that place. -/
theorem clamp_upTo (hsize : 0 < w.size) (highest : UInt64) :
    (w.clamp highest = .error .overflow ↔ w.start = 0 ∧ highest = Word.max) ∧
      (w.clamp highest = .ok none ↔ highest < w.start) ∧
      (w.start ≤ highest → ¬(w.start = 0 ∧ highest = Word.max) →
        ∃ c last, w.clamp highest = .ok (some c) ∧ c.isEmpty = false ∧ c.start = w.start ∧
          c.size.toNat = (w.upTo highest).card ∧ c.last = .ok last ∧
          (heightsBetween c.start last).Pairwise (· < ·) ∧
          ∀ n, n ∈ (heightsBetween c.start last).map UInt64.toNat ↔ n ∈ w.upTo highest) := by
  refine ⟨clamp_eq_error_iff, clamp_eq_none_iff, fun hle hfits => ?_⟩
  cases hclamp : w.clamp highest with
  | error e => exact absurd (clamp_eq_error_iff.mp hclamp) hfits
  | ok found =>
    cases found with
    | none => exact absurd (clamp_eq_none_iff.mp hclamp) (UInt64.not_lt.mpr hle)
    | some c =>
      obtain ⟨hstart, hwidth, -⟩ := clamp_eq_some hclamp
      obtain ⟨last, hlast, hplace⟩ := exists_last_of_clamp hsize hclamp
      exact ⟨c, last, rfl, isEmpty_of_clamp hsize hclamp, hstart, hwidth.trans (card_upTo w highest).symm,
        hlast, pairwise_heightsBetween _ _, fun n => mem_heights_of_clamp hsize hclamp hplace⟩

/-- Of a window that goes far beyond the largest word six heights are left. -/
theorem clamp_upTo_beyond :
    let w : Window := ⟨Word.max - 5, Word.max⟩
    0 < w.size ∧ w.start ≤ Word.max ∧ ¬(w.start = 0 ∧ Word.max = Word.max) ∧
      UInt64.size < w.start.toNat + w.size.toNat ∧ w.clamp Word.max = .ok (some ⟨Word.max - 5, 6⟩) ∧
      (w.upTo Word.max).card = 6 := by
  intro w
  have hsize : 0 < w.size := by decide
  have hle : w.start ≤ Word.max := by decide
  have hfits : ¬(w.start = 0 ∧ Word.max = Word.max) := by decide
  have hclamp : w.clamp Word.max = .ok (some ⟨Word.max - 5, 6⟩) := by decide
  obtain ⟨c, last, hsome, -, -, hcard, -⟩ := (clamp_upTo hsize Word.max).2.2 hle hfits
  rw [hclamp] at hsome
  cases hsome
  exact ⟨hsize, hle, hfits, by decide, hclamp, hcard.symm⟩

/-- Not every window can be cut off: none that begins at zero can be after the largest word. -/
theorem uncut_at_largest :
    ¬∀ start size highest : UInt64, 1 ≤ size →
      ∃ found, (⟨start, size⟩ : Window).clamp highest = .ok found := by
  intro hclaim
  obtain ⟨found, hfound⟩ := hclaim 0 5 Word.max (by decide)
  have hoverflow : (⟨0, 5⟩ : Window).clamp Word.max = .error .overflow :=
    clamp_eq_error_iff.mpr ⟨rfl, rfl⟩
  rw [hoverflow] at hfound
  cases hfound

end BlockFeed.Window
