import BlockFeed.Window

/-!
# Heights of a window

Checked arithmetic gives the results of arithmetic on natural numbers wherever it gives any
(`Word.add_eq_ok_iff`, `Word.sub_eq_ok_iff`). So the heights of a window are consecutive numbers, and
a window that has been cut off after a height ends there at the latest.
-/

namespace BlockFeed

namespace Word

/-- A sum that is a word is the sum. -/
theorem add_eq_ok_iff {a b c : UInt64} : add a b = .ok c ↔ c.toNat = a.toNat + b.toNat := by
  have hsize : UInt64.size = 2 ^ 64 := rfl
  unfold add
  split
  · rw [Except.ok.injEq, ← UInt64.toNat_inj, UInt64.toNat_add]
    constructor <;> intro h <;> omega
  · have := c.toNat_lt
    constructor
    · intro h
      cases h
    · intro h
      omega

/-- A difference that is a word is the difference. -/
theorem sub_eq_ok_iff {a b c : UInt64} : sub a b = .ok c ↔ c.toNat + b.toNat = a.toNat := by
  unfold sub
  split
  · rename_i hle
    have := UInt64.le_iff_toNat_le.mp hle
    rw [Except.ok.injEq, ← UInt64.toNat_inj, UInt64.toNat_sub_of_le _ _ hle]
    constructor <;> intro h <;> omega
  · rename_i hle
    rw [UInt64.le_iff_toNat_le] at hle
    constructor
    · intro h
      cases h
    · intro h
      omega

theorem toNat_largest : max.toNat = UInt64.size - 1 := by decide

theorem le_largest (n : UInt64) : n ≤ max := by
  rw [UInt64.le_iff_toNat_le, toNat_largest]
  exact Nat.le_sub_one_of_lt n.toNat_lt_size

/-- Only the largest word has no next one. -/
theorem eq_largest_of_add_eq_error {n : UInt64} {e : Overflow} (h : add n 1 = .error e) : n = max := by
  have hsize : UInt64.size = 2 ^ 64 := rfl
  have hlt := n.toNat_lt
  unfold add at h
  split at h
  · cases h
  · rename_i hfits
    rw [UInt64.toNat_one] at hfits
    rw [← UInt64.toNat_inj, toNat_largest]
    omega

theorem toNat_satSub (a b : UInt64) : (satSub a b).toNat = a.toNat - b.toNat := by
  unfold satSub
  split
  · rename_i hlt
    have := UInt64.lt_iff_toNat_lt.mp hlt
    rw [UInt64.toNat_zero]
    omega
  · rename_i hlt
    rw [UInt64.toNat_sub_of_le _ _ (UInt64.not_lt.mp hlt)]

theorem toNat_satMul (a b : UInt64) : (satMul a b).toNat = min (a.toNat * b.toNat) max.toNat := by
  unfold satMul
  split
  · rename_i hfits
    rw [UInt64.toNat_mul, Nat.mod_eq_of_lt hfits, toNat_largest]
    omega
  · rename_i hlarge
    rw [toNat_largest]
    omega

theorem toNat_min (a b : UInt64) : (min a b).toNat = min a.toNat b.toNat := by
  rw [show min a b = if a ≤ b then a else b from rfl]
  split <;> rename_i h <;> rw [UInt64.le_iff_toNat_le] at h <;> omega

theorem toNat_max (a b : UInt64) : (Max.max a b).toNat = Max.max a.toNat b.toNat := by
  rw [show Max.max a b = if a ≤ b then b else a from rfl]
  split <;> rename_i h <;> rw [UInt64.le_iff_toNat_le] at h <;> omega

/-- A word plus a number, as long as that is a word. -/
theorem toNat_add_ofNat {a : UInt64} {n : Nat} (h : a.toNat + n < UInt64.size) :
    (a + UInt64.ofNat n).toNat = a.toNat + n := by
  have hsize : UInt64.size = 2 ^ 64 := rfl
  rw [UInt64.toNat_add, UInt64.toNat_ofNat']
  omega

/-- A word less a number that it is not below. -/
theorem toNat_sub_ofNat {a : UInt64} {n : Nat} (h : n ≤ a.toNat) :
    (a - UInt64.ofNat n).toNat = a.toNat - n := by
  have hnat : (UInt64.ofNat n).toNat = n := by
    rw [UInt64.toNat_ofNat']
    exact Nat.mod_eq_of_lt (Nat.lt_of_le_of_lt h a.toNat_lt)
  rw [UInt64.toNat_sub_of_le _ _ (UInt64.le_iff_toNat_le.mpr (hnat.symm ▸ h)), hnat]

end Word

namespace Window

/-- The place of the last height of a window. -/
theorem toNat_last {w : Window} {last : UInt64} (h : w.last = .ok last) :
    last.toNat = w.start.toNat + (w.size.toNat - 1) := by
  rw [Window.last, Word.add_eq_ok_iff, Word.toNat_satSub] at h
  exact h

/-- A window that has been cut off keeps its start and its heights, none of them above the place of
the cut. -/
theorem clamp_eq_some {w c : Window} {highest : UInt64} (h : w.clamp highest = .ok (some c)) :
    c.start = w.start ∧ c.size.toNat = min w.size.toNat (highest.toNat + 1 - w.start.toNat) ∧
      w.start ≤ highest := by
  unfold clamp at h
  split at h
  · cases h
  · rename_i hlow
    have hle := UInt64.not_lt.mp hlow
    have hnat := UInt64.le_iff_toNat_le.mp hle
    cases hreach : Word.add (highest - w.start) 1 with
    | error e =>
      rw [hreach] at h
      cases h
    | ok reach =>
      rw [hreach] at h
      cases h
      have hsum := Word.add_eq_ok_iff.mp hreach
      rw [UInt64.toNat_sub_of_le _ _ hle, UInt64.toNat_one] at hsum
      refine ⟨rfl, ?_, hle⟩
      show (min w.size reach).toNat = _
      rw [Word.toNat_min]
      omega

/-- The heights between two heights, both included. -/
theorem mem_heightsBetween {first last h : UInt64} :
    h ∈ heightsBetween first last ↔ first ≤ h ∧ h ≤ last := by
  have hfirst := first.toNat_lt_size
  have hlast := last.toNat_lt_size
  rw [heightsBetween, List.mem_map, UInt64.le_iff_toNat_le, UInt64.le_iff_toNat_le]
  constructor
  · rintro ⟨i, hi, rfl⟩
    rw [List.mem_range] at hi
    rw [Word.toNat_add_ofNat (by omega)]
    omega
  · rintro ⟨hle, hge⟩
    refine ⟨h.toNat - first.toNat, List.mem_range.mpr (by omega), ?_⟩
    rw [← UInt64.toNat_inj, Word.toNat_add_ofNat (by omega)]
    omega

theorem getElem_heightsBetween {first last : UInt64} {i : Nat}
    (h : i < (heightsBetween first last).length) :
    (heightsBetween first last)[i] = first + UInt64.ofNat i := by
  simp [heightsBetween]

/-- They come in ascending order. -/
theorem pairwise_heightsBetween (first last : UInt64) :
    (heightsBetween first last).Pairwise (· < ·) := by
  have hfirst := first.toNat_lt_size
  have hlast := last.toNat_lt_size
  rw [heightsBetween, List.pairwise_map]
  refine List.Pairwise.imp_of_mem (fun {i j} hi hj hlt => ?_) List.pairwise_lt_range
  rw [List.mem_range] at hi hj
  rw [UInt64.lt_iff_toNat_lt, Word.toNat_add_ofNat (by omega), Word.toNat_add_ofNat (by omega)]
  omega

/-- Ascending heights that leave out none of the lower ones of others are the first of these. -/
theorem isPrefix_of_ascending {heights all : List UInt64} (h : heights.Pairwise (· < ·))
    (hall : all.Pairwise (· < ·)) (hsub : heights ⊆ all)
    (hlower : ∀ height ∈ heights, ∀ other ∈ all, other < height → other ∈ heights) :
    heights <+: all := by
  induction all generalizing heights with
  | nil => simp [List.eq_nil_of_subset_nil hsub]
  | cons first rest ih =>
    cases heights with
    | nil => exact List.nil_prefix
    | cons height heights =>
      obtain ⟨hfirst, hrest⟩ := List.pairwise_cons.mp hall
      obtain ⟨hheight, hheights⟩ := List.pairwise_cons.mp h
      -- the first height of all is not above any of the heights, and so it is the first of them
      obtain rfl : height = first := by
        rcases List.mem_cons.mp (hsub List.mem_cons_self) with heq | hmem
        · exact heq
        · rcases List.mem_cons.mp (hlower height List.mem_cons_self first List.mem_cons_self
              (hfirst height hmem)) with heq | hlow
          · exact heq.symm
          · exact absurd (hheight first hlow) (UInt64.lt_asymm (hfirst height hmem))
      rw [List.prefix_cons_inj]
      apply ih hheights hrest
      · intro other hmem
        rcases List.mem_cons.mp (hsub (List.mem_cons_of_mem _ hmem)) with rfl | hother
        · exact absurd (hheight other hmem) (UInt64.lt_irrefl _)
        · exact hother
      · intro upper hupper other hother hlt
        rcases List.mem_cons.mp (hlower upper (List.mem_cons_of_mem _ hupper) other
            (List.mem_cons_of_mem _ hother) hlt) with rfl | hmem
        · exact absurd (hfirst other hother) (UInt64.lt_irrefl _)
        · exact hmem

end Window

end BlockFeed
