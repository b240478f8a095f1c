import Mathlib.Tactic.IntervalCases
import BlockFeed.Proofs.Contract
import BlockFeed.Proofs.Window
import BlockFeed.Walker.Basic

/-!
# Looking for a point to go back to

A walker looks for a tip to go back to among cached ones: downwards for the one at a point, or at growing
distances for one that is on the node's chain. Both searches read one height after the other, and so they
keep every contract that a single reading keeps (`Finds.findAmong`, `Finds.probeAmong`). Neither leaves the
heights from the cursor downwards.
-/

namespace BlockFeed.Walker

section
variable {W : Type} {c : Contract Surroundings Walker W} {holds : W → Walker → Prop}
  {found : W → UInt64 → Tip → Prop} {failed : W → Walker → Abort WalkerError → Prop}
  {w : W} {memory : Walker}

/-- Wherever a condition holds the tip of a height may be read; the condition holds on, and something is known
of a tip that is found. -/
def Finds (c : Contract Surroundings Walker W) (holds : W → Walker → Prop)
    (found : W → UInt64 → Tip → Prop) (failed : W → Walker → Abort WalkerError → Prop) : Prop :=
  ∀ w memory height, holds w memory → (Work.tipAt .cache height).Keeps c
    (fun w memory tip? => holds w memory ∧ ∀ tip, tip? = some tip → found w height tip) failed w memory

/-- A tip that is found among cached ones is at the point. -/
theorem Finds.findAmong (h : Finds c holds found failed) (point : Point) (heights : List UInt64)
    (hholds : holds w memory) :
    (findAmong point heights).Keeps c
      (fun w memory tip? => holds w memory ∧ ∀ tip, tip? = some tip →
        tip.point = point ∧ ∃ height ∈ heights, found w height tip) failed w memory := by
  induction heights generalizing w memory with
  | nil => exact Routine.keeps_pure.mpr ⟨hholds, nofun⟩
  | cons height rest ih =>
    have hrest : ∀ {w memory}, holds w memory → (Walker.findAmong point rest).Keeps c
        (fun w memory tip? => holds w memory ∧ ∀ tip, tip? = some tip →
          tip.point = point ∧ ∃ other ∈ height :: rest, found w other tip) failed w memory := by
      refine fun hholds => (ih hholds).mono ?_ fun _ _ _ hfailed => hfailed
      rintro _ _ _ ⟨hholds, hfound⟩
      refine ⟨hholds, fun tip htip => ?_⟩
      obtain ⟨hpoint, other, hother, hfound⟩ := hfound tip htip
      exact ⟨hpoint, other, List.mem_cons_of_mem _ hother, hfound⟩
    refine Routine.keeps_bind.mpr ((h w memory height hholds).mono ?_ fun _ _ _ hfailed => hfailed)
    rintro w₁ memory₁ tip? ⟨hholds, hfound⟩
    cases tip? with
    | none => exact hrest hholds
    | some tip =>
      dsimp only
      by_cases hpoint : tip.point = point
      · rw [if_pos hpoint]
        refine Routine.keeps_pure.mpr ⟨hholds, ?_⟩
        rintro _ ⟨⟩
        exact ⟨hpoint, height, List.mem_cons_self, hfound tip rfl⟩
      · rw [if_neg hpoint]
        -- below the slot of the point the search is over
        by_cases hslot : tip.point.slot < point.slot
        · rw [if_pos hslot]
          exact Routine.keeps_pure.mpr ⟨hholds, nofun⟩
        · rw [if_neg hslot]
          exact hrest hholds

/-- A tip that is found by asking the node is one that the node has confirmed. -/
theorem Finds.probeAmong (h : Finds c holds found failed) (confirmed : W → UInt64 → Tip → Prop)
    (hasks : ∀ w memory height tip, holds w memory → found w height tip →
      (do
        let answer ← Routine.ask (I := Surroundings) (.findIntersect tip.point)
        Work.ofAnswer .node answer : Task Intersection).Keeps c
          (fun w memory intersection => holds w memory ∧
            ∀ nodeTip, intersection = .found tip.point nodeTip → confirmed w height tip) failed w memory)
    (top : UInt64) (offsets : List UInt64) (hholds : holds w memory) :
    (probeAmong top offsets).Keeps c
      (fun w memory tip? => holds w memory ∧ ∀ tip, tip? = some tip →
        ∃ offset ∈ offsets, confirmed w (top - offset) tip) failed w memory := by
  induction offsets generalizing w memory with
  | nil => exact Routine.keeps_pure.mpr ⟨hholds, nofun⟩
  | cons offset rest ih =>
    have hrest : ∀ {w memory}, holds w memory → (Walker.probeAmong top rest).Keeps c
        (fun w memory tip? => holds w memory ∧ ∀ tip, tip? = some tip →
          ∃ other ∈ offset :: rest, confirmed w (top - other) tip) failed w memory := by
      refine fun hholds => (ih hholds).mono ?_ fun _ _ _ hfailed => hfailed
      rintro _ _ _ ⟨hholds, hfound⟩
      refine ⟨hholds, fun tip htip => ?_⟩
      obtain ⟨other, hother, hconfirmed⟩ := hfound tip htip
      exact ⟨other, List.mem_cons_of_mem _ hother, hconfirmed⟩
    refine Routine.keeps_bind.mpr ((h w memory _ hholds).mono ?_ fun _ _ _ hfailed => hfailed)
    rintro w₁ memory₁ tip? ⟨hholds, hfound⟩
    cases tip? with
    | none => exact hrest hholds
    | some tip =>
      have hasked := Routine.keeps_bind.mp (hasks w₁ memory₁ _ tip hholds (hfound tip rfl))
      refine Routine.keeps_bind.mpr (hasked.mono ?_ fun _ _ _ hfailed => hfailed)
      refine fun w₂ memory₂ answer hanswer => Routine.keeps_bind.mpr (hanswer.mono ?_
        fun _ _ _ hfailed => hfailed)
      rintro w₃ memory₃ intersection ⟨hholds, hconfirmed⟩
      cases intersection with
      | notFound => exact hrest hholds
      | found point nodeTip =>
        dsimp only
        by_cases hpoint : point = tip.point
        · rw [if_pos hpoint]
          refine Routine.keeps_pure.mpr ⟨hholds, ?_⟩
          rintro _ ⟨⟩
          exact ⟨offset, List.mem_cons_self, hconfirmed nodeTip (by rw [hpoint])⟩
        · rw [if_neg hpoint]
          exact hrest hholds

end

/-! ## The heights -/

/-- The search comes to a height after as many others as it lies below the first one. -/
theorem toNat_of_getElem?_heightsBelow {top height : UInt64} {i : Nat}
    (h : (heightsBelow top)[i]? = some height) :
    height.toNat + i = top.toNat ∧ i ≤ searchDepth.toNat := by
  obtain ⟨j, hj, rfl⟩ := Option.map_eq_some_iff.mp (List.getElem?_map ▸ h)
  obtain ⟨hlt, rfl⟩ := List.getElem?_eq_some_iff.mp hj
  rw [List.length_range, Word.toNat_min] at hlt
  rw [List.getElem_range, Word.toNat_sub_ofNat (by omega)]
  omega

/-- The search comes to all heights from the first one downwards, as deep as it goes. -/
theorem mem_heightsBelow_iff {top height : UInt64} :
    height ∈ heightsBelow top ↔ height ≤ top ∧ top.toNat - searchDepth.toNat ≤ height.toNat := by
  rw [UInt64.le_iff_toNat_le]
  constructor
  · intro h
    obtain ⟨i, hi⟩ := List.mem_iff_getElem?.mp h
    have hplace := toNat_of_getElem?_heightsBelow hi
    omega
  · rintro ⟨hle, hdeep⟩
    refine List.mem_map.mpr ⟨top.toNat - height.toNat, ?_, ?_⟩
    · rw [List.mem_range, Word.toNat_min]
      omega
    · rw [← UInt64.toNat_inj, Word.toNat_sub_ofNat (Nat.sub_le _ _)]
      omega

/-- The heights where common points are looked for are not above the first of them. -/
theorem toNat_le_of_mem_heightsBelow {top height : UInt64} (h : height ∈ heightsBelow top) :
    height.toNat ≤ top.toNat :=
  UInt64.le_iff_toNat_le.mp (mem_heightsBelow_iff.mp h).1

/-- The heights at which the node is asked are below it. -/
theorem toNat_sub_lt_of_mem_probeOffsets {top offset : UInt64} (h : offset ∈ probeOffsets top) :
    (top - offset).toNat < top.toNat := by
  obtain ⟨hoffset, hbounds⟩ := List.mem_filter.mp h
  simp only [Bool.and_eq_true, decide_eq_true_eq] at hbounds
  obtain ⟨hdepth, hle⟩ := hbounds
  have hpos : 0 < offset.toNat := by
    obtain ⟨i, hi, rfl⟩ := List.mem_map.mp hoffset
    rw [List.mem_range] at hi
    interval_cases i <;> decide
  rw [UInt64.toNat_sub_of_le _ _ hle]
  rw [UInt64.le_iff_toNat_le] at hle
  omega

end BlockFeed.Walker
