import BlockFeed.Proofs.Bypass.Canonical
import BlockFeed.Proofs.Bypass.Consumption

/-!
# Forgetting heights

A set in canonical form that forgets the heights up to one of them loses these and no others
(`contains_consumeThrough_iff`). Only its first range can straddle the height, because the ranges are apart, so it
is enough to raise the start of that one. The laws of forgetting follow, as a law about such sets is one about
their heights (`forgetting_of_isCanonical`).
-/

namespace BlockFeed.BypassRanges

open Bypass (Range)

variable {s t : BypassRanges} {height h : UInt64}

/-- What is left of a set when heights have been forgotten starts beyond them, and ends beyond their bound. -/
theorem IsCanonical.bounds_of_mem_consumeThrough (hs : IsCanonical s.ranges) {r : Range}
    (hr : r ∈ (s.consumeThrough height).ranges) :
    Word.satSucc height ≤ r.start ∧ Word.satSucc height < r.stop := by
  have hbeyond : ∀ q ∈ s.ranges.filter (Word.satSucc height < ·.stop), Word.satSucc height < q.stop :=
    fun q hq => of_decide_eq_true (List.mem_filter.mp hq).2
  have hapart : (s.ranges.filter (Word.satSucc height < ·.stop)).Pairwise fun a b => a.stop < b.start :=
    hs.apart.filter _
  unfold BypassRanges.consumeThrough at hr
  dsimp only at hr
  generalize s.ranges.filter (Word.satSucc height < ·.stop) = kept at hr hbeyond hapart
  cases kept with
  | nil => exact nomatch hr
  | cons first rest =>
    have hfirst := hbeyond first List.mem_cons_self
    rcases List.mem_cons.mp hr with rfl | hr
    · refine ⟨?_, hfirst⟩
      change _ ≤ max first.start (Word.satSucc height)
      rw [UInt64.le_iff_toNat_le, Word.toNat_max]
      exact Nat.le_max_right _ _
    · -- the ranges after the first one start beyond its end
      have hgap := (List.pairwise_cons.mp hapart).1 r hr
      have hstart := UInt64.lt_trans hfirst hgap
      exact ⟨UInt64.le_of_lt hstart, hbeyond r (List.mem_cons_of_mem _ hr)⟩

/-- Of the heights of a set those beyond the forgotten ones are left, and no others. -/
theorem contains_consumeThrough_iff (hs : IsCanonical s.ranges) :
    (s.consumeThrough height).contains h = true ↔ s.contains h = true ∧ height < h := by
  by_cases hbeyond : height < h
  · rw [contains_consumeThrough hbeyond, and_iff_left hbeyond]
  · refine iff_of_false (fun hcontains => ?_) fun hboth => hbeyond hboth.2
    obtain ⟨r, hmem, hr⟩ := (contains_iff_covers (hs.consumeThrough height).ascends).mp hcontains
    have hbounds := hs.bounds_of_mem_consumeThrough hmem
    have hstop := r.stop.toNat_lt
    rw [Range.contains_iff] at hr
    rw [UInt64.le_iff_toNat_le, UInt64.lt_iff_toNat_lt, Word.toNat_satSucc] at hbounds
    rw [UInt64.lt_iff_toNat_lt] at hbeyond
    omega

/-- Forgetting twice is forgetting up to the greater height. -/
theorem consumeThrough_consumeThrough (hs : IsCanonical s.ranges) (a b : UInt64) :
    (s.consumeThrough a).consumeThrough b = s.consumeThrough (max a b) := by
  have ha := hs.consumeThrough a
  refine (ha.consumeThrough b).ext (hs.consumeThrough (max a b)) fun h => ?_
  rw [contains_consumeThrough_iff ha, contains_consumeThrough_iff hs, contains_consumeThrough_iff hs, and_assoc]
  refine and_congr_right fun _ => ?_
  simp only [UInt64.lt_iff_toNat_lt, Word.toNat_max]
  omega

/-- Forgetting goes through a union. -/
theorem consumeThrough_merge (hs : IsCanonical s.ranges) (ht : IsCanonical t.ranges) (a : UInt64) :
    (s.merge t).consumeThrough a = (s.consumeThrough a).merge (t.consumeThrough a) := by
  have hunion := isCanonical_merge hs ht
  have hsa := hs.consumeThrough a
  have hta := ht.consumeThrough a
  refine (hunion.consumeThrough a).ext (isCanonical_merge hsa hta) fun h => ?_
  rw [contains_consumeThrough_iff hunion, contains_merge hs.ascends ht.ascends,
    contains_merge hsa.ascends hta.ascends, contains_consumeThrough_iff hs, contains_consumeThrough_iff ht,
    or_and_right]

/-- A set in canonical form that has forgotten the heights up to one of them is in that form still and holds the
others that it held. In whichever order heights are forgotten, up to one and up to another, what is left is what
is left beyond both. It does not matter whether heights are forgotten before or after sets are merged. -/
theorem forgetting_of_isCanonical (hs : IsCanonical s.ranges) (ht : IsCanonical t.ranges) (a b : UInt64) :
    (∀ h, (s.consumeThrough a).contains h = true ↔ s.contains h = true ∧ a < h)
      ∧ IsCanonical (s.consumeThrough a).ranges
      ∧ (s.consumeThrough a).consumeThrough b = s.consumeThrough (max a b)
      ∧ (s.consumeThrough b).consumeThrough a = s.consumeThrough (max a b)
      ∧ (s.merge t).consumeThrough a = (s.consumeThrough a).merge (t.consumeThrough a) := by
  have hswap : max b a = max a b := by
    rw [← UInt64.toNat_inj, Word.toNat_max, Word.toNat_max, Nat.max_comm]
  have hother := consumeThrough_consumeThrough hs b a
  rw [hswap] at hother
  exact ⟨fun h => contains_consumeThrough_iff hs, hs.consumeThrough a, consumeThrough_consumeThrough hs a b,
    hother, consumeThrough_merge hs ht a⟩

/-- The second range of the first set straddles a height and reaches up to the largest one that can be held. Merged
with the range of the other set the first range straddles a height that neither of them does alone. -/
theorem forgetting_of_isCanonical_sample :
    let s : BypassRanges := ⟨[⟨10, 20⟩, ⟨30, Word.max⟩]⟩
    let t : BypassRanges := ⟨[⟨20, 25⟩]⟩
    IsCanonical s.ranges ∧ IsCanonical t.ranges
      ∧ (s.consumeThrough 19).contains 30 = true ∧ (s.consumeThrough 19).contains 19 = false
      ∧ IsCanonical (s.consumeThrough 19).ranges
      ∧ (s.consumeThrough 19).consumeThrough 32 = ⟨[⟨33, Word.max⟩]⟩
      ∧ (s.consumeThrough 32).consumeThrough 19 = ⟨[⟨33, Word.max⟩]⟩
      ∧ (s.consumeThrough 19).merge (t.consumeThrough 19) = ⟨[⟨20, 25⟩, ⟨30, Word.max⟩]⟩
      ∧ (s.merge t).consumeThrough 19 = (s.consumeThrough 19).merge (t.consumeThrough 19) := by
  intro s t
  have ht : IsCanonical t.ranges := isCanonical_cons.mpr ⟨by decide, List.forall_mem_nil _, isCanonical_nil⟩
  have hs : IsCanonical s.ranges :=
    isCanonical_cons.mpr ⟨by decide, by decide,
      isCanonical_cons.mpr ⟨by decide, List.forall_mem_nil _, isCanonical_nil⟩⟩
  obtain ⟨hheights, hform, honce, hswapped, hunion⟩ := forgetting_of_isCanonical hs ht 19 32
  have hforgotten : (s.consumeThrough 19).contains 19 = false :=
    Bool.eq_false_iff.mpr fun h => absurd ((hheights 19).mp h).2 (by decide)
  have hlater : s.consumeThrough (max 19 32) = ⟨[⟨33, Word.max⟩]⟩ := by decide
  have hrest : (s.consumeThrough 19).merge (t.consumeThrough 19) = ⟨[⟨20, 25⟩, ⟨30, Word.max⟩]⟩ := by
    have hkept : s.consumeThrough 19 = ⟨[⟨30, Word.max⟩]⟩ := by decide
    have hwhole : t.consumeThrough 19 = t := by decide
    rw [hkept] at hform
    have htwo : IsCanonical [⟨20, 25⟩, ⟨30, Word.max⟩] := isCanonical_cons.mpr ⟨by decide, by decide, hform⟩
    rw [hkept, hwhole]
    refine (isCanonical_merge hform ht).ext htwo fun h => ?_
    rw [contains_merge hform.ascends ht.ascends, contains_iff_covers hform.ascends,
      contains_iff_covers ht.ascends, contains_iff_covers htwo.ascends]
    simp only [t, covers_cons, not_covers_nil, or_false]
    exact or_comm
  exact ⟨hs, ht, (hheights 30).mpr (by decide), hforgotten, hform, honce.trans hlater, hswapped.trans hlater,
    hrest, hunion⟩

end BlockFeed.BypassRanges
