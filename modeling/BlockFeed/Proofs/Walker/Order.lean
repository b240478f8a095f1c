import BlockFeed.Proofs.Chain.TipText
import BlockFeed.Walker.Basic

/-!
# The order of what is written

While nothing expires, the cache is told by the list of all that has been written to it. That list is in
order (`Terms.InOrder`) if there are no holes: below every tip that has been published under its height,
and below every cursor that has been stored, a tip is published at each height down to the checkpoint. If
the node keeps one chain, the tips have moreover been published in ascending order.

Storing the cursor, moving it to a tip below which there is no hole, and publishing the tip after it keep
the list in order (`Terms.InOrder.store`, `.moveTo`, `.publish`). What is found in such a list under the
key of a height is the tip that has been published there.
-/

namespace BlockFeed

namespace Walker

/-! ## What has been written -/

/-- The tips that have been written under heights, the latest first. -/
def published (written : List (String × String)) : List Tip :=
  (written.filter (·.1 ≠ cursorKey)).filterMap fun entry => Tip.ofCacheText? entry.2

/-- A tip has been published at a height. -/
def Cached (written : List (String × String)) (height : UInt64) : Prop :=
  ∃ tip ∈ published written, tip.number = height

/-- No tip has been published above another. -/
def IsTop (written : List (String × String)) (tip : Tip) : Prop :=
  ∀ other ∈ published written, other.number.toNat ≤ tip.number.toNat

section
variable {written : List (String × String)} {tip : Tip} {height : UInt64}

@[simp]
theorem published_cons_cursor (text : String) :
    published ((cursorKey, text) :: written) = published written := by
  rw [published, List.filter_cons_of_neg (by simp)]
  rfl

@[simp]
theorem published_cons_tip :
    published ((heightKey height, tip.toCacheText) :: written) = tip :: published written := by
  rw [published, List.filter_cons_of_pos (by simpa using heightKey_ne_cursorKey height),
    List.filterMap_cons, Tip.ofCacheText?_toCacheText]
  rfl

/-- What has been written under a height is a published tip. -/
theorem mem_published (h : (heightKey height, tip.toCacheText) ∈ written) : tip ∈ published written := by
  refine List.mem_filterMap.mpr ⟨_, List.mem_filter.mpr ⟨h, ?_⟩, Tip.ofCacheText?_toCacheText tip⟩
  simpa using heightKey_ne_cursorKey height

/-- A published tip has been written under a key that is not that of the cursor. -/
theorem exists_mem_of_published (h : tip ∈ published written) :
    ∃ entry ∈ written, entry.1 ≠ cursorKey ∧ Tip.ofCacheText? entry.2 = some tip := by
  obtain ⟨entry, hentry, htip⟩ := List.mem_filterMap.mp h
  obtain ⟨hmem, hkey⟩ := List.mem_filter.mp hentry
  exact ⟨entry, hmem, by simpa using hkey, htip⟩

end

/-! ## Order -/

/-- What is known of the node that a walker asks. -/
structure Terms where
  settings : WalkerSettings
  /-- A tip is the checkpoint or one that the node may tell. -/
  fits : Tip → Prop
  fits_checkpoint : fits settings.startPoint.tip
  /-- The node keeps one chain, and it does not claim to have confirmed more of it than there is. -/
  steady : Prop
  /-- The number of the last tip of that chain. -/
  last : Nat

namespace Terms

/-- The tip at which the walker begins. -/
abbrev checkpoint (terms : Terms) : Tip := terms.settings.startPoint.tip

/-- The walker may stand at a tip: there is no hole below it. -/
structure Placed (terms : Terms) (written : List (String × String)) (tip : Tip) : Prop where
  fits : terms.fits tip
  low : terms.checkpoint.number.toNat ≤ tip.number.toNat
  covered : ∀ height : UInt64, terms.checkpoint.number.toNat < height.toNat →
    height.toNat ≤ tip.number.toNat → Cached written height

/-- An entry that may have been written. -/
inductive Records (terms : Terms) (written : List (String × String)) : String × String → Prop
  | tip {tip : Tip} (h : terms.Placed written tip)
      (habove : terms.checkpoint.number.toNat < tip.number.toNat) :
      Records terms written (heightKey tip.number, tip.toCacheText)
  | cursor {tip : Tip} (h : terms.Placed written tip) :
      Records terms written (cursorKey, tip.toCacheText)

/-- All that has been written is in order, and so is what the walker remembers. -/
structure InOrder (terms : Terms) (written : List (String × String)) (memory : Walker) : Prop where
  records : ∀ entry ∈ written, terms.Records written entry
  descends : terms.steady →
    (published written).Pairwise fun tip earlier => earlier.number.toNat < tip.number.toNat
  placed : terms.Placed written memory.cursor
  unskipped : terms.steady → memory.skipFastForward = false

section
variable {terms : Terms} {written written' : List (String × String)} {tip other : Tip}
  {memory : Walker} {height : UInt64} {text : String}

theorem placed_checkpoint (terms : Terms) (written : List (String × String)) :
    terms.Placed written terms.checkpoint where
  fits := terms.fits_checkpoint
  low := Nat.le_refl _
  covered _ habove hle := absurd hle (Nat.not_le.mpr habove)

theorem Placed.mono (h : terms.Placed written tip) (hsub : published written ⊆ published written') :
    terms.Placed written' tip where
  fits := h.fits
  low := h.low
  covered height habove hle := by
    obtain ⟨other, hother, hnumber⟩ := h.covered height habove hle
    exact ⟨other, hsub hother, hnumber⟩

/-- The walker may stand at the next tip as well once it is published. -/
theorem Placed.next (h : terms.Placed written tip) (hfits : terms.fits other)
    (hnumber : other.number.toNat = tip.number.toNat + 1) (hcached : Cached written other.number) :
    terms.Placed written other where
  fits := hfits
  low := by have := h.low; omega
  covered height habove hle := by
    by_cases heq : height = other.number
    · exact heq ▸ hcached
    · have hne : height.toNat ≠ other.number.toNat := fun hnat => heq (UInt64.toNat_inj.mp hnat)
      exact h.covered height habove (by omega)

theorem Records.mono {entry : String × String} (h : terms.Records written entry)
    (hsub : published written ⊆ published written') : terms.Records written' entry := by
  cases h with
  | tip h habove => exact .tip (h.mono hsub) habove
  | cursor h => exact .cursor (h.mono hsub)

/-- Below a published tip there is no hole. -/
theorem InOrder.of_published (h : terms.InOrder written memory) (htip : tip ∈ published written) :
    terms.Placed written tip ∧ terms.checkpoint.number.toNat < tip.number.toNat := by
  obtain ⟨entry, hmem, hkey, hdecoded⟩ := exists_mem_of_published htip
  cases h.records entry hmem with
  | tip hplaced habove =>
    rw [Tip.ofCacheText?_toCacheText] at hdecoded
    cases hdecoded
    exact ⟨hplaced, habove⟩
  | cursor => exact absurd rfl hkey

/-- What is found under a height is a published tip of this height. -/
theorem InOrder.of_lookup (h : terms.InOrder written memory)
    (hlookup : written.lookup (heightKey height) = some text) :
    ∃ tip ∈ published written, tip.number = height ∧ text = tip.toCacheText := by
  obtain ⟨before, after, rfl, -⟩ := List.lookup_eq_some_iff.mp hlookup
  have hmem : (heightKey height, text) ∈ before ++ (heightKey height, text) :: after :=
    List.mem_append_right before List.mem_cons_self
  generalize hentry : (heightKey height, text) = entry at hmem
  cases h.records entry (hentry ▸ hmem) with
  | tip =>
    obtain ⟨hkey, rfl⟩ := Prod.mk.inj hentry
    exact ⟨_, mem_published hmem, (heightKey_inj.mp hkey).symm, rfl⟩
  | cursor => exact absurd (Prod.mk.inj hentry).1 (heightKey_ne_cursorKey height)

/-- Where nothing is found no tip has been published. -/
theorem InOrder.not_cached (h : terms.InOrder written memory)
    (hlookup : written.lookup (heightKey height) = none) : ¬ Cached written height := by
  rintro ⟨tip, htip, rfl⟩
  obtain ⟨entry, hmem, hkey, hdecoded⟩ := exists_mem_of_published htip
  cases h.records entry hmem with
  | tip =>
    rw [Tip.ofCacheText?_toCacheText] at hdecoded
    cases hdecoded
    exact absurd (List.lookup_eq_none_iff.mp hlookup _ hmem) (by simp)
  | cursor => exact absurd rfl hkey

/-- The cursor that is found is one at which the walker may stand. -/
theorem InOrder.of_lookup_cursor (h : terms.InOrder written memory)
    (hlookup : written.lookup cursorKey = some text) :
    ∃ tip, terms.Placed written tip ∧ text = tip.toCacheText := by
  obtain ⟨before, after, hwritten, -⟩ := List.lookup_eq_some_iff.mp hlookup
  have hmem : (cursorKey, text) ∈ written := by
    rw [hwritten]
    exact List.mem_append_right before List.mem_cons_self
  generalize hentry : (cursorKey, text) = entry at hmem
  cases h.records entry hmem with
  | tip => exact absurd (Prod.mk.inj hentry).1.symm (heightKey_ne_cursorKey _)
  | cursor hplaced => exact ⟨_, hplaced, (Prod.mk.inj hentry).2⟩

/-- The cursor may be moved to where the walker may stand. -/
theorem InOrder.moveTo (h : terms.InOrder written memory) (htip : terms.Placed written tip) :
    terms.InOrder written { memory with cursor := tip } :=
  ⟨h.records, h.descends, htip, h.unskipped⟩

/-- The cursor may be stored. -/
theorem InOrder.store (h : terms.InOrder written memory) :
    terms.InOrder ((cursorKey, memory.cursor.toCacheText) :: written) memory := by
  have hsub : published written
      ⊆ published ((cursorKey, memory.cursor.toCacheText) :: written) := by simp
  refine ⟨fun entry hmem => ?_, by simpa using h.descends, h.placed.mono hsub, h.unskipped⟩
  rcases List.mem_cons.mp hmem with rfl | hmem
  · exact .cursor (h.placed.mono hsub)
  · exact (h.records entry hmem).mono hsub

/-- The tip after the cursor may be published; if tips are published in ascending order, the cursor has
to be at the top. -/
theorem InOrder.publish (h : terms.InOrder written memory) (hfits : terms.fits tip)
    (hnumber : tip.number.toNat = memory.cursor.number.toNat + 1)
    (htop : terms.steady → IsTop written memory.cursor) :
    terms.InOrder ((heightKey tip.number, tip.toCacheText) :: written) memory ∧
      terms.Placed ((heightKey tip.number, tip.toCacheText) :: written) tip := by
  have hsub : published written
      ⊆ published ((heightKey tip.number, tip.toCacheText) :: written) := by simp
  have hcached : Cached ((heightKey tip.number, tip.toCacheText) :: written) tip.number :=
    ⟨tip, by simp, rfl⟩
  have htip := (h.placed.mono hsub).next hfits hnumber hcached
  have habove : terms.checkpoint.number.toNat < tip.number.toNat := by
    have := h.placed.low
    omega
  refine ⟨⟨fun entry hmem => ?_, fun hsteady => ?_, h.placed.mono hsub, h.unskipped⟩, htip⟩
  · rcases List.mem_cons.mp hmem with rfl | hmem
    · exact .tip htip habove
    · exact (h.records entry hmem).mono hsub
  · rw [published_cons_tip]
    refine List.pairwise_cons.mpr ⟨fun earlier hearlier => ?_, h.descends hsteady⟩
    have := htop hsteady earlier hearlier
    omega

/-- If there is no tip right above a cursor, there is none above it. -/
theorem InOrder.isTop (h : terms.InOrder written memory)
    (hnone : ∀ height : UInt64, height.toNat = memory.cursor.number.toNat + 1 → ¬ Cached written height) :
    IsTop written memory.cursor := by
  intro other hother
  refine Nat.le_of_not_lt fun hlt => ?_
  have hsize := other.number.toNat_lt_size
  have hnext : (UInt64.ofNat (memory.cursor.number.toNat + 1)).toNat
      = memory.cursor.number.toNat + 1 := by
    have hsize' : UInt64.size = 2 ^ 64 := rfl
    rw [UInt64.toNat_ofNat']
    omega
  refine hnone _ hnext ((h.of_published hother).1.covered _ ?_ (by omega))
  have := h.placed.low
  omega

end

end Terms

end Walker

end BlockFeed
