import BlockFeed.Proofs.Bypass.Coverage

/-!
# The canonical form of a set of ranges

Ranges are in canonical form if each of them has a height, they ascend, and between any two there is a height
that belongs to neither (`IsCanonical`). Ranges of this form are told by the heights they cover: two lists with
the same heights are the same list (`IsCanonical.eq_of_covers_iff`). A set made from ranges is of this form
(`isCanonical_ofList`), and it stays so when it is merged with another one (`isCanonical_merge`) or forgets the
heights that have been passed (`IsCanonical.consumeThrough`). So a law about sets is a law about heights
(`IsCanonical.ext`), and everything else that could be told of the ranges a set is made from is lost.

In canonical form the ends of ranges ascend, too. For that reason a range that may hold a height can be found
by halving the ranges that are left (`IsCanonical.contains_eq_search`).
-/

namespace BlockFeed.BypassRanges

open Bypass (Range)

/-- Ranges have a height each, ascend, and neither overlap nor touch. -/
structure IsCanonical (ranges : List Range) : Prop where
  inhabited : ∀ r ∈ ranges, r.start < r.stop
  apart : ranges.Pairwise fun a b => a.stop < b.start

theorem isCanonical_nil : IsCanonical [] where
  inhabited := List.forall_mem_nil _
  apart := .nil

theorem isCanonical_cons {r : Range} {rest : List Range} :
    IsCanonical (r :: rest) ↔
      r.start < r.stop ∧ (∀ q ∈ rest, r.stop < q.start) ∧ IsCanonical rest := by
  constructor
  · rintro ⟨hinhabited, hapart⟩
    obtain ⟨hr, hrest⟩ := List.forall_mem_cons.mp hinhabited
    obtain ⟨hgap, htail⟩ := List.pairwise_cons.mp hapart
    exact ⟨hr, hgap, hrest, htail⟩
  · rintro ⟨hr, hgap, hrest, htail⟩
    exact ⟨List.forall_mem_cons.mpr ⟨hr, hrest⟩, List.pairwise_cons.mpr ⟨hgap, htail⟩⟩

/-! ## One form for each set of heights -/

section Uniqueness

variable {a b r : Range} {rest more : List Range} {h : UInt64}

theorem IsCanonical.ascends {ranges : List Range} (hranges : IsCanonical ranges) : Ascends ranges := by
  refine hranges.apart.imp_of_mem fun {a b} ha _ hgap => ?_
  have hinhabited := hranges.inhabited a ha
  rw [UInt64.lt_iff_toNat_lt] at hgap hinhabited
  rw [UInt64.le_iff_toNat_le]
  omega

/-- The first height is the start of the first range. -/
theorem not_covers_nil : ¬Covers [] h := by
  rintro ⟨r, hmem, -⟩
  exact nomatch hmem

theorem covers_start (hr : r.start < r.stop) : Covers (r :: rest) r.start :=
  ⟨r, List.mem_cons_self, Range.contains_iff.mpr ⟨Nat.le_refl _, UInt64.lt_iff_toNat_lt.mp hr⟩⟩

theorem IsCanonical.start_le (hranges : IsCanonical (r :: rest)) (hcovers : Covers (r :: rest) h) :
    r.start ≤ h := by
  obtain ⟨q, hmem, hq⟩ := hcovers
  have hstart : r.start ≤ q.start := by
    rcases List.mem_cons.mp hmem with rfl | hmem
    · exact UInt64.le_refl _
    · exact (List.pairwise_cons.mp hranges.ascends).1 q hmem
  rw [Range.contains_iff, ← UInt64.le_iff_toNat_le] at hq
  exact UInt64.le_trans hstart hq.1

/-- A height after the first range is one of a later range only if it lies beyond the end. -/
theorem IsCanonical.stop_lt (hranges : IsCanonical (r :: rest)) (hcovers : Covers rest h) : r.stop < h := by
  obtain ⟨q, hmem, hq⟩ := hcovers
  have hgap := (isCanonical_cons.mp hranges).2.1 q hmem
  rw [Range.contains_iff] at hq
  rw [UInt64.lt_iff_toNat_lt] at hgap ⊢
  omega

/-- The height after the first range is missing. -/
theorem IsCanonical.not_covers_stop (hranges : IsCanonical (r :: rest)) : ¬Covers (r :: rest) r.stop := by
  rw [covers_cons, Range.contains_iff]
  rintro (hr | hrest)
  · exact Nat.lt_irrefl _ hr.2
  · exact UInt64.lt_irrefl _ (hranges.stop_lt hrest)

/-- Two lists with the same heights begin with the same range. -/
theorem IsCanonical.head_eq (ha : IsCanonical (a :: rest)) (hb : IsCanonical (b :: more))
    (hsame : ∀ h, Covers (a :: rest) h ↔ Covers (b :: more) h) : a = b := by
  have hstart : a.start = b.start := by
    refine UInt64.le_antisymm (ha.start_le ((hsame _).mpr (covers_start ?_)))
      (hb.start_le ((hsame _).mp (covers_start ?_)))
    · exact (isCanonical_cons.mp hb).1
    · exact (isCanonical_cons.mp ha).1
  -- the first missing height is the end of the first range on either side
  have hstop {a b : Range} {rest more : List Range} (ha : IsCanonical (a :: rest))
      (hsame : ∀ h, Covers (a :: rest) h ↔ Covers (b :: more) h) (hstart : a.start = b.start) :
      b.stop ≤ a.stop := by
    refine UInt64.not_lt.mp fun hlt => ha.not_covers_stop ((hsame _).mpr ?_)
    have hinhabited := (isCanonical_cons.mp ha).1
    refine covers_cons.mpr (.inl (Range.contains_iff.mpr ⟨?_, UInt64.lt_iff_toNat_lt.mp hlt⟩))
    rw [← hstart]
    exact Nat.le_of_lt (UInt64.lt_iff_toNat_lt.mp hinhabited)
  have hstops := UInt64.le_antisymm (hstop hb (fun h => (hsame h).symm) hstart.symm)
    (hstop ha hsame hstart)
  cases a
  cases b
  simp_all

/-- Ranges in canonical form are told by their heights. -/
theorem IsCanonical.eq_of_covers_iff (hrest : IsCanonical rest) (hmore : IsCanonical more)
    (hsame : ∀ h, Covers rest h ↔ Covers more h) : rest = more := by
  induction rest generalizing more with
  | nil =>
    cases more with
    | nil => rfl
    | cons b more =>
      obtain ⟨q, hq, -⟩ := (hsame _).mpr (covers_start (isCanonical_cons.mp hmore).1)
      exact nomatch hq
  | cons a rest ih =>
    cases more with
    | nil =>
      obtain ⟨q, hq, -⟩ := (hsame _).mp (covers_start (isCanonical_cons.mp hrest).1)
      exact nomatch hq
    | cons b more =>
      obtain rfl := hrest.head_eq hmore hsame
      have htail {rest more : List Range} (hrest : IsCanonical (a :: rest))
          (hsame : ∀ h, Covers (a :: rest) h ↔ Covers (a :: more) h) {h : UInt64} (hcovers : Covers rest h) :
          Covers more h := by
        have hbeyond := hrest.stop_lt hcovers
        refine (covers_cons.mp ((hsame h).mp (covers_cons.mpr (.inr hcovers)))).resolve_left fun ha => ?_
        rw [Range.contains_iff] at ha
        rw [UInt64.lt_iff_toNat_lt] at hbeyond
        omega
      rw [ih (isCanonical_cons.mp hrest).2.2 (isCanonical_cons.mp hmore).2.2
        fun h => ⟨htail hrest hsame, htail hmore fun h => (hsame h).symm⟩]

/-- Sets in canonical form that have the same heights are the same. -/
theorem IsCanonical.ext {s t : BypassRanges} (hs : IsCanonical s.ranges) (ht : IsCanonical t.ranges)
    (hsame : ∀ h, s.contains h = true ↔ t.contains h = true) : s = t := by
  have hranges : s.ranges = t.ranges := hs.eq_of_covers_iff ht fun h => by
    rw [← contains_iff_covers hs.ascends, ← contains_iff_covers ht.ascends]
    exact hsame h
  cases s
  cases t
  exact congrArg BypassRanges.mk hranges

end Uniqueness

/-! ## Sets in canonical form -/

/-- Joining ranges that ascend, and have a height each, leaves a gap after every one. -/
theorem isCanonical_join {last : Range} {rest : List Range} (hranges : Ascends (last :: rest))
    (hinhabited : ∀ r ∈ last :: rest, r.start < r.stop) : IsCanonical (join last rest) := by
  fun_induction join last rest with
  | case1 last =>
    have hlast := hinhabited last List.mem_cons_self
    exact isCanonical_cons.mpr ⟨hlast, List.forall_mem_nil _, isCanonical_nil⟩
  | case2 last r rest htouch ih =>
    obtain ⟨hlast, hrest⟩ := List.pairwise_cons.mp hranges
    obtain ⟨hinhabited, hmore⟩ := List.forall_mem_cons.mp hinhabited
    refine ih (List.pairwise_cons.mpr ⟨fun q hq => hlast q (List.mem_cons_of_mem _ hq), hrest.tail⟩)
      (List.forall_mem_cons.mpr ⟨?_, fun q hq => hmore q (List.mem_cons_of_mem _ hq)⟩)
    change last.start < max last.stop r.stop
    rw [UInt64.lt_iff_toNat_lt] at hinhabited ⊢
    rw [Word.toNat_max]
    omega
  | case3 last r rest hapart ih =>
    obtain ⟨hinhabited, hmore⟩ := List.forall_mem_cons.mp hinhabited
    refine isCanonical_cons.mpr ⟨hinhabited, fun q hq => ?_, ih hranges.tail hmore⟩
    exact UInt64.lt_of_lt_of_le (UInt64.not_le.mp hapart) ((ascends_join hranges.tail).2 q hq)

/-- A set that is made from ranges with a height each is in canonical form. -/
theorem isCanonical_ofList {ranges : List Range} (hinhabited : ∀ r ∈ ranges, r.start < r.stop) :
    IsCanonical (ofList ranges).ranges := by
  have hsorted := ascends_mergeSort ranges
  have hmembers : ∀ r ∈ ranges.mergeSort precedes, r.start < r.stop := fun r hr =>
    hinhabited r (List.mem_mergeSort.mp hr)
  unfold ofList
  cases hranges : ranges.mergeSort precedes with
  | nil => exact isCanonical_nil
  | cons r rest => exact isCanonical_join (hranges ▸ hsorted) (hranges ▸ hmembers)

/-- Making a set from the ranges of one in canonical form changes nothing. -/
theorem IsCanonical.ofList_ranges {s : BypassRanges} (hs : IsCanonical s.ranges) : ofList s.ranges = s := by
  refine (isCanonical_ofList hs.inhabited).ext hs fun h => ?_
  rw [contains_ofList, contains_iff_covers hs.ascends]

theorem isCanonical_merge {s t : BypassRanges} (hs : IsCanonical s.ranges) (ht : IsCanonical t.ranges) :
    IsCanonical (s.merge t).ranges := by
  refine isCanonical_ofList fun r hr => ?_
  exact (List.mem_append.mp hr).elim (hs.inhabited r) (ht.inhabited r)

/-- Raising the start of the first range within that range keeps the form. -/
theorem IsCanonical.raiseFirst {ranges : List Range} (hranges : IsCanonical ranges) {next : UInt64}
    (hnext : ∀ r ∈ ranges, next < r.stop) : IsCanonical (raiseFirst next ranges) := by
  cases ranges with
  | nil => exact isCanonical_nil
  | cons r rest =>
    obtain ⟨hinhabited, hgap, hrest⟩ := isCanonical_cons.mp hranges
    refine isCanonical_cons.mpr ⟨?_, hgap, hrest⟩
    have hbelow := hnext r List.mem_cons_self
    change max r.start next < r.stop
    rw [UInt64.lt_iff_toNat_lt] at hinhabited hbelow ⊢
    rw [Word.toNat_max]
    omega

/-- Forgetting heights keeps the form. -/
theorem IsCanonical.consumeThrough {s : BypassRanges} (hs : IsCanonical s.ranges) (height : UInt64) :
    IsCanonical (s.consumeThrough height).ranges := by
  have hkept : IsCanonical (s.ranges.filter (Word.satSucc height < ·.stop)) :=
    ⟨fun r hr => hs.inhabited r (List.mem_filter.mp hr).1, hs.apart.filter _⟩
  exact hkept.raiseFirst fun r hr => of_decide_eq_true (List.mem_filter.mp hr).2

/-! ## Looking up by halves -/

/-- The place that is left when halving has come down to one: of the places from `base` on, `size` of them,
those up to the middle one are left behind if that has been passed, and those from the middle one on otherwise. -/
def narrow (passed : Nat → Bool) (base size : Nat) : Nat :=
  if 1 < size then
    narrow passed (if passed (base + size / 2) then base + size / 2 else base) (size - size / 2)
  else base
termination_by size

/-- The number of places, the first ones among `size`, that have been passed. -/
def partitionPoint (passed : Nat → Bool) (size : Nat) : Nat :=
  let base := narrow passed 0 size
  if passed base then base + 1 else base

/-- The range that is looked at for a height: the one at the place that halving leads to. -/
def search (s : BypassRanges) (height : UInt64) : Option Range :=
  s.ranges[partitionPoint (fun i => s.ranges[i]?.any (·.stop ≤ height)) s.ranges.length]?

theorem narrow_spec {passed : Nat → Bool} {base size count : Nat}
    (hpassed : ∀ i, passed i = true ↔ i < count) (hbase : base ≤ count) (hcount : count ≤ base + size) :
    narrow passed base size ≤ count ∧ count ≤ narrow passed base size + 1 := by
  fun_induction narrow passed base size with
  | case1 base size hsize ih =>
    refine ih ?_ ?_ <;> split <;> rename_i hmiddle <;> rw [hpassed] at hmiddle <;> omega
  | case2 base size hsize => omega

/-- Halving counts the places that have been passed, if these are the first ones. -/
theorem partitionPoint_eq {passed : Nat → Bool} {size count : Nat}
    (hpassed : ∀ i, passed i = true ↔ i < count) (hcount : count ≤ size) :
    partitionPoint passed size = count := by
  have hnarrow : narrow passed 0 size ≤ count ∧ count ≤ narrow passed 0 size + 1 :=
    narrow_spec hpassed (Nat.zero_le count) (by omega)
  unfold partitionPoint
  dsimp only
  split <;> rename_i hlast <;> rw [hpassed] at hlast <;> omega

/-- In canonical form the ranges that end at or below a height come before those that end beyond it. -/
theorem IsCanonical.exists_split {ranges : List Range} (hranges : IsCanonical ranges) (h : UInt64) :
    ∃ front back, ranges = front ++ back ∧ (∀ r ∈ front, r.stop ≤ h) ∧ ∀ r ∈ back, h < r.stop := by
  induction ranges with
  | nil => exact ⟨[], [], rfl, List.forall_mem_nil _, List.forall_mem_nil _⟩
  | cons r rest ih =>
    obtain ⟨hinhabited, hgap, hrest⟩ := isCanonical_cons.mp hranges
    by_cases hstop : r.stop ≤ h
    · obtain ⟨front, back, rfl, hfront, hback⟩ := ih hrest
      exact ⟨r :: front, back, rfl, List.forall_mem_cons.mpr ⟨hstop, hfront⟩, hback⟩
    · refine ⟨[], r :: rest, rfl, List.forall_mem_nil _, List.forall_mem_cons.mpr ⟨UInt64.not_le.mp hstop, ?_⟩⟩
      intro q hq
      have hends := hrest.inhabited q hq
      have hgap := hgap q hq
      rw [UInt64.le_iff_toNat_le] at hstop
      rw [UInt64.lt_iff_toNat_lt] at hends hgap ⊢
      omega

/-- Halving leads to the first range that ends beyond a height. -/
theorem IsCanonical.search_eq {s : BypassRanges} (hs : IsCanonical s.ranges) (h : UInt64) :
    s.search h = s.ranges.find? (h < ·.stop) := by
  obtain ⟨front, back, hranges, hfront, hback⟩ := hs.exists_split h
  have hpassed : ∀ i, (s.ranges[i]?.any (·.stop ≤ h)) = true ↔ i < front.length := by
    intro i
    rw [hranges, List.getElem?_append]
    split
    · rename_i hi
      rw [List.getElem?_eq_getElem hi, Option.any_some, decide_eq_true_eq]
      exact iff_of_true (hfront _ (List.getElem_mem hi)) hi
    · rename_i hi
      refine iff_of_false (fun hany => ?_) hi
      obtain ⟨r, hr, hstop⟩ := (Option.any_eq_true _ _).mp hany
      have hbeyond := hback r (List.mem_of_getElem? hr)
      exact UInt64.not_le.mpr hbeyond (of_decide_eq_true hstop)
  have hfound : front.find? (h < ·.stop) = none :=
    List.find?_eq_none.mpr fun r hr => by simpa using hfront r hr
  have hlength : s.ranges.length = front.length + back.length := by rw [hranges, List.length_append]
  rw [search, partitionPoint_eq hpassed (by omega), hranges, List.find?_append, hfound, Option.none_or,
    List.getElem?_append_right (Nat.le_refl _), Nat.sub_self]
  cases back with
  | nil => rfl
  | cons r rest =>
    have hr := hback r List.mem_cons_self
    simp [hr]

theorem IsCanonical.contains_eq_search {s : BypassRanges} (hs : IsCanonical s.ranges) (h : UInt64) :
    s.contains h = (s.search h).any (·.contains h) := by
  rw [hs.search_eq, contains]
  cases s.ranges.find? (h < ·.stop) <;> rfl

/-! ## The laws of sets -/

theorem contains_eq_any (ranges : List Range) (h : UInt64) :
    (ofList ranges).contains h = ranges.any (·.contains h) := by
  rw [Bool.eq_iff_iff, contains_ofList, List.any_eq_true]
  rfl

/-- Only the heights of the ranges matter for the set that is made from them. -/
theorem ofList_eq_iff {ranges others : List Range} (hranges : ∀ r ∈ ranges, r.start < r.stop)
    (hothers : ∀ r ∈ others, r.start < r.stop) :
    ofList ranges = ofList others ↔ ∀ h, ranges.any (·.contains h) = others.any (·.contains h) := by
  simp only [← contains_eq_any]
  constructor
  · intro hsame h
    rw [hsame]
  · intro hsame
    exact (isCanonical_ofList hranges).ext (isCanonical_ofList hothers) fun h => by rw [hsame h]

section Merge

variable {s t u : BypassRanges}

theorem isCanonical_empty : IsCanonical empty.ranges := isCanonical_nil

theorem contains_merge_eq_or (hs : IsCanonical s.ranges) (ht : IsCanonical t.ranges) (h : UInt64) :
    (s.merge t).contains h = (s.contains h || t.contains h) := by
  rw [Bool.eq_iff_iff, contains_merge hs.ascends ht.ascends, Bool.or_eq_true]

theorem merge_comm (hs : IsCanonical s.ranges) (ht : IsCanonical t.ranges) : s.merge t = t.merge s :=
  (isCanonical_merge hs ht).ext (isCanonical_merge ht hs) fun h => by
    rw [contains_merge_eq_or hs ht, contains_merge_eq_or ht hs, Bool.or_comm]

theorem merge_assoc (hs : IsCanonical s.ranges) (ht : IsCanonical t.ranges) (hu : IsCanonical u.ranges) :
    (s.merge t).merge u = s.merge (t.merge u) := by
  have hst := isCanonical_merge hs ht
  have htu := isCanonical_merge ht hu
  refine (isCanonical_merge hst hu).ext (isCanonical_merge hs htu) fun h => ?_
  rw [contains_merge_eq_or hst hu, contains_merge_eq_or hs ht, contains_merge_eq_or hs htu,
    contains_merge_eq_or ht hu, Bool.or_assoc]

theorem merge_self (hs : IsCanonical s.ranges) : s.merge s = s :=
  (isCanonical_merge hs hs).ext hs fun h => by rw [contains_merge_eq_or hs hs, Bool.or_self]

theorem merge_empty (hs : IsCanonical s.ranges) : s.merge empty = s := by
  rw [merge, empty, List.append_nil]
  exact hs.ofList_ranges

end Merge

/-- A set that is made from ranges with a height each is in canonical form and holds the heights of these ranges;
it is found out by halves whether it holds one, and stripping leaves the other heights. Nothing but the heights of
the ranges matters for it, so that making it again from its own ranges changes nothing. Sets in canonical form
are merged like the sets of their heights, and they stay in that form when they are merged and when heights are
forgotten. -/
theorem canonical_set_of_ranges {ranges : List Range} (hranges : ∀ r ∈ ranges, r.start < r.stop)
    {t u : BypassRanges} (ht : IsCanonical t.ranges) (hu : IsCanonical u.ranges) :
    let s := ofList ranges
    IsCanonical s.ranges
      ∧ (∀ h, s.contains h = ranges.any (·.contains h))
      ∧ (∀ h, s.contains h = (s.search h).any (·.contains h))
      ∧ (∀ heights, s.strip heights = heights.filter fun h => !ranges.any (·.contains h))
      ∧ (∀ others, (∀ r ∈ others, r.start < r.stop) →
        (s = ofList others ↔ ∀ h, ranges.any (·.contains h) = others.any (·.contains h)))
      ∧ ofList s.ranges = s
      ∧ s.merge t = t.merge s ∧ (s.merge t).merge u = s.merge (t.merge u) ∧ s.merge s = s
      ∧ s.merge empty = s ∧ empty.merge s = s
      ∧ (∀ h, (s.merge t).contains h = (s.contains h || t.contains h))
      ∧ IsCanonical (s.merge t).ranges ∧ ∀ height, IsCanonical (s.consumeThrough height).ranges := by
  intro s
  have hs : IsCanonical s.ranges := isCanonical_ofList hranges
  have hempty : empty.merge s = s := by rw [merge_comm isCanonical_empty hs, merge_empty hs]
  have hstrip (heights : List UInt64) :
      s.strip heights = heights.filter fun h => !ranges.any (·.contains h) := by
    simp only [strip, s, contains_eq_any]
  exact ⟨hs, contains_eq_any ranges, hs.contains_eq_search, hstrip, fun _ hothers => ofList_eq_iff hranges hothers,
    hs.ofList_ranges, merge_comm hs ht, merge_assoc hs ht hu, merge_self hs, merge_empty hs, hempty,
    contains_merge_eq_or hs ht, isCanonical_merge hs ht, hs.consumeThrough⟩

/-- Ranges that overlap, touch, lie within another or are there twice. -/
def sampleRanges : List Range := [⟨15, 19⟩, ⟨50, 51⟩, ⟨10, 21⟩, ⟨21, 22⟩, ⟨50, 51⟩]

/-- Two more ranges close the gap that the sample leaves, in whichever order they are merged. -/
theorem canonical_set_of_ranges_sample :
    let s := ofList sampleRanges
    let t : BypassRanges := ⟨[⟨22, 30⟩]⟩
    let u : BypassRanges := ⟨[⟨30, 50⟩]⟩
    (∀ r ∈ sampleRanges, r.start < r.stop) ∧ IsCanonical t.ranges ∧ IsCanonical u.ranges
      ∧ IsCanonical s.ranges ∧ s.contains 20 = true ∧ (s.search 20).any (·.contains 20) = true
      ∧ s.strip [9, 20, 22, 50] = [9, 22]
      ∧ s = ofList [⟨10, 22⟩, ⟨50, 51⟩] ∧ ofList s.ranges = s
      ∧ (s.merge t).merge u = ⟨[⟨10, 51⟩]⟩ ∧ s.merge t = t.merge s
      ∧ IsCanonical (s.consumeThrough 14).ranges := by
  intro s t u
  have hranges : ∀ r ∈ sampleRanges, r.start < r.stop := by decide
  have ht : IsCanonical t.ranges := isCanonical_cons.mpr ⟨by decide, List.forall_mem_nil _, isCanonical_nil⟩
  have hu : IsCanonical u.ranges := isCanonical_cons.mpr ⟨by decide, List.forall_mem_nil _, isCanonical_nil⟩
  obtain ⟨hs, hcontains, hsearch, hstrip, hheights, hagain, hcomm, hassoc, -, -, -, -, -, hconsume⟩ :=
    canonical_set_of_ranges hranges ht hu
  have hheld : s.contains 20 = true := (hcontains 20).trans (by decide)
  have hmade : s = ofList [⟨10, 22⟩, ⟨50, 51⟩] := by
    refine (hheights _ (by decide)).mpr fun h => Bool.eq_iff_iff.mpr ?_
    simp only [sampleRanges, List.any_cons, List.any_nil, Bool.or_false, Bool.or_eq_true, Range.contains_iff,
      UInt64.reduceToNat]
    omega
  have hone : IsCanonical [⟨10, 51⟩] := isCanonical_cons.mpr ⟨by decide, List.forall_mem_nil _, isCanonical_nil⟩
  have hclosed : s.merge (t.merge u) = ⟨[⟨10, 51⟩]⟩ := by
    have htu := isCanonical_merge ht hu
    refine (isCanonical_merge hs htu).ext hone fun h => ?_
    rw [contains_merge hs.ascends htu.ascends, contains_merge ht.ascends hu.ascends, contains_ofList,
      contains_iff_covers ht.ascends, contains_iff_covers hu.ascends, contains_iff_covers hone.ascends]
    simp only [sampleRanges, t, u, covers_cons, not_covers_nil, or_false, Range.contains_iff,
      UInt64.reduceToNat]
    omega
  exact ⟨hranges, ht, hu, hs, hheld, (hsearch 20).symm.trans hheld, (hstrip _).trans (by decide), hmade, hagain,
    hassoc.trans hclosed, hcomm, hconsume 14⟩

end BlockFeed.BypassRanges
