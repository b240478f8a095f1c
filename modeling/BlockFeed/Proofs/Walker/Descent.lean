import BlockFeed.Proofs.Walker.Landing

/-!
# The search downwards for a point

After the node has stepped back to a point, the walker looks for the tip at that point among the cached ones:
from the cursor downwards, past heights of which nothing is cached, as deep as `searchDepth`. At the first
earlier slot it gives up. Where slots grow with the height nothing is missed by that: below an earlier slot
there are only earlier ones.

Main statement: what the search ends with, whatever is cached and wherever the cache fails (`findCached_ends`).
While nothing fails and slots do not fall with the height, it finds a tip if and only if there is one.
-/

namespace BlockFeed.Walker

open Site (Unwritten)

/-- The heights where a search looks that begins at a height. -/
def reach (top : UInt64) : Set UInt64 :=
  { height | height ≤ top ∧ top.toNat - searchDepth.toNat ≤ height.toNat }

/-- The tip that a search from a height reads at another one, when its turn comes: each height takes a question
of its own. -/
def Reads (site : Site) (top height : UInt64) (tip : Tip) : Prop :=
  (site.shared.cache.getTip (site.times (top.toNat - height.toNat)) height).1 = .ok (some tip)

/-- The heights among some where a search reads a tip at a point. -/
def sightings (site : Site) (top : UInt64) (point : Point) (heights : Set UInt64) : Set UInt64 :=
  { height | height ∈ heights ∧ ∃ tip, Reads site top height tip ∧ tip.point = point }

/-- The slots of the tips that are read at some heights do not fall with the height, wherever there is one. -/
def SlotsRise (site : Site) (top : UInt64) (heights : Set UInt64) : Prop :=
  ∀ low ∈ heights, ∀ high ∈ heights, low ≤ high → ∀ lowTip highTip, Reads site top low lowTip →
    Reads site top high highTip → lowTip.point.slot ≤ highTip.point.slot

/-- What a search for a point ends with among some heights: the highest tip at the point, if any. It may miss
them all, unless slots do not fall with the height. -/
structure Finding (site : Site) (top : UInt64) (point : Point) (heights : Set UInt64) (found : Option Tip) :
    Prop where
  greatest : ∀ tip, found = some tip → tip.point = point ∧ Reads site top tip.number tip ∧
    IsGreatest (sightings site top point heights) tip.number
  complete : SlotsRise site top heights → found = none → sightings site top point heights = ∅

section
variable {site : Site} {top height : UInt64} {point : Point} {heights : List UInt64} {tip : Tip}
  {found : Option Tip} {memory : Walker} {log : List (Interface.Event Surroundings)}

theorem Reads.exists_mem (h : Reads site top height tip) (howns : HoldsOwnTips site.shared.cache) :
    tip.number = height ∧ ∃ entry, (heightKey height, entry) ∈ site.shared.cache.entries ∧
      Tip.ofCacheText? entry.text = some tip := by
  obtain ⟨found, hget, hown⟩ := howns.getTip (site.times (top.toNat - height.toNat)) height
  exact hown tip (Except.ok.inj (hget.symm.trans h))

/-- It is enough that slots do not fall with the height among all entries of heights. -/
theorem slotsRise_of_entries (howns : HoldsOwnTips site.shared.cache)
    (h : ∀ low ∈ site.shared.cache.entries, ∀ high ∈ site.shared.cache.entries,
      ∀ lowTip ∈ Tip.ofCacheText? low.2.text, ∀ highTip ∈ Tip.ofCacheText? high.2.text,
        low.1 = heightKey lowTip.number → high.1 = heightKey highTip.number →
          lowTip.number ≤ highTip.number → lowTip.point.slot ≤ highTip.point.slot)
    (top : UInt64) (heights : Set UInt64) : SlotsRise site top heights := by
  intro low _ high _ hle lowTip highTip hlow hhigh
  obtain ⟨rfl, lowEntry, hlowMem, hlowText⟩ := hlow.exists_mem howns
  obtain ⟨rfl, highEntry, hhighMem, hhighText⟩ := hhigh.exists_mem howns
  exact h _ hlowMem _ hhighMem lowTip hlowText highTip hhighText rfl rfl hle

theorem SlotsRise.subset {heights fewer : Set UInt64} (h : SlotsRise site top heights)
    (hsubset : fewer ⊆ heights) : SlotsRise site top fewer :=
  fun low hlow high hhigh => h low (hsubset hlow) high (hsubset hhigh)

/-- Another height adds nothing to the sightings if no tip at the point is read there. -/
theorem sightings_cons (h : ∀ tip, Reads site top height tip → tip.point ≠ point) :
    sightings site top point { other | other ∈ height :: heights }
      = sightings site top point { other | other ∈ heights } := by
  ext other
  refine and_congr_left fun ⟨tip, hreads, hpoint⟩ => List.mem_cons.trans (or_iff_right ?_)
  rintro rfl
  exact h tip hreads hpoint

/-- A search may go on below a height where no tip at the point is read. -/
theorem Finding.cons (h : Finding site top point { other | other ∈ heights } found)
    (hmissing : ∀ tip, Reads site top height tip → tip.point ≠ point) :
    Finding site top point { other | other ∈ height :: heights } found where
  greatest tip htip := by
    rw [sightings_cons hmissing]
    exact h.greatest tip htip
  complete hrise hnone := by
    rw [sightings_cons hmissing]
    exact h.complete (hrise.subset fun _ => List.mem_cons_of_mem height) hnone

/-- A search may end where a tip at the point is read. -/
theorem Finding.here (howns : HoldsOwnTips site.shared.cache) (hreads : Reads site top height tip)
    (hpoint : tip.point = point) (hhighest : ∀ other ∈ height :: heights, other ≤ height) :
    Finding site top point { other | other ∈ height :: heights } (some tip) where
  greatest := by
    rintro _ ⟨⟩
    obtain ⟨rfl, -⟩ := hreads.exists_mem howns
    exact ⟨hpoint, hreads, ⟨List.mem_cons_self, tip, hreads, hpoint⟩,
      fun other hother => hhighest other hother.1⟩
  complete := nofun

/-- A search may be given up at an earlier slot. -/
theorem Finding.giveUp (hreads : Reads site top height tip) (hslot : tip.point.slot < point.slot)
    (hhighest : ∀ other ∈ height :: heights, other ≤ height) :
    Finding site top point { other | other ∈ height :: heights } none where
  greatest := nofun
  complete hrise _ := by
    refine Set.eq_empty_of_forall_notMem ?_
    rintro other ⟨hother, otherTip, hotherReads, rfl⟩
    have hslots := hrise other hother height List.mem_cons_self (hhighest other hother) otherTip tip hotherReads
      hreads
    exact UInt64.lt_irrefl _ (UInt64.lt_of_le_of_lt hslots hslot)

/-- The cache has failed, and a search with it. -/
def CacheFails (site : Site) (cause : Abort WalkerError) : Prop :=
  ∃ n error, site.faults n = some error ∧ cause = .failed (.cache error)

/-- A height whose turn has come is read as the tip there, or as nothing. -/
theorem keeps_tipAt (hdistinct : site.shared.cache.Distinct) (howns : HoldsOwnTips site.shared.cache)
    (hlog : Unwritten log) (hplace : height.toNat + log.length = top.toNat) :
    (Work.tipAt .cache height : Task (Option Tip)).Keeps (following site.behaviour Walker)
      (fun log' memory' found => log' = site.told log (.readCache (heightKey height)) ∧ memory' = memory ∧
        ∀ tip, Reads site top height tip ↔ found = some tip)
      (fun _ memory' cause => memory' = memory ∧ CacheFails site cause) log memory := by
  refine Site.keeps_readTip hdistinct hlog ?_
  rw [Site.held]
  cases hfault : site.faults log.length with
  | some error => exact ⟨rfl, log.length, error, hfault, rfl⟩
  | none =>
    obtain ⟨found, hget, -⟩ := howns.getTip (site.times log.length) height
    have hheld : decodeCached (heightKey height)
        (site.shared.cache.get (site.times log.length) (heightKey height)).1 = .ok found := hget
    dsimp only
    rw [hheld]
    refine ⟨rfl, rfl, fun tip => ?_⟩
    rw [Reads, show top.toNat - height.toNat = log.length by omega, hget, Except.ok.injEq]

/-- A search through heights that lie one below the other. -/
theorem keeps_findAmong (hdistinct : site.shared.cache.Distinct) (howns : HoldsOwnTips site.shared.cache)
    (hlog : Unwritten log)
    (hplaces : ∀ i height, heights[i]? = some height → height.toNat + (log.length + i) = top.toNat) :
    (findAmong point heights).Keeps (following site.behaviour Walker)
      (fun _ memory' found => memory' = memory ∧ Finding site top point { other | other ∈ heights } found)
      (fun _ memory' cause => memory' = memory ∧ CacheFails site cause) log memory := by
  -- from the first height on, since each question is asked at the next time
  induction heights generalizing log with
  | nil =>
    refine Routine.keeps_pure.mpr ⟨rfl, nofun, fun _ _ => ?_⟩
    exact Set.eq_empty_of_forall_notMem fun other hother => List.not_mem_nil hother.1
  | cons height rest ih =>
    have hplace : height.toNat + log.length = top.toNat := hplaces 0 height rfl
    have hrest : ∀ i other, rest[i]? = some other → other.toNat + (log.length + 1 + i) = top.toNat :=
      fun i other hother => by
        have := hplaces (i + 1) other hother
        omega
    have hhighest : ∀ other ∈ height :: rest, other ≤ height := fun other hother => by
      obtain ⟨i, hi⟩ := List.mem_iff_getElem?.mp hother
      have := hplaces i other hi
      exact UInt64.le_iff_toNat_le.mpr (by omega)
    refine Routine.keeps_bind.mpr ((keeps_tipAt hdistinct howns hlog hplace).mono ?_ fun _ _ _ => id)
    rintro _ _ found ⟨rfl, rfl, hreads⟩
    have htold : Unwritten (site.told log (.readCache (heightKey height))) := hlog.told rfl
    have hgoes := ih htold (by rwa [Site.length_told])
    cases found with
    | none =>
      refine hgoes.mono (fun _ _ _ hok => ⟨hok.1, hok.2.cons fun tip htip => ?_⟩) fun _ _ _ => id
      cases (hreads tip).mp htip
    | some tip =>
      have htip : Reads site top height tip := (hreads tip).mpr rfl
      dsimp only
      by_cases hpoint : tip.point = point
      · rw [if_pos hpoint]
        exact Routine.keeps_pure.mpr ⟨rfl, .here howns htip hpoint hhighest⟩
      · rw [if_neg hpoint]
        by_cases hslot : tip.point.slot < point.slot
        · rw [if_pos hslot]
          exact Routine.keeps_pure.mpr ⟨rfl, .giveUp htip hslot hhighest⟩
        · rw [if_neg hslot]
          refine hgoes.mono (fun _ _ _ hok => ⟨hok.1, hok.2.cons fun other hother => ?_⟩) fun _ _ _ => id
          cases (hreads other).mp hother
          exact hpoint

/-- How a search downwards from the cursor has ended. -/
structure Searched (site : Site) (point : Point) (began : Walker)
    (ending : Run.Ending Surroundings Walker (Except (Abort WalkerError) (Option Tip))) : Prop where
  memory : ending.memory = began
  /-- A tip that has been found is at the point. It is the highest one in reach that is read there. -/
  greatest : ∀ tip, ending.value = .ok (some tip) →
    tip.point = point ∧ Reads site began.cursor.number tip.number tip ∧
      IsGreatest (sightings site began.cursor.number point (reach began.cursor.number)) tip.number
  /-- While nothing fails the search comes to its end, and where slots do not fall with the height it finds a
  tip if and only if one in reach is at the point. -/
  complete : (∀ n, site.faults n = none) → ∃ found, ending.value = .ok found ∧
    (SlotsRise site began.cursor.number (reach began.cursor.number) →
      (found.isSome ↔
        (sightings site began.cursor.number point (reach began.cursor.number)).Nonempty))

/-- Among the heights in reach, what is found is the outcome of a search. -/
theorem Finding.searched {began : Walker} (h : Finding site began.cursor.number point
    (reach began.cursor.number) found) : Searched site point began ⟨log, began, .ok found⟩ where
  memory := rfl
  greatest tip htip := h.greatest tip (Except.ok.inj htip)
  complete _ := by
    refine ⟨found, rfl, fun hrise => ?_⟩
    cases found with
    | some tip => exact iff_of_true rfl ⟨tip.number, (h.greatest tip rfl).2.2.1⟩
    | none => exact iff_of_false nofun (Set.not_nonempty_iff_eq_empty.mpr (h.complete hrise rfl))

/-- Wherever the cache fails, and whatever is cached while each entry of a height holds a tip of that height: a
tip that the search downwards from the cursor finds is in reach and at the point, and while nothing fails and
slots do not fall with the height there is none to be found where it finds none. -/
theorem findCached_ends (site : Site) (point : Point) (began : Walker)
    (hdistinct : site.shared.cache.Distinct) (howns : HoldsOwnTips site.shared.cache) :
    Searched site point began (((findCached point).start began).against site.behaviour) := by
  have hreach : { height | height ∈ heightsBelow began.cursor.number } = reach began.cursor.number :=
    Set.ext fun _ => mem_heightsBelow_iff
  refine Routine.against_of_keeps (Routine.keeps_bind.mpr (keeps_cursorNow.mpr ?_))
  have hplaces : ∀ i height, (heightsBelow began.cursor.number)[i]? = some height →
      height.toNat + (0 + i) = began.cursor.number.toNat := fun i height hheight => by
    rw [Nat.zero_add]
    exact (toNat_of_getElem?_heightsBelow hheight).1
  refine (keeps_findAmong hdistinct howns (List.forall_mem_nil _) hplaces).mono ?_ ?_
  · rintro log _ found ⟨rfl, hfinding⟩
    exact (hreach ▸ hfinding).searched
  · rintro log _ _ ⟨rfl, n, error, hfault, rfl⟩
    refine ⟨rfl, nofun, fun hfaultless => ?_⟩
    rw [hfaultless] at hfault
    cases hfault

end

/-- Nothing is cached at one height below the cursor, the tip of another one has expired before its turn comes,
and two heights share a slot. -/
def patchySite : Site where
  shared := {
    outbox := .new 1
    cache := ((((({} : PointCache).insertTip 0 (.sample 1 0) 9000).insertTip 0 (.sample 2 0) 9000).insertTip 0
      ⟨⟨40, (Tip.sample 3 1).point.hash⟩, 3⟩ 9000).insertTip 0 (.sample 5 0) 1).insertTip 0
      (.sample 6 0) 9000 }
  times n := n
  mono _ _ h := h

theorem findCached_ends_sample :
    let began : Walker := { cursor := .sample 6 0 }
    let ending := ((findCached (Tip.sample 2 0).point).start began).against patchySite.behaviour
    let expired := ((findCached (Tip.sample 5 0).point).start began).against patchySite.behaviour
    patchySite.shared.cache.Distinct ∧ HoldsOwnTips patchySite.shared.cache ∧
      (∀ n, patchySite.faults n = none) ∧ SlotsRise patchySite 6 (reach 6) ∧
      ending.value = .ok (some (.sample 2 0)) ∧
      IsGreatest (sightings patchySite 6 (Tip.sample 2 0).point (reach 6)) 2 ∧
      expired.value = .ok none ∧ ¬ (sightings patchySite 6 (Tip.sample 5 0).point (reach 6)).Nonempty := by
  intro began ending expired
  have hdistinct : patchySite.shared.cache.Distinct := by decide +kernel
  have hempty : HoldsOwnTips {} := fun _ _ hentry => absurd hentry List.not_mem_nil
  have howns : HoldsOwnTips patchySite.shared.cache :=
    ((((hempty.insertTip 0 _ _).insertTip 0 _ _).insertTip 0 _ _).insertTip 0 _ _).insertTip 0 _ _
  have hrise : SlotsRise patchySite 6 (reach 6) := slotsRise_of_entries howns (by decide +kernel) 6 _
  have hfound : ending.value = .ok (some (.sample 2 0)) := by decide +kernel
  have hmissed : expired.value = .ok none := by decide +kernel
  obtain ⟨found, hvalue, hiff⟩ :=
    (findCached_ends patchySite (Tip.sample 5 0).point began hdistinct howns).complete fun _ => rfl
  obtain rfl : none = found := Except.ok.inj (hmissed.symm.trans hvalue)
  exact ⟨hdistinct, howns, fun _ => rfl, hrise, hfound,
    ((findCached_ends patchySite _ began hdistinct howns).greatest _ hfound).2.2, hmissed,
    fun hsighted => nomatch (hiff hrise).mpr hsighted⟩

end BlockFeed.Walker
