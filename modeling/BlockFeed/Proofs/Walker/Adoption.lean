import Mathlib.Order.Bounds.Basic
import BlockFeed.Proofs.Chain.TipText
import BlockFeed.Proofs.Site
import BlockFeed.Proofs.Walker.Confined
import BlockFeed.Proofs.Window

/-!
# Adopting what is cached

A pass over cached points moves the cursor up as long as the next height is cached, valid when it is read, and
holds a tip of that height. So it ends at the top of the unbroken run of such heights above the cursor
(`Covers`, `Adopts`), which the cache bounds as it is finite.

Main statement: whatever is cached and whatever fails, `fastForward_ends` tells where the cursor is left, and
what has been asked and written. A cursor at the largest height is the exception: there is no next height to
look up, and the pass breaks off (`overflow_at_largest`).
-/

namespace BlockFeed.Walker

open Surroundings (Query)
open Site (Unwritten isFailure)

/-- The heights above a cursor up to another one are cached without a gap. Each is read by a question of its
own, and holds a tip of that height then. -/
def Covers (site : Site) (cursor : Tip) (top : UInt64) : Prop :=
  cursor.number ≤ top ∧ ∀ height, cursor.number < height → height ≤ top → ∃ tip,
    (site.shared.cache.getTip (site.times (height.toNat - cursor.number.toNat - 1)) height).1
        = .ok (some tip) ∧ tip.number = height

/-- Questions that only read the tips of heights. -/
def ReadsHeights (log : List (Interface.Event Surroundings)) : Prop :=
  ∀ event ∈ log, ∃ height, event.1 = .readCache (heightKey height)

/-- Nothing has failed in a transcript. -/
def Fine (log : List (Interface.Event Surroundings)) : Prop := ∀ event ∈ log, isFailure event = false

section
variable {site : Site} {settings : WalkerSettings} {began memory : Walker}
  {log : List (Interface.Event Surroundings)} {height next : UInt64}

theorem ReadsHeights.unwritten (h : ReadsHeights log) : Unwritten log := by
  intro event hevent
  obtain ⟨height, hheight⟩ := h event hevent
  rw [hheight]
  rfl

theorem ReadsHeights.isElsewhere (h : ReadsHeights log) : ∀ event ∈ log, event.1.isElsewhere = false := by
  intro event hevent
  obtain ⟨height, hheight⟩ := h event hevent
  rw [hheight]
  rfl

theorem ReadsHeights.told (h : ReadsHeights log) (height : UInt64) :
    ReadsHeights (site.told log (.readCache (heightKey height))) := by
  intro event hevent
  rcases Site.mem_told.mp hevent with hevent | rfl
  · exact h event hevent
  · exact ⟨height, rfl⟩

/-- A cursor has been moved over cached tips, and nothing has failed. -/
structure Adopts (site : Site) (began : Walker) (log : List (Interface.Event Surroundings))
    (memory : Walker) : Prop where
  kept : memory = { began with cursor := memory.cursor }
  reads : ReadsHeights log
  fine : Fine log
  covers : Covers site began.cursor memory.cursor.number
  cursor : memory.cursor = began.cursor ∨ began.cursor.number < memory.cursor.number ∧
    (site.shared.cache.getTip (site.times (memory.cursor.number.toNat - began.cursor.number.toNat - 1))
      memory.cursor.number).1 = .ok (some memory.cursor)

/-- No tip goes on from a cursor. -/
def Stops (site : Site) (began memory : Walker) : Prop :=
  ∃ next, next.toNat = memory.cursor.number.toNat + 1 ∧ ∀ tip,
    (site.shared.cache.getTip (site.times (memory.cursor.number.toNat - began.cursor.number.toNat)) next).1
      = .ok (some tip) → tip.number ≠ next

/-- A pass has come to nothing, as the cache has failed. -/
structure Breaks (began : Walker) (log : List (Interface.Event Surroundings)) (memory : Walker)
    (cause : Abort WalkerError) : Prop where
  cause : ∃ error, cause = .failed (.cache error)
  kept : memory = { began with cursor := memory.cursor }
  reads : ReadsHeights log
  fails : ¬ Fine log

theorem Adopts.start (site : Site) (began : Walker) : Adopts site began [] began where
  kept := rfl
  reads := List.forall_mem_nil _
  fine := List.forall_mem_nil _
  covers := ⟨UInt64.le_refl _, fun _ habove hle =>
    absurd (UInt64.lt_of_lt_of_le habove hle) (UInt64.lt_irrefl _)⟩
  cursor := .inl rfl

/-- A tip goes on from the cursor. -/
theorem Adopts.adopt (h : Adopts site began log memory)
    (hcount : log.length + began.cursor.number.toNat = memory.cursor.number.toNat)
    {tip : Tip} (hnext : tip.number.toNat = memory.cursor.number.toNat + 1)
    {event : Interface.Event Surroundings} (hevent : event.1 = .readCache (heightKey tip.number))
    (hfine : isFailure event = false)
    (hheld : (site.shared.cache.getTip (site.times log.length) tip.number).1 = .ok (some tip)) :
    Adopts site began (log ++ [event]) { memory with cursor := tip } := by
  have hnumber : log.length = tip.number.toNat - began.cursor.number.toNat - 1 := by omega
  have hlt : began.cursor.number < tip.number := UInt64.lt_iff_toNat_lt.mpr (by omega)
  rw [hnumber] at hheld
  refine ⟨?_, ?_, ?_, ⟨UInt64.le_of_lt hlt, fun height habove hle => ?_⟩, .inr ⟨hlt, hheld⟩⟩
  · rw [h.kept]
  · rw [ReadsHeights, List.forall_mem_append]
    exact ⟨h.reads, List.forall_mem_singleton.mpr ⟨_, hevent⟩⟩
  · rw [Fine, List.forall_mem_append]
    exact ⟨h.fine, List.forall_mem_singleton.mpr hfine⟩
  · by_cases hold : height ≤ memory.cursor.number
    · exact h.covers.2 height habove hold
    · have hle : height ≤ tip.number := hle
      obtain rfl : height = tip.number := by
        rw [UInt64.le_iff_toNat_le] at hold hle
        exact UInt64.toNat_inj.mp (by omega)
      exact ⟨tip, hheld, rfl⟩

/-- Where no tip goes on from the cursor, it stands at the top. -/
theorem Adopts.isGreatest (h : Adopts site began log memory) (hstops : Stops site began memory) :
    IsGreatest { top | Covers site began.cursor top } memory.cursor.number := by
  refine ⟨h.covers, fun top htop => ?_⟩
  obtain ⟨next, hnext, hnone⟩ := hstops
  have hlow := UInt64.le_iff_toNat_le.mp h.covers.1
  by_contra hbeyond
  rw [UInt64.le_iff_toNat_le] at hbeyond
  obtain ⟨tip, hheld, hnumber⟩ := htop.2 next (UInt64.lt_iff_toNat_lt.mpr (by omega))
    (UInt64.le_iff_toNat_le.mpr (by omega))
  rw [show next.toNat - began.cursor.number.toNat - 1
    = memory.cursor.number.toNat - began.cursor.number.toNat by omega] at hheld
  exact hnone tip hheld hnumber

/-- Nothing is held under a key that is not listed. -/
theorem getTip_of_absent {cache : PointCache} (h : cache.entries.lookup (heightKey height) = none)
    (now : Nat) : (cache.getTip now height).1 = .ok none := by
  show decodeCached _ (cache.get now (heightKey height)).1 = _
  rw [PointCache.get_fst, h]
  rfl

/-- The cursor moves up as far as heights are cached, from below the largest one. -/
theorem keeps_adoptCached (hdistinct : site.shared.cache.Distinct)
    (habsent : site.shared.cache.entries.lookup (heightKey Word.max) = none)
    (hbelow : began.cursor.number ≠ Word.max) {above : Nat}
    (h : Adopts site began log memory)
    (hcount : log.length + began.cursor.number.toNat = memory.cursor.number.toNat)
    (habove : above + memory.cursor.number.toNat = UInt64.size) :
    (adoptCached above).Keeps (following site.behaviour Walker)
      (fun log memory _ => Adopts site began log memory ∧ Stops site began memory)
      (fun log memory cause => Breaks began log memory cause) log memory := by
  induction above generalizing log memory with
  | zero => exact absurd memory.cursor.number.toNat_lt_size (by omega)
  | succ above ih =>
    refine Routine.keeps_bind.mpr (keeps_cursorNow.mpr ?_)
    refine Routine.keeps_bind.mpr (Routine.keeps_ofExcept.mpr ?_)
    cases hadd : Word.add memory.cursor.number 1 with
    | error =>
      have hmax : memory.cursor.number = Word.max := Word.eq_largest_of_add_eq_error hadd
      -- the cursor has not begun at the largest height, and nothing is cached there
      rcases h.cursor with hcursor | ⟨-, hheld⟩
      · exact absurd (hcursor ▸ hmax) hbelow
      · rw [hmax, getTip_of_absent habsent] at hheld
        cases hheld
    | ok next =>
      have hnext : next.toNat = memory.cursor.number.toNat + 1 := Word.add_eq_ok_iff.mp hadd
      have hfailure := Site.isFailure_readCache hdistinct h.reads.unwritten (heightKey next)
      refine Routine.keeps_bind.mpr (Site.keeps_readTip hdistinct h.reads.unwritten ?_)
      cases hheld : site.held log.length (heightKey next) with
      | error error =>
        rw [hheld] at hfailure
        refine ⟨⟨error, rfl⟩, h.kept, h.reads.told next, fun hfine => ?_⟩
        rw [hfine _ (Site.mem_told.mpr (.inr rfl))] at hfailure
        cases hfailure
      | ok found =>
        rw [hheld] at hfailure
        have hcached := Site.getTip_of_held hheld
        have hstops : (∀ tip, found = some tip → tip.number ≠ next) →
            Adopts site began (site.told log (.readCache (heightKey next))) memory ∧
              Stops site began memory := by
          refine fun hnone => ⟨{ h with reads := h.reads.told next, fine := fun event hevent => ?_ },
            next, hnext, fun tip htip => ?_⟩
          · rcases Site.mem_told.mp hevent with hevent | rfl
            · exact h.fine event hevent
            · exact hfailure
          · rw [show memory.cursor.number.toNat - began.cursor.number.toNat = log.length by omega,
              hcached] at htip
            exact hnone tip (Except.ok.inj htip)
        cases found with
        | none => exact hstops nofun
        | some tip =>
          dsimp only
          by_cases hnumber : tip.number = next
          · rw [if_pos hnumber]
            subst hnumber
            refine Routine.keeps_bind.mpr (Routine.keeps_remember.mpr (ih ?_ ?_ ?_))
            · exact h.adopt hcount hnext rfl hfailure hcached
            · rw [Site.length_told]
              show log.length + 1 + began.cursor.number.toNat = tip.number.toNat
              omega
            · show above + tip.number.toNat = UInt64.size
              omega
          · rw [if_neg hnumber]
            exact hstops fun other hother => Option.some.inj hother ▸ hnumber

/-! ## Storing the cursor -/

/-- The question that stores a cursor. -/
def storing (settings : WalkerSettings) (cursor : Tip) : Query :=
  .writeCache cursorKey cursor.toCacheText settings.startPointTtl

/-- A transcript with the questions that store a cursor. -/
def stored (site : Site) (settings : WalkerSettings) (log : List (Interface.Event Surroundings))
    (cursor : Tip) : List (Interface.Event Surroundings) :=
  site.told (site.told log (storing settings cursor)) (.note (.walkerHeight cursor.number))

theorem length_stored (log : List (Interface.Event Surroundings)) (cursor : Tip) :
    (stored site settings log cursor).length = log.length + 2 := by
  rw [stored, Site.length_told, Site.length_told]

/-- The cursor is stored unless something hinders that. -/
theorem keeps_storeCursorAt {ok : List (Interface.Event Surroundings) → Walker → Unit → Prop}
    {failed : List (Interface.Event Surroundings) → Walker → Abort WalkerError → Prop}
    (hends : match site.hindrance? log.length settings.startPointTtl with
      | none => ok (stored site settings log memory.cursor) memory ()
      | some abort => failed (site.told log (storing settings memory.cursor)) memory (abort.map .cache)) :
    (storeCursor settings).Keeps (following site.behaviour Walker) ok failed log memory := by
  refine Routine.keeps_bind.mpr (keeps_cursorNow.mpr (Routine.keeps_bind.mpr (Site.keeps_writeTip ?_)))
  cases habort : site.hindrance? log.length settings.startPointTtl with
  | some abort =>
    rw [habort] at hends
    exact hends
  | none =>
    rw [habort] at hends
    exact Routine.keeps_bind.mpr (keeps_cursorNow.mpr (Routine.keeps_following_ask.mpr hends))

/-- Once the cursor has been stored its key reads as the cursor while that is valid, and all other keys read as
at first. -/
theorem get_stored (hdistinct : site.shared.cache.Distinct) (h : Unwritten log)
    (hclear : site.hindrance? log.length settings.startPointTtl = none) (cursor : Tip) {later : Nat}
    (hlater : site.times (stored site settings log cursor).length ≤ later) (key : String) :
    ((site.sharedAfter (stored site settings log cursor)).cache.get later key).1
      = if key = cursorKey then
          if later < site.times log.length + settings.startPointTtl.millis then some cursor.toCacheText
          else none
        else (site.shared.cache.get later key).1 := by
  have halike := Site.alike_of_unwritten hdistinct h
  have hlater : site.times log.length ≤ later :=
    Nat.le_trans (site.mono _ _ (by rw [length_stored]; omega)) hlater
  rw [stored, Site.cache_told_note, storing, Site.cache_told_writeCache hclear,
    PointCache.get_insert_fst hlater halike.left, halike.reads later hlater]
  by_cases hkey : key = cursorKey
  · rw [if_pos hkey, if_pos hkey, Option.filter_some, CacheEntry.isLive]
    simp only [decide_eq_true_eq]
    split <;> rfl
  · rw [if_neg hkey, if_neg hkey]

/-- The stored cursor is read while it is valid, and no longer. -/
theorem getCursor_stored (hdistinct : site.shared.cache.Distinct) (h : Unwritten log)
    (hclear : site.hindrance? log.length settings.startPointTtl = none) (cursor : Tip) {later : Nat}
    (hlater : site.times (stored site settings log cursor).length ≤ later) :
    ((site.sharedAfter (stored site settings log cursor)).cache.getCursor later).1
      = .ok (if later < site.times log.length + settings.startPointTtl.millis then some cursor
        else none) := by
  show decodeCached cursorKey (PointCache.get later cursorKey _).1 = _
  rw [get_stored hdistinct h hclear cursor hlater, if_pos rfl]
  split
  · rw [decodeCached, Tip.ofCacheText?_toCacheText]
  · rfl

/-! ## A whole pass -/

/-- The question of an event if it writes to the cache. -/
def writeOf (event : Interface.Event Surroundings) : Option Query :=
  if event.1.isWrite then some event.1 else none

/-- The questions of a transcript that write to the cache. -/
def writes (log : List (Interface.Event Surroundings)) : List Query := log.filterMap writeOf

/-- How a pass over cached points has ended in which nothing has failed. -/
structure Adopted (site : Site) (settings : WalkerSettings) (began : Walker)
    (ending : Run.Ending Surroundings Walker (Except (Abort WalkerError) Unit)) : Prop where
  value : ending.value = .ok ()
  /-- The cursor is left at the top of what is cached without a gap. -/
  top : IsGreatest { top | Covers site began.cursor top } ending.memory.cursor.number
  /-- It is the tip that is cached there, if it has moved. -/
  cached : ending.memory.cursor = began.cursor ∨ began.cursor.number < ending.memory.cursor.number ∧
    (site.shared.cache.getTip
        (site.times (ending.memory.cursor.number.toNat - began.cursor.number.toNat - 1))
      ending.memory.cursor.number).1 = .ok (some ending.memory.cursor)
  /-- The cursor is written if it has moved, and nothing is written otherwise. -/
  writes : writes ending.log =
    if ending.memory.cursor = began.cursor then [] else [storing settings ending.memory.cursor]
  /-- A cursor that has moved is read while it is valid, and no longer. It has been written by the last
  question but one; the last one shows its height. -/
  stored : ending.memory.cursor ≠ began.cursor → ∀ later, site.times ending.log.length ≤ later →
    ((site.sharedAfter ending.log).cache.getCursor later).1
      = .ok (if later < site.times (ending.log.length - 2) + settings.startPointTtl.millis then
          some ending.memory.cursor
        else none)
  /-- If the cursor has not moved, the stored one is what it was. -/
  unstored : ending.memory.cursor = began.cursor → ∀ later, site.times ending.log.length ≤ later →
    ((site.sharedAfter ending.log).cache.get later cursorKey).1 = (site.shared.cache.get later cursorKey).1

/-- How a pass over cached points has ended in which something has failed. -/
structure Failed (site : Site) (settings : WalkerSettings) (began : Walker)
    (ending : Run.Ending Surroundings Walker (Except (Abort WalkerError) Unit)) : Prop where
  /-- The failure of the cache is passed on, or the cursor has moved and cannot be stored, since the end of its
  lifetime cannot be told. -/
  value : (∃ error, ending.value = .error (.failed (.cache error))) ∨
    ending.value = .error .overflow ∧ ending.memory.cursor ≠ began.cursor ∧
      site.shared.cache.horizon < site.times (ending.log.length - 1) + settings.startPointTtl.millis
  /-- The stored cursor is what it was. -/
  unstored : ∀ later, site.times ending.log.length ≤ later →
    ((site.sharedAfter ending.log).cache.get later cursorKey).1 = (site.shared.cache.get later cursorKey).1

/-- How a pass over cached points has ended that has not been left out. -/
structure Forwarded (site : Site) (settings : WalkerSettings) (began : Walker)
    (ending : Run.Ending Surroundings Walker (Except (Abort WalkerError) Unit)) : Prop where
  /-- Nothing but the cursor has changed of what the walker remembers. -/
  kept : ending.memory = { began with cursor := ending.memory.cursor }
  /-- The node is not asked. -/
  asks : ∀ event ∈ ending.log, event.1.isElsewhere = false
  /-- No key but that of the cursor reads in another way than before. -/
  others : ∀ key ≠ cursorKey, ∀ later, site.times ending.log.length ≤ later →
    ((site.sharedAfter ending.log).cache.get later key).1 = (site.shared.cache.get later key).1
  adopted : Fine ending.log → Adopted site settings began ending
  failed : ¬ Fine ending.log → Failed site settings began ending

theorem writes_of_unwritten (h : Unwritten log) : writes log = [] :=
  List.filterMap_eq_nil_iff.mpr fun event hevent => if_neg (by simp [h event hevent])

/-- Storing a cursor is a single write. -/
theorem writes_stored (h : Unwritten log) (cursor : Tip) :
    writes (stored site settings log cursor) = [storing settings cursor] := by
  have hwrites := writes_of_unwritten h
  rw [stored, Site.told, Site.told, writes, List.filterMap_append, List.filterMap_append]
  rw [writes] at hwrites
  rw [hwrites]
  rfl

section
variable {cause : Abort WalkerError}

/-- A pass that has broken off. -/
theorem Breaks.forwarded (hdistinct : site.shared.cache.Distinct) (h : Breaks began log memory cause) :
    Forwarded site settings began ⟨log, memory, .error cause⟩ := by
  obtain ⟨⟨error, rfl⟩, hkept, hreads, hfails⟩ := h
  have halike := Site.alike_of_unwritten hdistinct hreads.unwritten
  exact {
    kept := hkept
    asks := hreads.isElsewhere
    others := fun key _ later hlater => halike.reads later hlater key
    adopted := fun hfine => absurd hfine hfails
    failed := fun _ => ⟨.inl ⟨error, rfl⟩, fun later hlater => halike.reads later hlater cursorKey⟩ }

/-- A pass that has not moved the cursor. -/
theorem Adopts.forwarded (hdistinct : site.shared.cache.Distinct) (h : Adopts site began log memory)
    (hstops : Stops site began memory) (hcursor : memory.cursor = began.cursor) :
    Forwarded site settings began ⟨log, memory, .ok ()⟩ := by
  have halike := Site.alike_of_unwritten hdistinct h.reads.unwritten
  exact {
    kept := h.kept
    asks := h.reads.isElsewhere
    others := fun key _ later hlater => halike.reads later hlater key
    adopted := fun _ => {
      value := rfl
      top := h.isGreatest hstops
      cached := h.cursor
      writes := by rw [writes_of_unwritten h.reads.unwritten, if_pos hcursor]
      stored := fun hmoved => absurd hcursor hmoved
      unstored := fun _ later hlater => halike.reads later hlater cursorKey }
    failed := fun hfails => absurd h.fine hfails }

/-- A pass that has moved the cursor and stored it. -/
theorem Adopts.forwarded_of_stored (hdistinct : site.shared.cache.Distinct)
    (h : Adopts site began log memory) (hstops : Stops site began memory)
    (hcursor : memory.cursor ≠ began.cursor)
    (hclear : site.hindrance? log.length settings.startPointTtl = none) :
    Forwarded site settings began ⟨stored site settings log memory.cursor, memory, .ok ()⟩ := by
  have hunwritten := h.reads.unwritten
  have hfine : Fine (stored site settings log memory.cursor) := by
    intro event hevent
    rcases Site.mem_told.mp hevent with hevent | rfl
    · rcases Site.mem_told.mp hevent with hevent | rfl
      · exact h.fine event hevent
      · exact Site.isFailure_writeCache.trans (by rw [hclear]; rfl)
    · rfl
  exact {
    kept := h.kept
    asks := fun event hevent => by
      rcases Site.mem_told.mp hevent with hevent | rfl
      · rcases Site.mem_told.mp hevent with hevent | rfl
        · exact h.reads.isElsewhere event hevent
        · rfl
      · rfl
    others := fun key hkey later hle => by
      rw [get_stored hdistinct hunwritten hclear _ hle, if_neg hkey]
    adopted := fun _ => {
      value := rfl
      top := h.isGreatest hstops
      cached := h.cursor
      writes := by rw [writes_stored hunwritten, if_neg hcursor]
      stored := fun _ later hle => by
        rw [length_stored, Nat.add_sub_cancel]
        exact getCursor_stored hdistinct hunwritten hclear _ hle
      unstored := fun hsame => absurd hsame hcursor }
    failed := fun hfails => absurd hfine hfails }

/-- A pass that has moved the cursor and could not store it. -/
theorem Adopts.forwarded_of_hindrance (hdistinct : site.shared.cache.Distinct)
    (h : Adopts site began log memory) (hcursor : memory.cursor ≠ began.cursor) {abort : Abort CacheError}
    (habort : site.hindrance? log.length settings.startPointTtl = some abort) :
    Forwarded site settings began ⟨site.told log (storing settings memory.cursor), memory,
      .error (abort.map .cache)⟩ := by
  have hreads : ∀ key later, site.times (site.told log (storing settings memory.cursor)).length ≤ later →
      ((site.sharedAfter (site.told log (storing settings memory.cursor))).cache.get later key).1
        = (site.shared.cache.get later key).1 := by
    intro key later hlater
    have hle : site.times log.length ≤ later :=
      Nat.le_trans (site.mono _ _ (by rw [Site.length_told]; omega)) hlater
    rw [storing, Site.sharedAfter_told_writeCache habort]
    exact (Site.alike_of_unwritten hdistinct h.reads.unwritten).reads later hle key
  have hfails : ¬ Fine (site.told log (storing settings memory.cursor)) := by
    intro hfine
    have hwrite := hfine _ (Site.mem_told.mpr (.inr rfl))
    rw [storing, Site.isFailure_writeCache, habort] at hwrite
    cases hwrite
  exact {
    kept := h.kept
    asks := fun event hevent => by
      rcases Site.mem_told.mp hevent with hevent | rfl
      · exact h.reads.isElsewhere event hevent
      · rfl
    others := fun key _ => hreads key
    adopted := fun hfine => absurd hfine hfails
    failed := fun _ => {
      value := by
        cases abort with
        | failed error => exact .inl ⟨error, rfl⟩
        | overflow =>
          refine .inr ⟨rfl, hcursor, ?_⟩
          rw [Site.length_told, Nat.add_sub_cancel]
          exact Site.horizon_lt_of_hindrance? habort
      unstored := hreads cursorKey } }

end

/-- A pass over cached points that is not left out. -/
theorem keeps_fastForward (settings : WalkerSettings) (hdistinct : site.shared.cache.Distinct)
    (habsent : site.shared.cache.entries.lookup (heightKey Word.max) = none)
    (hskip : began.skipFastForward = false) (hbelow : began.cursor.number ≠ Word.max) :
    (fastForward settings).Keeps (following site.behaviour Walker)
      (fun log memory _ => Forwarded site settings began ⟨log, memory, .ok ()⟩)
      (fun log memory cause => Forwarded site settings began ⟨log, memory, .error cause⟩) [] began := by
  refine Routine.keeps_bind.mpr (Routine.keeps_current.mpr ?_)
  rw [if_neg (by rw [hskip]; exact Bool.false_ne_true)]
  have hcount : UInt64.size - began.cursor.number.toNat + began.cursor.number.toNat = UInt64.size :=
    Nat.sub_add_cancel (Nat.le_of_lt began.cursor.number.toNat_lt_size)
  refine Routine.keeps_bind.mpr ((keeps_adoptCached hdistinct habsent hbelow (.start site began)
    (Nat.zero_add _) hcount).mono ?_ fun _ _ _ hbreaks => hbreaks.forwarded hdistinct)
  rintro log memory - ⟨hadopts, hstops⟩
  refine Routine.keeps_bind.mpr (keeps_cursorNow.mpr ?_)
  by_cases hcursor : memory.cursor ≠ began.cursor
  · rw [if_pos hcursor]
    refine keeps_storeCursorAt ?_
    cases habort : site.hindrance? log.length settings.startPointTtl with
    | some abort => exact hadopts.forwarded_of_hindrance hdistinct hcursor habort
    | none => exact hadopts.forwarded_of_stored hdistinct hstops hcursor habort
  · rw [if_neg hcursor]
    exact hadopts.forwarded hdistinct hstops (not_not.mp hcursor)

/-- A pass that begins at the largest height breaks off at once. -/
theorem fastForward_of_largest (hskip : began.skipFastForward = false)
    (hmax : began.cursor.number = Word.max) :
    fastForward settings began = .done began (.error .overflow) := by
  obtain ⟨stage, ⟨point, number⟩, skip⟩ := began
  subst hskip hmax
  rfl

/-- Whatever is cached below the largest height, and wherever the cache fails: a pass over cached points that
begins below the largest height leaves the cursor at the top of what is cached without a gap, and stores it
there if it has moved. A pass that begins at the largest height breaks off before it has asked anything. A pass
that is to be left out changes nothing but the flag that says so. -/
theorem fastForward_ends (site : Site) (settings : WalkerSettings) (began : Walker)
    (hdistinct : site.shared.cache.Distinct)
    (habsent : site.shared.cache.entries.lookup (heightKey Word.max) = none) :
    let ending := ((fastForward settings).start began).against site.behaviour
    (began.skipFastForward = true → ending = ⟨[], { began with skipFastForward := false }, .ok ()⟩) ∧
      (began.skipFastForward = false → began.cursor.number ≠ Word.max →
        Forwarded site settings began ending) ∧
      (began.skipFastForward = false → began.cursor.number = Word.max →
        ending = ⟨[], began, .error .overflow⟩) := by
  intro ending
  refine ⟨fun hskip => ?_, fun hskip hbelow => ?_, fun hskip hmax => ?_⟩
  · show ((fastForward settings) began).against site.behaviour = _
    rw [fastForward_of_skip hskip]
    rfl
  · exact Routine.against_of_keeps (keeps_fastForward settings hdistinct habsent hskip hbelow)
  · show ((fastForward settings) began).against site.behaviour = _
    rw [fastForward_of_largest hskip hmax]
    rfl

end

/-- Three tips are cached above the cursor, and a second passes with each question. The third tip has expired
before its turn comes. -/
def sampleSite : Site where
  shared := {
    outbox := .new 1
    cache := ((({} : PointCache).insertTip 0 (.sample 2 0) 9000).insertTip 0 (.sample 3 0) 9000).insertTip 0
      (.sample 4 0) 2000 }
  times n := 1000 * n
  mono _ _ h := Nat.mul_le_mul_left 1000 h

theorem fastForward_ends_sample :
    let began : Walker := { stage := .fastForward, cursor := .sample 1 0 }
    let ending := ((fastForward {}).start began).against sampleSite.behaviour
    sampleSite.shared.cache.Distinct ∧
      sampleSite.shared.cache.entries.lookup (heightKey Word.max) = none ∧
      began.skipFastForward = false ∧ began.cursor.number ≠ Word.max ∧
      ending.value = .ok () ∧ ending.memory.cursor = .sample 3 0 ∧
      writes ending.log = [storing {} (.sample 3 0)] := by
  intro began ending
  have hdistinct : sampleSite.shared.cache.Distinct := by decide +kernel
  have habsent : sampleSite.shared.cache.entries.lookup (heightKey Word.max) = none := by decide +kernel
  have hbelow : began.cursor.number ≠ Word.max := by decide
  have hforwarded := (fastForward_ends sampleSite {} began hdistinct habsent).2.1 rfl hbelow
  have hrun : ending.memory.cursor = .sample 3 0 ∧ ∀ event ∈ ending.log, isFailure event = false := by
    decide +kernel
  obtain ⟨hcursor, hfine⟩ := hrun
  have hadopted : Adopted sampleSite {} began ending := hforwarded.adopted hfine
  refine ⟨hdistinct, habsent, rfl, hbelow, hadopted.value, hcursor, ?_⟩
  rw [hadopted.writes, if_neg, hcursor]
  rw [hcursor]
  decide

/-- Nothing is cached above the cursor and nothing fails, but the pass does not come to its end. -/
theorem overflow_at_largest :
    let began : Walker := { stage := .fastForward, cursor := .sample Word.max 0 }
    let ending := ((fastForward {}).start began).against sampleSite.behaviour
    sampleSite.shared.cache.entries.lookup (heightKey Word.max) = none ∧ began.skipFastForward = false ∧
      (∀ event ∈ ending.log, isFailure event = false) ∧ ending.value = .error .overflow := by
  decide +kernel

end BlockFeed.Walker
