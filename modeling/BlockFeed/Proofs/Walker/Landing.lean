import BlockFeed.Proofs.Walker.Adoption
import BlockFeed.Proofs.Walker.Search
import BlockFeed.Proofs.Walker.Upkeep

/-!
# Where a recovery lands

When the node's chain has left the cursor behind, a recovery looks for a cached tip to go back to: the one at
the point that the node has named, or else one of a few that lie further and further below the cursor. If
there is none it goes back to the checkpoint. So the cursor lands on the node's chain, not above where it has
been, or on the checkpoint (`Lands`), and no cached tip is touched on the way.

Main statement: what holds of every recovery while nothing fails (`recover_ends`).
-/

namespace BlockFeed.Walker

open Surroundings (Query)
open Site (Unwritten)

/-- The entry of each height holds a tip of that height. -/
def HoldsOwnTips (cache : PointCache) : Prop :=
  ∀ height entry, (heightKey height, entry) ∈ cache.entries →
    ∃ tip, Tip.ofCacheText? entry.text = some tip ∧ tip.number = height

/-- Publishing a tip keeps it so. -/
theorem HoldsOwnTips.insertTip {cache : PointCache} (h : HoldsOwnTips cache) (now : Nat) (tip : Tip)
    (expiresAt : Nat) : HoldsOwnTips (cache.insertTip now tip expiresAt) := by
  intro height entry hentry
  rcases PointCache.mem_insert hentry with ⟨hkey, htext⟩ | hold
  · dsimp only at htext
    exact ⟨tip, by rw [htext, Tip.ofCacheText?_toCacheText], (heightKey_inj.mp hkey).symm⟩
  · exact h height entry hold

/-- Then a height reads as nothing, or as the tip of that height in its entry. -/
theorem HoldsOwnTips.getTip {cache : PointCache} (h : HoldsOwnTips cache) (now : Nat) (height : UInt64) :
    ∃ found, (cache.getTip now height).1 = .ok found ∧ ∀ tip, found = some tip → tip.number = height ∧
      ∃ entry, (heightKey height, entry) ∈ cache.entries ∧ Tip.ofCacheText? entry.text = some tip := by
  show ∃ found, decodeCached _ (cache.get now (heightKey height)).1 = _ ∧ _
  cases hread : (cache.get now (heightKey height)).1 with
  | none => exact ⟨none, rfl, nofun⟩
  | some text =>
    obtain ⟨entry, hentry, rfl⟩ := PointCache.exists_mem_of_get hread
    obtain ⟨tip, hdecoded, hnumber⟩ := h height entry hentry
    refine ⟨some tip, by rw [decodeCached, hdecoded], ?_⟩
    rintro _ ⟨⟩
    exact ⟨hnumber, entry, hentry, hdecoded⟩

/-- Nothing fails at a site, and the node there says of each point whether it is on its chain. -/
structure Sees (site : Site) (onChain : Point → Prop) : Prop where
  faultless : ∀ n, site.faults n = none
  tells : ∀ point, ∃ intersection, site.elsewhere (.findIntersect point) = Except.ok intersection ∧
    ((∃ tip, intersection = .found point tip) ↔ onChain point)

/-- A tip is cached under its height when some question is asked. -/
def IsHeld (site : Site) (tip : Tip) : Prop :=
  ∃ n, (site.shared.cache.getTip (site.times n) tip.number).1 = .ok (some tip)

/-- Where a cursor may land that a recovery moves back, towards a point or not: at the checkpoint, or at a cached
tip that is on the node's chain, not above it, and below it if no point has been named. -/
def Lands (site : Site) (settings : WalkerSettings) (onChain : Point → Prop) (target : Option Point)
    (cursor landing : Tip) : Prop :=
  landing = settings.startPoint.tip ∨ IsHeld site landing ∧ onChain landing.point ∧
    landing.number ≤ cursor.number ∧ (target = none → landing.number < cursor.number)

section
variable {site : Site} {settings : WalkerSettings} {onChain : Point → Prop} {memory : Walker}
  {log : List (Interface.Event Surroundings)}

/-- A height is read as the tip that is cached there, or as nothing. -/
theorem Sees.held (h : Sees site onChain) (howns : HoldsOwnTips site.shared.cache) (n : Nat)
    (height : UInt64) :
    ∃ found, site.held n (heightKey height) = .ok found ∧
      ∀ tip, found = some tip → IsHeld site tip ∧ tip.number = height := by
  have hread : site.held n (heightKey height) = (site.shared.cache.getTip (site.times n) height).1 := by
    rw [Site.held, h.faultless]
    rfl
  obtain ⟨found, hfound, hown⟩ := howns.getTip (site.times n) height
  refine ⟨found, hread.trans hfound, fun tip htip => ?_⟩
  obtain ⟨rfl, -⟩ := hown tip htip
  exact ⟨⟨n, htip ▸ hfound⟩, rfl⟩

/-- Cached tips are found, and nothing is written or remembered meanwhile. -/
theorem Sees.finds (h : Sees site onChain) (hdistinct : site.shared.cache.Distinct)
    (howns : HoldsOwnTips site.shared.cache) (memory : Walker) :
    Finds (following site.behaviour Walker) (fun log memory' => Unwritten log ∧ memory' = memory)
      (fun _ height tip => IsHeld site tip ∧ tip.number = height) fun _ _ _ => False := by
  rintro log _ height ⟨hlog, rfl⟩
  obtain ⟨found, hheld, hfound⟩ := h.held howns log.length height
  refine Site.keeps_readTip hdistinct hlog ?_
  rw [hheld]
  exact ⟨⟨hlog.told rfl, rfl⟩, hfound⟩

/-- The node confirms what is on its chain. -/
theorem Sees.confirms (h : Sees site onChain) (point : Point) (hlog : Unwritten log) :
    (do
      let answer ← Routine.ask (I := Surroundings) (.findIntersect point)
      Work.ofAnswer .node answer : Task Intersection).Keeps (following site.behaviour Walker)
        (fun log memory' intersection => (Unwritten log ∧ memory' = memory) ∧
          ∀ nodeTip, intersection = .found point nodeTip → onChain point)
        (fun _ _ _ => False) log memory := by
  obtain ⟨intersection, htells, hchain⟩ := h.tells point
  refine Routine.keeps_bind.mpr (Routine.keeps_following_ask.mpr ?_)
  have hanswer : site.behaviour log (.findIntersect point) = Except.ok intersection := htells
  have htold : Unwritten (site.told log (.findIntersect point)) := hlog.told rfl
  rw [Site.told, hanswer] at htold
  rw [hanswer]
  exact ⟨⟨htold, rfl⟩, fun nodeTip hfound => hchain.mp ⟨nodeTip, hfound⟩⟩

/-- What is found at a point is cached, and not above the cursor. -/
theorem Sees.keeps_findTarget (h : Sees site onChain) (hdistinct : site.shared.cache.Distinct)
    (howns : HoldsOwnTips site.shared.cache) (hlog : Unwritten log) (target : Option Point) :
    (findTarget target).Keeps (following site.behaviour Walker)
      (fun log memory' found => (Unwritten log ∧ memory' = memory) ∧ ∀ tip, found = some tip →
        target = some tip.point ∧ IsHeld site tip ∧ tip.number ≤ memory.cursor.number)
      (fun _ _ _ => False) log memory := by
  cases target with
  | none => exact Routine.keeps_pure.mpr ⟨⟨hlog, rfl⟩, nofun⟩
  | some point =>
    dsimp only [findTarget]
    by_cases horigin : point.isOrigin = true
    · rw [if_pos horigin]
      exact Routine.keeps_pure.mpr ⟨⟨hlog, rfl⟩, nofun⟩
    · rw [if_neg horigin]
      refine Routine.keeps_bind.mpr (keeps_cursorNow.mpr ?_)
      refine ((h.finds hdistinct howns memory).findAmong point _ ⟨hlog, rfl⟩).mono ?_ fun _ _ _ => id
      rintro _ _ _ ⟨hkept, hfound⟩
      refine ⟨hkept, fun tip htip => ?_⟩
      obtain ⟨rfl, _, hheight, hheld, rfl⟩ := hfound tip htip
      exact ⟨rfl, hheld, UInt64.le_iff_toNat_le.mpr (toNat_le_of_mem_heightsBelow hheight)⟩

/-- What the node confirms is cached, and below the cursor. -/
theorem Sees.keeps_probeIntersection (h : Sees site onChain) (hdistinct : site.shared.cache.Distinct)
    (howns : HoldsOwnTips site.shared.cache) (hlog : Unwritten log) :
    probeIntersection.Keeps (following site.behaviour Walker)
      (fun log memory' found => (Unwritten log ∧ memory' = memory) ∧ ∀ tip, found = some tip →
        IsHeld site tip ∧ onChain tip.point ∧ tip.number < memory.cursor.number)
      (fun _ _ _ => False) log memory := by
  refine Routine.keeps_bind.mpr (keeps_cursorNow.mpr ?_)
  refine ((h.finds hdistinct howns memory).probeAmong
    (fun _ height tip => (IsHeld site tip ∧ tip.number = height) ∧ onChain tip.point) ?_ _ _
    ⟨hlog, rfl⟩).mono ?_ fun _ _ _ => id
  · rintro log memory' height tip ⟨hlog, rfl⟩ htip
    refine (h.confirms tip.point hlog).mono ?_ fun _ _ _ => id
    exact fun _ _ _ hok => ⟨hok.1, fun nodeTip hfound => ⟨htip, hok.2 nodeTip hfound⟩⟩
  · rintro _ _ _ ⟨hkept, hfound⟩
    refine ⟨hkept, fun tip htip => ?_⟩
    obtain ⟨offset, hoffset, ⟨hheld, hnumber⟩, hchain⟩ := hfound tip htip
    refine ⟨hheld, hchain, ?_⟩
    rw [hnumber]
    exact UInt64.lt_iff_toNat_lt.mpr (toNat_sub_lt_of_mem_probeOffsets hoffset)

/-- A cursor has been moved back and stored, and the next pass over cached points is to be left out. -/
def Rewinds (site : Site) (settings : WalkerSettings) (onChain : Point → Prop) (target : Option Point)
    (began : Walker) (log : List (Interface.Event Surroundings)) (memory : Walker) : Prop :=
  ∃ before landing, Unwritten before ∧ Lands site settings onChain target began.cursor landing ∧
    site.hindrance? before.length settings.startPointTtl = none ∧
    log = stored site settings before landing ∧
    memory = { began with cursor := landing, skipFastForward := true }

/-- A cursor that is stored at the time of some question of a transcript would have a lifetime without an
end. -/
def Untold (site : Site) (settings : WalkerSettings) (log : List (Interface.Event Surroundings)) : Prop :=
  ∃ n < log.length, site.shared.cache.horizon < site.times n + settings.startPointTtl.millis

instance (site : Site) (settings : WalkerSettings) (log : List (Interface.Event Surroundings)) :
    Decidable (Untold site settings log) :=
  inferInstanceAs (Decidable (∃ n, n < log.length ∧
    site.shared.cache.horizon < site.times n + settings.startPointTtl.millis))

/-- Nothing else hinders a cursor from being stored. -/
theorem Sees.eq_overflow_of_hindrance? (h : Sees site onChain) {n : Nat} {lifetime : Duration}
    {abort : Abort CacheError} (habort : site.hindrance? n lifetime = some abort) : abort = .overflow := by
  rw [Site.hindrance?, h.faultless] at habort
  dsimp only at habort
  split at habort
  · cases habort
  · exact (Option.some.inj habort).symm

theorem Sees.keeps_rewind (h : Sees site onChain) (hdistinct : site.shared.cache.Distinct)
    (howns : HoldsOwnTips site.shared.cache) (hlog : Unwritten log) {target : Option Point}
    (htarget : ∀ point, target = some point → onChain point) :
    (rewind settings target).Keeps (following site.behaviour Walker)
      (fun log memory' _ => Rewinds site settings onChain target memory log memory')
      (fun log _ cause => cause = .overflow ∧ Untold site settings log) log memory := by
  -- both searches end in the same steps
  have hmove : ∀ {log : List (Interface.Event Surroundings)} (found : Option Tip), Unwritten log →
      Lands site settings onChain target memory.cursor (found.getD settings.startPoint.tip) →
      (do
        moveTo (found.getD settings.startPoint.tip)
        Routine.remember fun w => { w with skipFastForward := true }
        storeCursor settings : Task Unit).Keeps (following site.behaviour Walker)
          (fun log memory' _ => Rewinds site settings onChain target memory log memory')
          (fun log _ cause => cause = .overflow ∧ Untold site settings log) log memory := by
    intro log found hlog hlands
    refine Routine.keeps_bind.mpr (Routine.keeps_remember.mpr ?_)
    refine Routine.keeps_bind.mpr (Routine.keeps_remember.mpr (keeps_storeCursorAt ?_))
    cases habort : site.hindrance? log.length settings.startPointTtl with
    | none => exact ⟨log, _, hlog, hlands, habort, rfl, rfl⟩
    | some abort =>
      obtain rfl := h.eq_overflow_of_hindrance? habort
      exact ⟨rfl, log.length, by rw [Site.length_told]; omega, Site.horizon_lt_of_hindrance? habort⟩
  refine Routine.keeps_bind.mpr ((h.keeps_findTarget hdistinct howns hlog target).mono ?_
    fun _ _ _ => False.elim)
  rintro log₁ _ found ⟨⟨hlog₁, rfl⟩, hfound⟩
  cases found with
  | some tip =>
    obtain ⟨hpoint, hheld, hle⟩ := hfound tip rfl
    refine hmove (some tip) hlog₁ (.inr ⟨hheld, htarget _ hpoint, hle, fun hnone => ?_⟩)
    rw [hnone] at hpoint
    cases hpoint
  | none =>
    -- nothing is cached at the point, or no point has been named: the node is asked
    refine Routine.keeps_bind.mpr ((h.keeps_probeIntersection hdistinct howns hlog₁).mono ?_
      fun _ _ _ => False.elim)
    rintro log₂ _ found ⟨⟨hlog₂, rfl⟩, hfound⟩
    refine hmove found hlog₂ ?_
    cases found with
    | none => exact .inl rfl
    | some tip =>
      obtain ⟨hheld, hchain, hlt⟩ := hfound tip rfl
      exact .inr ⟨hheld, hchain, UInt64.le_of_lt hlt, fun _ => hlt⟩

/-! ## The next pass -/

/-- Whatever is answered, the walker leaves out the next pass over cached points that it comes to: it asks
nothing then and stays where it is. -/
def LeavesOut (settings : WalkerSettings) (memory : Walker) : Prop :=
  ∀ b₁ b₂ b₃ : Behaviour Surroundings,
    let first := (((advance settings).start memory).against b₁).memory
    let second := (((advance settings).start first).against b₂).memory
    second.stage = .fastForward → ((advance settings).start second).against b₃
      = ⟨[], { second with stage := .walking, skipFastForward := false }, .ok .progressed⟩

theorem leavesOut_of_recovering (hstage : memory.stage = .recovering)
    (hskip : memory.skipFastForward = true) : LeavesOut settings memory := by
  obtain ⟨stage, cursor, skip⟩ := memory
  obtain rfl : stage = .recovering := hstage
  intro b₁ b₂ b₃ first second hfast
  -- the flag survives the bootstrap in between, and only then decides
  have hsecond : second.skipFastForward = true := by
    have hbootstrap : (bootstrap settings).Confined (fun memory => memory.skipFastForward = true)
        fun _ => True := spares_skip.bootstrap
    have hconfined : Run.Confined (fun memory => memory.skipFastForward = true) (fun _ => True)
        ((advance settings).start first) :=
      (hbootstrap.bind fun _ => confined_entering .fastForward) first hskip
    exact hconfined.against b₂
  generalize second = memory at hfast hsecond
  obtain ⟨stage, cursor, skip⟩ := memory
  obtain rfl : stage = .fastForward := hfast
  show Run.against b₃ (((fastForward settings ⟨.fastForward, cursor, skip⟩)).bind _) = _
  rw [fastForward_of_skip hsecond]
  rfl

/-! ## A whole recovery -/

/-- How a recovery has ended that moves the cursor back, towards a point or not. -/
structure Landed (site : Site) (settings : WalkerSettings) (onChain : Point → Prop) (target : Option Point)
    (began : Walker) (ending : Run.Ending Surroundings Walker (Except (Abort WalkerError) Unit)) : Prop where
  value : ending.value = .ok ()
  memory : ending.memory = ⟨.recovering, ending.memory.cursor, true⟩
  lands : Lands site settings onChain target began.cursor ending.memory.cursor
  /-- The stored cursor is the one where the walker stands, while it is valid. It has been written by the last
  question but one. -/
  cursor : ∀ later, site.times ending.log.length ≤ later →
    ((site.sharedAfter ending.log).cache.getCursor later).1
      = .ok (if later < site.times (ending.log.length - 2) + settings.startPointTtl.millis then
          some ending.memory.cursor
        else none)
  /-- No other key reads in another way than before. -/
  others : ∀ key ≠ cursorKey, ∀ later, site.times ending.log.length ≤ later →
    ((site.sharedAfter ending.log).cache.get later key).1 = (site.shared.cache.get later key).1
  /-- The next pass over cached points does not move the cursor. -/
  passes : LeavesOut settings ending.memory

/-- How a recovery has ended that leaves the cursor where it is. -/
structure Stayed (site : Site) (began : Walker)
    (ending : Run.Ending Surroundings Walker (Except (Abort WalkerError) Unit)) : Prop where
  value : ending.value = .ok ()
  memory : ending.memory = { began with stage := .recovering }
  keys : ∀ key later, site.times ending.log.length ≤ later →
    ((site.sharedAfter ending.log).cache.get later key).1 = (site.shared.cache.get later key).1

theorem Rewinds.landed (hdistinct : site.shared.cache.Distinct)
    {target : Option Point} {began memory : Walker}
    (hrewinds : Rewinds site settings onChain target { began with stage := .recovering } log memory) :
    Landed site settings onChain target began ⟨log, memory, .ok ()⟩ := by
  obtain ⟨before, landing, hbefore, hlands, hclear, rfl, rfl⟩ := hrewinds
  exact {
    value := rfl
    memory := rfl
    lands := hlands
    cursor := fun later hle => by
      rw [length_stored, Nat.add_sub_cancel]
      exact getCursor_stored hdistinct hbefore hclear landing hle
    others := fun key hkey later hle => by
      rw [get_stored hdistinct hbefore hclear landing hle, if_neg hkey]
    passes := leavesOut_of_recovering rfl rfl }

/-- A recovery has moved the cursor back, if the end of the cursor's lifetime can be told. -/
def LandsIfTold (site : Site) (settings : WalkerSettings) (onChain : Point → Prop) (target : Option Point)
    (began : Walker) (ending : Run.Ending Surroundings Walker (Except (Abort WalkerError) Unit)) : Prop :=
  ¬ Untold site settings ending.log → Landed site settings onChain target began ending

/-- A recovery that moves the cursor back. -/
theorem Sees.landed (h : Sees site onChain) (hdistinct : site.shared.cache.Distinct)
    (howns : HoldsOwnTips site.shared.cache) (began : Walker) (restart : Measurement)
    {target : Option Point} (htarget : ∀ point, target = some point → onChain point) :
    let recovery : Task Unit := do
      Work.note restart
      enter .recovering
      Work.regardless (rewind settings target)
    LandsIfTold site settings onChain target began ((recovery.start began).against site.behaviour) := by
  intro recovery
  have hnoted : Unwritten (site.told [] (.note restart)) := Unwritten.told (List.forall_mem_nil _) rfl
  refine Routine.against_of_keeps (Routine.keeps_bind.mpr (Routine.keeps_following_ask.mpr ?_))
  refine Routine.keeps_bind.mpr (Routine.keeps_remember.mpr (Work.keeps_regardless.mpr ?_))
  refine (h.keeps_rewind hdistinct howns hnoted htarget).mono ?_ ?_
  · exact fun _ _ _ hrewinds _ => hrewinds.landed hdistinct
  · rintro log _ _ ⟨rfl, huntold⟩ htold
    exact absurd huntold htold

/-- A recovery that leaves the cursor where it is. -/
theorem stayed_of_steady (site : Site) (hdistinct : site.shared.cache.Distinct) (settings : WalkerSettings)
    (began : Walker) {error : WalkerError} (h : error.turnsBack = false) :
    Stayed site began (((recover settings error).start began).against site.behaviour) := by
  have halike : (site.sharedAfter (site.told [] (.note (.walkerRestart error.reason)))).cache.Alike
      (site.times 1) site.shared.cache :=
    Site.alike_of_unwritten hdistinct (Unwritten.told (List.forall_mem_nil _) rfl)
  have hending : ((recover settings error).start began).against site.behaviour
      = ⟨site.told [] (.note (.walkerRestart error.reason)), { began with stage := .recovering }, .ok ()⟩ := by
    cases error with
    | rolledBack => cases h
    | intersectNotFound => cases h
    | _ => rfl
  rw [hending]
  exact ⟨rfl, rfl, fun key later hlater => halike.reads later hlater key⟩

/-- While nothing fails, and each entry of a height holds a tip of that height: where the node has stepped back
to a point of its chain, or does not know the cursor, a recovery moves the cursor back to its chain or to the
checkpoint and stores it there, without touching a cached tip, and the next pass over cached points is left
out. A recovery from any other failure moves nothing. That the cursor can be stored takes that the end of its
lifetime can be told. -/
theorem recover_ends (site : Site) (settings : WalkerSettings) (onChain : Point → Prop) (began : Walker)
    (error : WalkerError) (hdistinct : site.shared.cache.Distinct)
    (howns : HoldsOwnTips site.shared.cache) (hsees : Sees site onChain) :
    let ending := ((recover settings error).start began).against site.behaviour
    (¬ Untold site settings ending.log →
      (∀ point, error = .rolledBack point → onChain point →
          Landed site settings onChain (some point) began ending) ∧
        ∀ cursor, error = .intersectNotFound cursor → Landed site settings onChain none began ending) ∧
      (error.turnsBack = false → Stayed site began ending) := by
  intro ending
  refine ⟨fun htold => ⟨?_, ?_⟩, stayed_of_steady site hdistinct settings began⟩
  · rintro point rfl hchain
    refine hsees.landed hdistinct howns began _ ?_ htold
    rintro _ ⟨⟩
    exact hchain
  · rintro cursor rfl
    exact hsees.landed hdistinct howns began _ nofun htold

end

/-- The points of the node's chain once it has given up what it had above the second height. -/
def sampleChain : List Point := [(Tip.sample 1 0).point, (Tip.sample 2 0).point, (Tip.sample 3 1).point]

/-- Four tips are cached, of which the node has given up the last two. -/
def forkedSite : Site where
  shared := {
    outbox := .new 1
    cache := [1, 2, 3, 4].foldl (fun cache height => cache.insertTip 0 (.sample height 0) 9000) {} }
  times n := n
  mono _ _ h := h
  elsewhere
    | .findIntersect point =>
      if point ∈ sampleChain then Except.ok (.found point (.sample 3 1))
      else Except.ok (.notFound (.sample 3 1))
    | query => query.silence

theorem sees_forkedSite : Sees forkedSite (· ∈ sampleChain) where
  faultless _ := rfl
  tells point := by
    by_cases hpoint : point ∈ sampleChain
    · exact ⟨.found point (.sample 3 1), if_pos hpoint, fun _ => hpoint, fun _ => ⟨_, rfl⟩⟩
    · exact ⟨.notFound (.sample 3 1), if_neg hpoint, nofun, fun hmem => absurd hmem hpoint⟩

theorem recover_ends_sample :
    let began : Walker := { stage := .walking, cursor := .sample 4 0 }
    let ending := ((recover {} (.intersectNotFound began.cursor)).start began).against forkedSite.behaviour
    forkedSite.shared.cache.Distinct ∧ HoldsOwnTips forkedSite.shared.cache ∧
      Sees forkedSite (· ∈ sampleChain) ∧ ¬ Untold forkedSite {} ending.log ∧
      ending.memory.cursor = .sample 2 0 ∧ Landed forkedSite {} (· ∈ sampleChain) none began ending := by
  intro began ending
  have hrun : forkedSite.shared.cache.Distinct ∧ ¬ Untold forkedSite {} ending.log ∧
      ending.memory.cursor = .sample 2 0 := by decide +kernel
  have hempty : HoldsOwnTips {} := fun _ _ hentry => absurd hentry List.not_mem_nil
  have howns : HoldsOwnTips forkedSite.shared.cache :=
    (((hempty.insertTip 0 _ _).insertTip 0 _ _).insertTip 0 _ _).insertTip 0 _ _
  obtain ⟨hdistinct, htold, hcursor⟩ := hrun
  obtain ⟨hlands, -⟩ := recover_ends forkedSite {} _ began _ hdistinct howns sees_forkedSite
  exact ⟨hdistinct, howns, sees_forkedSite, htold, hcursor, (hlands htold).2 _ rfl⟩

end BlockFeed.Walker
