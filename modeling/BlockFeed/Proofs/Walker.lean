import BlockFeed.Proofs.Feed.Conduct
import BlockFeed.Proofs.Walker.Search

/-!
# The conduct of the walker

The cursor of the walker stands on every later chain, and the walker caches settled tips only. Both hold
because it asks for no more points than are confirmed below a height that has been reached
(`stays_walk`), and because any other tip it moves to comes out of the cache.

Main statements: a step (`stays_advance`) and a recovery from any failure (`stays_recover`) keep the
contract, so a walker may be given up at any moment and go on from what it remembers.
-/

namespace BlockFeed.Walker

/-- The cursor stands on every later chain. -/
def Fit (node : History) (now : Nat) (w : Walker) : Prop := node.Stands now w.cursor

theorem lasts_fit (node : History) : History.Lasts (Fit node) :=
  fun _ _ _ hle hfit => History.Stands.mono hfit hle

section
variable {node : History} {now : Nat} {settings : WalkerSettings} {tip cursor : Tip}

/-! ## Parts of steps -/

theorem stays_enter (stage : Stage) :
    node.Stays (Fit node) now (enter stage) fun _ _ => True :=
  History.stays_remember fun _ hfit => hfit

theorem stays_moveTo (h : node.Stands now cursor) :
    node.Stays (Fit node) now (moveTo cursor) fun _ _ => True :=
  History.stays_remember fun _ _ => h

theorem stays_cursorNow :
    node.Stays (Fit node) now cursorNow fun now' cursor => node.Stands now' cursor :=
  History.stays_current.bind fun _ _ _ hfit => .pure hfit

theorem stays_showHeight : node.Stays (Fit node) now showHeight fun _ _ => True :=
  stays_cursorNow.bind fun _ _ _ _ => History.stays_note (lasts_fit node) _

/-- What is read under a key can be cached under it. -/
theorem stays_readTip (key : String) :
    node.Stays (Fit node) now (Work.readTip WalkerError.cache key) fun now' found => ∀ tip, found = some tip →
      ∃ text, node.Cacheable now' key text ∧ Tip.ofCacheText? text = some tip := by
  apply (History.stays_ask (lasts_fit node) (.readCache key) trivial rfl).bind
  intro now' answer _ hinforms
  apply History.stays_ofExcept_bind
  rintro (_ | text) rfl
  · exact .pure fun tip hnone => nomatch hnone
  · cases htip : Tip.ofCacheText? text with
    | none =>
      rw [decodeCached, htip]
      exact .fail
    | some tip =>
      rw [decodeCached, htip]
      apply History.Stays.pure
      intro tip' htip'
      cases htip'
      exact ⟨text, hinforms text rfl, htip⟩

/-- The cached tip of a height is settled. -/
theorem stays_tipAt (height : UInt64) :
    node.Stays (Fit node) now (Work.tipAt WalkerError.cache height) fun now' found =>
      ∀ tip, found = some tip → node.SettledTip now' tip := by
  apply (stays_readTip (heightKey height)).mono
  intro now' found _ hfound tip htip
  obtain ⟨text, hcacheable, hdecoded⟩ := hfound tip htip
  obtain ⟨block, hsettled, hblock, -⟩ := hcacheable.settled rfl hdecoded
  exact ⟨block, hsettled, hblock⟩

theorem stays_writeTip {key : String} {lifetime : Duration}
    (h : node.Cacheable now key tip.toCacheText) :
    node.Stays (Fit node) now (Work.writeTip WalkerError.cache key tip lifetime) fun _ _ => True := by
  apply (History.stays_ask (lasts_fit node) (.writeCache key tip.toCacheText lifetime) h rfl).bind
  intro now' answer _ _
  cases answer with
  | ok => exact .pure trivial
  | error cause => exact .fail

theorem stays_storeCursor : node.Stays (Fit node) now (storeCursor settings) fun _ _ => True :=
  stays_cursorNow.bind fun _ _ _ hcursor =>
    (stays_writeTip (.cursor hcursor)).bind fun _ _ _ _ => stays_showHeight

/-! ## The steps -/

theorem stays_bootstrap (hstart : ∀ now, node.Stands now settings.startPoint.tip) :
    node.Stays (Fit node) now (bootstrap settings) fun _ _ => True := by
  apply (stays_readTip cursorKey).bind
  intro now' stored _ hstored
  have hcursor : node.Stands now' (stored.getD settings.startPoint.tip) := by
    cases stored with
    | none => exact hstart now'
    | some tip =>
      obtain ⟨text, hcacheable, hdecoded⟩ := hstored tip rfl
      exact hcacheable.stands rfl hdecoded
  exact (stays_moveTo hcursor).bind fun _ _ _ _ => stays_showHeight

/-- Whatever is cached above the cursor, the cursor may move to it. -/
theorem stays_adoptCached (above : Nat) :
    node.Stays (Fit node) now (adoptCached above) fun _ _ => True := by
  induction above generalizing now with
  | zero => exact .fail
  | succ above ih =>
    apply stays_cursorNow.bind
    intro now₁ cursor _ _
    apply History.stays_ofExcept_bind
    intro next _
    apply (stays_tipAt next).bind
    intro now₂ found _ hfound
    cases found with
    | none => exact .pure trivial
    | some tip =>
      dsimp only
      by_cases hnext : tip.number = next
      · rw [if_pos hnext]
        exact (stays_moveTo (hfound tip rfl).stands).bind fun _ _ _ _ => ih
      · rw [if_neg hnext]
        exact .pure trivial

theorem stays_fastForward : node.Stays (Fit node) now (fastForward settings) fun _ _ => True := by
  apply History.stays_current.bind
  intro now₁ walker _ hfit
  by_cases hskip : walker.skipFastForward = true
  · rw [if_pos hskip]
    exact History.stays_remember fun _ hfit => hfit
  · rw [if_neg hskip]
    apply (stays_adoptCached _).bind
    intro now₂ _ _ _
    apply stays_cursorNow.bind
    intro now₃ cursor _ _
    by_cases hmoved : cursor ≠ walker.cursor
    · rw [if_pos hmoved]
      exact stays_storeCursor
    · rw [if_neg hmoved]
      exact .pure trivial

/-- Settled tips may be published. -/
theorem stays_publish {tips : List Tip} (h : ∀ tip ∈ tips, node.SettledTip now tip) :
    node.Stays (Fit node) now (publish settings tips) fun _ _ => True := by
  induction tips generalizing now with
  | nil => exact .pure trivial
  | cons tip rest ih =>
    have hrest : ∀ now', now ≤ now' →
        node.Stays (Fit node) now' (publish settings rest) fun _ _ => True := by
      intro now' hle
      apply ih
      intro other hmem
      exact (h other (List.mem_cons_of_mem _ hmem)).mono hle
    apply stays_cursorNow.bind
    intro now₁ cursor hle₁ _
    by_cases hforward : isForward cursor tip = true
    · rw [if_pos hforward]
      have htip := (h tip List.mem_cons_self).mono hle₁
      obtain ⟨block, hsettled, rfl⟩ := id htip
      apply (stays_writeTip (.tip hsettled)).bind
      intro now₂ _ hle₂ _
      -- the cursor follows the tip that has been cached
      apply (stays_moveTo (htip.stands.mono hle₂)).bind
      intro now₃ _ hle₃ _
      exact (hrest now₃ (hle₁.trans (hle₂.trans hle₃))).bind fun _ _ _ _ => .pure trivial
    · rw [if_neg hforward]
      exact hrest now₁ hle₁

/-- The points that are asked for lie as deep as blocks are confirmed. -/
theorem deep_of_batchSize {best limit : UInt64} {n : Nat} (h : batchSize settings best cursor ≠ 0)
    (hlimit : limit = batchSize settings best cursor) (hn : n ≤ limit.toNat) :
    cursor.number.toNat + n + settings.confirmationDepth.toNat ≤ best.toNat := by
  have hpos : (batchSize settings best cursor).toNat ≠ 0 := by
    intro hzero
    exact h (UInt64.toNat_inj.mp hzero)
  subst hlimit
  unfold batchSize at hn hpos
  simp only [Word.toNat_min, Word.toNat_satSub] at hn hpos
  omega

/-- Walking with the node from the cursor passes settled blocks. -/
theorem stays_walk {depth : Nat} (hagrees : node.Agrees depth)
    (hdepth : depth ≤ settings.confirmationDepth.toNat) :
    node.Stays (Fit node) now (walk settings) fun _ _ => True := by
  apply (History.stays_ask (lasts_fit node) .bestHeight trivial rfl).bind
  intro now₁ best _ hreached
  apply stays_cursorNow.bind
  intro now₂ cursor hle₂ hstands
  by_cases hsize : batchSize settings best cursor = 0
  · rw [if_pos hsize]
    exact .pure trivial
  · rw [if_neg hsize]
    apply (History.stays_ask (lasts_fit node) (.pointsAfter cursor.point _) trivial rfl).bind
    intro now₃ answer hle₃ htold
    apply History.stays_ofExcept_bind
    rintro next rfl
    obtain ⟨hlimit, hfollows⟩ := htold next rfl
    -- none of the tips lies above what is confirmed below the height that was read before
    have hsettled : ∀ tip ∈ next.tips, node.SettledTip now₃ tip := by
      have hdeep := deep_of_batchSize hsize rfl hlimit
      intro tip hmem
      exact (hfollows.settled hagrees (hreached.mono hle₂) hstands (by omega) tip hmem).mono hle₃
    by_cases hnone : (next.tips.isEmpty && next.rolledBackTo.isNone) = true
    · rw [if_pos hnone]
      exact .fail
    · rw [if_neg hnone]
      apply (stays_publish hsettled).bind
      intro now₄ written _ _
      by_cases hwritten : 0 < written
      · rw [if_pos hwritten]
        apply stays_storeCursor.bind
        intro now₅ _ _ _
        cases next.rolledBackTo with
        | some point => exact .fail
        | none => exact .pure trivial
      · rw [if_neg hwritten]
        cases next.rolledBackTo with
        | some point => exact .fail
        | none => exact .pure trivial

/-- A step keeps the contract. -/
theorem stays_advance {depth : Nat} (hagrees : node.Agrees depth)
    (hdepth : depth ≤ settings.confirmationDepth.toNat)
    (hstart : ∀ now, node.Stands now settings.startPoint.tip) :
    node.Stays (Fit node) now (advance settings) fun _ _ => True := by
  apply History.stays_current.bind
  intro now' walker _ _
  cases walker.stage with
  | bootstrap =>
    exact (stays_bootstrap hstart).bind fun _ _ _ _ =>
      (stays_enter _).bind fun _ _ _ _ => .pure trivial
  | fastForward =>
    exact stays_fastForward.bind fun _ _ _ _ =>
      (stays_enter _).bind fun _ _ _ _ => .pure trivial
  | walking =>
    exact (stays_walk hagrees hdepth).bind fun _ _ _ _ =>
      (stays_enter _).bind fun _ _ _ _ => .pure trivial
  | idle =>
    exact (stays_walk hagrees hdepth).bind fun _ _ _ _ =>
      (stays_enter _).bind fun _ _ _ _ => .pure trivial
  | recovering => exact (stays_enter _).bind fun _ _ _ _ => .pure trivial

/-! ## Recovery -/

/-- Settled tips are found from a time on. -/
theorem finds_settled (node : History) (now : Nat) :
    Finds (node.contract (Fit node)) (fun now' memory => now ≤ now' ∧ Fit node now' memory)
      (fun now' _ tip => node.SettledTip now' tip) fun now' memory _ => now ≤ now' ∧ Fit node now' memory := by
  rintro now₁ memory height ⟨hle, hfit⟩
  apply (stays_tipAt height memory hfit).mono
  · rintro now₂ memory₂ tip? ⟨hle₂, hfit₂, hfound⟩
    exact ⟨⟨hle.trans hle₂, hfit₂⟩, hfound⟩
  · rintro now₂ memory₂ cause ⟨hle₂, hfit₂⟩
    exact ⟨hle.trans hle₂, hfit₂⟩

/-- A tip that is found among cached ones is settled. -/
theorem stays_findAmong (point : Point) (heights : List UInt64) :
    node.Stays (Fit node) now (findAmong point heights) fun now' found =>
      ∀ tip, found = some tip → node.SettledTip now' tip := by
  intro memory hfit
  apply ((finds_settled node now).findAmong point heights ⟨le_rfl, hfit⟩).mono
  · rintro now' memory' found ⟨⟨hle, hfit'⟩, hfound⟩
    refine ⟨hle, hfit', fun tip htip => ?_⟩
    obtain ⟨-, height, -, hsettled⟩ := hfound tip htip
    exact hsettled
  · exact fun _ _ _ hfailed => hfailed

theorem stays_probeAmong (top : UInt64) (offsets : List UInt64) :
    node.Stays (Fit node) now (probeAmong top offsets) fun now' found =>
      ∀ tip, found = some tip → node.SettledTip now' tip := by
  -- whatever the node says, only a cached tip is taken, and such a tip is settled
  have hasks : ∀ {now₁ : Nat} (tip : Tip), node.SettledTip now₁ tip → node.Stays (Fit node) now₁ (do
      let answer ← Routine.ask (I := Surroundings) (.findIntersect tip.point)
      Work.ofAnswer .node answer : Task Intersection) fun now₂ _ => node.SettledTip now₂ tip := by
    intro now₁ tip hsettled
    apply (History.stays_ask (lasts_fit node) (.findIntersect tip.point) trivial rfl).bind
    intro now₂ answer hle _
    cases answer with
    | ok => exact .pure (hsettled.mono hle)
    | error => exact .fail
  intro memory hfit
  apply ((finds_settled node now).probeAmong (fun now' _ tip => node.SettledTip now' tip) ?_ top offsets
    ⟨le_rfl, hfit⟩).mono
  · rintro now' memory' found ⟨⟨hle, hfit'⟩, hfound⟩
    refine ⟨hle, hfit', fun tip htip => ?_⟩
    obtain ⟨offset, -, hsettled⟩ := hfound tip htip
    exact hsettled
  · exact fun _ _ _ hfailed => hfailed
  · rintro now₁ memory₁ height tip ⟨hle, hfit₁⟩ hsettled
    apply (hasks tip hsettled memory₁ hfit₁).mono
    · rintro now₂ memory₂ intersection ⟨hle₂, hfit₂, hsettled₂⟩
      exact ⟨⟨hle.trans hle₂, hfit₂⟩, fun _ _ => hsettled₂⟩
    · rintro now₂ memory₂ cause ⟨hle₂, hfit₂⟩
      exact ⟨hle.trans hle₂, hfit₂⟩

theorem stays_findTarget (target : Option Point) :
    node.Stays (Fit node) now (findTarget target) fun now' found =>
      ∀ tip, found = some tip → node.SettledTip now' tip := by
  cases target with
  | none => exact .pure fun tip hnone => nomatch hnone
  | some point =>
    dsimp only [findTarget]
    by_cases horigin : point.isOrigin = true
    · rw [if_pos horigin]
      exact .pure fun tip hnone => nomatch hnone
    · rw [if_neg horigin]
      exact stays_cursorNow.bind fun _ _ _ _ => stays_findAmong point _

/-- The cursor is moved back to a cached tip or to the checkpoint, and both stand on every later
chain. -/
theorem stays_rewind (hstart : ∀ now, node.Stands now settings.startPoint.tip)
    (target : Option Point) :
    node.Stays (Fit node) now (rewind settings target) fun _ _ => True := by
  have hmove : ∀ now' (onChain : Option Tip),
      (∀ tip, onChain = some tip → node.SettledTip now' tip) →
      node.Stays (Fit node) now' (do
        moveTo (onChain.getD settings.startPoint.tip)
        Routine.remember fun w => { w with skipFastForward := true }
        storeCursor settings) fun _ _ => True := by
    intro now' onChain honChain
    have hcursor : node.Stands now' (onChain.getD settings.startPoint.tip) := by
      cases onChain with
      | none => exact hstart now'
      | some tip => exact (honChain tip rfl).stands
    have hskip : ∀ now', node.Stays (Fit node) now'
        (Routine.remember fun w => { w with skipFastForward := true } : Task Unit) fun _ _ => True :=
      fun _ => History.stays_remember fun _ hfit => hfit
    apply (stays_moveTo hcursor).bind
    intro now₁ _ _ _
    exact (hskip now₁).bind fun _ _ _ _ => stays_storeCursor
  apply (stays_findTarget target).bind
  intro now' found _ hfound
  cases found with
  | some tip => exact hmove now' (some tip) hfound
  | none =>
    apply (stays_cursorNow.bind fun _ _ _ _ => stays_probeAmong _ _).bind
    intro now'' onChain _ honChain
    exact hmove now'' onChain honChain

/-- A recovery from any failure keeps the contract. -/
theorem stays_recover (hstart : ∀ now, node.Stands now settings.startPoint.tip)
    (error : WalkerError) :
    node.Stays (Fit node) now (recover settings error) fun _ _ => True := by
  apply (History.stays_note (lasts_fit node) _).bind
  intro now₁ _ _ _
  apply (stays_enter _).bind
  intro now₂ _ _ _
  cases error with
  | rolledBack point =>
    exact (stays_rewind hstart (some point)).regardless
  | intersectNotFound =>
    exact (stays_rewind hstart none).regardless
  | node => exact .pure trivial
  | cache => exact .pure trivial
  | stalled => exact .pure trivial

end

end BlockFeed.Walker
