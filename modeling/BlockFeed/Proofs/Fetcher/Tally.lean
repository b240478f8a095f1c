import BlockFeed.Proofs.Answers
import BlockFeed.Proofs.Fetcher.Preparation

/-!
# What an iteration counts

An iteration takes down how many heights it has fetched and how many it has skipped, by hint or by bypass.
Heights are counted as skipped while the batch is prepared, and as fetched only when it has been handed on.

`Counts` is said of work before a batch is handed on: it counts nothing as fetched, and it adds to the heights
that are counted as skipped. Each part of an iteration has one lemma of this kind. So an iteration that hands a
batch on counts every height of it once, and any other one counts some heights as skipped at most
(`concludes_iterate`).
-/

namespace BlockFeed

namespace Surroundings.Query

/-- The number of heights that a question takes down as fetched. -/
def fetched : Query → Nat
  | .note (.blocksFetched count) => count.toNat
  | _ => 0

/-- The number of heights that a question takes down as skipped, for whatever reason. -/
def skipped : Query → Nat
  | .note (.heightsSkipped _ count) => count.toNat
  | _ => 0

/-- A question tells that a batch has been handed on. -/
def settles : Query → Bool
  | .commit _ => true
  | _ => false

/-- A question may take so long that work is given up while it waits: it is for the node, the hint service or
the cache, or for room in the queue. -/
def isLong : Query → Bool
  | .send _ | .readCache _ => true
  | query => query.isElsewhere

end Surroundings.Query

namespace Fetcher

open Surroundings (Query)

/-- What an iteration has counted. -/
structure Tally where
  /-- The height up to which everything has been handed on. -/
  buffered : Option UInt64
  fetched : Nat := 0
  skipped : Nat := 0
  /-- A batch has been handed on. -/
  settled : Bool := false
  deriving DecidableEq

namespace Tally

/-- The tally after a question. -/
def after (T : Tally) (query : Query) : Tally where
  buffered := match query with
    | .commit height => some height
    | _ => T.buffered
  fetched := T.fetched + query.fetched
  skipped := T.skipped + query.skipped
  settled := query.settles || T.settled

/-- What the surroundings may answer: anything, but that they say of the queue what is true of it. -/
def Permits (T : Tally) : (query : Query) → query.Answer → Prop
  | .buffered, answer => answer = T.buffered
  | _, _ => True

/-- Nothing has been handed on, and some heights have been counted as skipped. -/
def pending (before : Option UInt64) (skipped : Nat) : Tally := { buffered := before, skipped }

/-- Nothing has been handed on, and nothing been counted as fetched. -/
def IsPending (before : Option UInt64) (T : Tally) : Prop := ∃ skipped, T = .pending before skipped

/-- A batch up to a height has been handed on, and each height of it has been counted once. -/
structure Closed (plan : Plan) (before : Option UInt64) (T : Tally) (height : UInt64) : Prop where
  settled : T.settled = true
  buffered : T.buffered = some height
  advances : Ledger.next plan { buffered := before } ≤ height.toNat
  counted : T.fetched + T.skipped = height.toNat + 1 - Ledger.next plan { buffered := before }

/-- What an iteration has counted that has come to an outcome. -/
def Concluded (plan : Plan) (before : Option UInt64) (T : Tally) : Outcome → Prop
  | .dispatched _ _ height => T.Closed plan before height
  | .backpressure | .aheadOfTip _ _ => T.IsPending before

end Tally

/-- While an iteration may be given up it has counted nothing as fetched and handed no batch on. -/
def counting (before : Option UInt64) : Contract Surroundings BypassRanges Tally where
  allows T _ query := query.isLong = true → T.IsPending before
  answers T query answer T' := T.Permits query answer ∧ T' = T.after query

/-- Work that hands nothing on and counts nothing as fetched. A fact holds of its value and of the number of
heights that have been counted as skipped then. -/
def Counts {α : Type} (before : Option UInt64) (skipped : Nat) (task : Task α) (fact : α → Nat → Prop) :
    Prop :=
  ∀ memory, task.Keeps (counting before) (fun T _ value => ∃ n, T = .pending before n ∧ fact value n)
    (fun T _ _ => T.IsPending before) (.pending before skipped) memory

/-- Work that counts nothing. -/
def CountsNothing {α : Type} (task : Task α) : Prop :=
  ∀ before skipped, Counts before skipped task fun _ n => n = skipped

section
variable {α β : Type} {plan : Plan} {before : Option UInt64} {skipped n : Nat} {task : Task α}
  {fact : α → Nat → Prop} {window : Window} {latest last : UInt64} {tips : List Tip}

/-! ## Ways of composing -/

/-- Any work may follow that keeps the contract. -/
theorem Counts.keeps_bind {f : α → Task β} {ok : Tally → BypassRanges → β → Prop} {memory : BypassRanges}
    (h : Counts before skipped task fact)
    (hf : ∀ value n memory, fact value n → (f value).Keeps (counting before) ok
      (fun T _ _ => T.IsPending before) (.pending before n) memory) :
    (task >>= f).Keeps (counting before) ok (fun T _ _ => T.IsPending before)
      (.pending before skipped) memory := by
  refine Routine.keeps_bind.mpr (Routine.Keeps.mono (h memory) ?_ fun _ _ _ hfailed => hfailed)
  rintro _ memory' value ⟨n, rfl, hfact⟩
  exact hf value n memory' hfact

theorem Counts.bind {fact' : β → Nat → Prop} {f : α → Task β} (h : Counts before skipped task fact)
    (hf : ∀ value n, fact value n → Counts before n (f value) fact') :
    Counts before skipped (task >>= f) fact' :=
  fun _ => h.keeps_bind fun value n memory hfact => hf value n hfact memory

/-- Less may be said of what is counted. -/
theorem Counts.mono {fact' : α → Nat → Prop} (h : Counts before skipped task fact)
    (himp : ∀ value n, fact value n → fact' value n) : Counts before skipped task fact' := by
  refine fun memory => Routine.Keeps.mono (h memory) ?_ fun _ _ _ hfailed => hfailed
  rintro T _ value ⟨n, hT, hfact⟩
  exact ⟨n, hT, himp value n hfact⟩

theorem Counts.pure {value : α} (h : fact value skipped) :
    Counts before skipped (Pure.pure value) fact :=
  fun _ => Routine.keeps_pure.mpr ⟨skipped, rfl, h⟩

theorem Counts.fail {cause : Abort FetchError} : Counts before skipped (Routine.fail cause) fact :=
  fun _ => Routine.keeps_fail.mpr ⟨skipped, rfl⟩

/-- A question that takes nothing down. -/
theorem counts_ask (query : Query) (hquiet : ∀ T : Tally, T.after query = T) :
    Counts before skipped (Routine.ask (I := Surroundings) query)
      fun answer n => n = skipped ∧ (Tally.pending before skipped).Permits query answer := by
  refine fun _ => Routine.keeps_ask.mpr ⟨fun _ => ⟨skipped, rfl⟩, ?_⟩
  rintro answer _ ⟨hpermits, rfl⟩
  exact ⟨skipped, hquiet _, rfl, hpermits⟩

theorem counts_ofExcept {ε : Type} {rename : ε → Abort FetchError} {value : Except ε α}
    (h : ∀ v, value = .ok v → fact v skipped) :
    Counts before skipped (Routine.ofExcept rename value) fact := by
  cases value with
  | ok v => exact .pure (h v rfl)
  | error _ => exact .fail

/-- What follows a value that may be a failure need only be looked at for its success. -/
theorem counts_ofExcept_bind {ε : Type} {rename : ε → Abort FetchError} {value : Except ε β}
    {f : β → Task α} (h : ∀ v, value = .ok v → Counts before skipped (f v) fact) :
    Counts before skipped (Routine.ofExcept rename value >>= f) fact := by
  cases value with
  | ok v => exact h v rfl
  | error _ => exact .fail

theorem CountsNothing.bind {f : α → Task β} (h : CountsNothing task)
    (hf : ∀ value, CountsNothing (f value)) : CountsNothing (task >>= f) := by
  refine fun before skipped => (h before skipped).bind ?_
  rintro value _ rfl
  exact hf value before _

theorem countsNothing_pure (value : α) : CountsNothing (Pure.pure value) := fun _ _ => .pure rfl

theorem countsNothing_fail (cause : Abort FetchError) :
    CountsNothing (Routine.fail cause : Task α) := fun _ _ => .fail

theorem countsNothing_ofExcept {ε : Type} (rename : ε → Abort FetchError) (value : Except ε α) :
    CountsNothing (Routine.ofExcept rename value) :=
  fun _ _ => counts_ofExcept fun _ _ => rfl

theorem countsNothing_ask (query : Query) (hquiet : ∀ T : Tally, T.after query = T) :
    CountsNothing (Routine.ask (I := Surroundings) query) :=
  fun _ _ => (counts_ask query hquiet).mono fun _ _ h => h.1

/-! ## Planning -/

/-- The window begins where the last batch has ended. -/
theorem counts_nextHeight : Counts before skipped (nextHeight plan)
    fun start n => n = skipped ∧ start.toNat = Ledger.next plan { buffered := before } := by
  refine (counts_ask .buffered fun _ => rfl).bind ?_
  rintro buffered _ ⟨rfl, hpermits⟩
  obtain rfl : buffered = before := hpermits
  cases buffered with
  | none => exact .pure ⟨rfl, rfl⟩
  | some height => exact counts_ofExcept fun start hstart => ⟨rfl, Word.add_eq_ok_iff.mp hstart⟩

theorem countsNothing_latestHeight (useFinalized : Bool) :
    CountsNothing (Work.latestHeight useFinalized : Task UInt64) := by
  cases useFinalized with
  | true => exact countsNothing_ask .finalizedHeight fun _ => rfl
  | false => exact countsNothing_ask .bestHeight fun _ => rfl

theorem countsNothing_requireTip (height : UInt64) : CountsNothing (requireTip height) := by
  have hread : CountsNothing (Work.tipAt .cache height : Task (Option Tip)) :=
    (countsNothing_ask (.readCache (heightKey height)) fun _ => rfl).bind fun _ =>
      (countsNothing_ofExcept _ _).bind fun _ => countsNothing_ofExcept _ _
  refine hread.bind fun found => ?_
  cases found with
  | some tip => exact countsNothing_pure tip
  | none => exact countsNothing_fail _

theorem countsNothing_requireTips (heights : List UInt64) : CountsNothing (requireTips heights) := by
  induction heights with
  | nil => exact countsNothing_pure []
  | cons height rest ih =>
    exact (countsNothing_requireTip height).bind fun _ => ih.bind fun _ => countsNothing_pure _

theorem countsNothing_windowTips : CountsNothing (windowTips window) :=
  (countsNothing_ofExcept _ _).bind fun last => (countsNothing_requireTip last).bind fun _ =>
    (countsNothing_requireTips _).bind fun _ => countsNothing_pure _

/-! ## Hints -/

/-- A hint is about the heights of a window up to its bound, and there are not too many of them to be
counted. -/
structure Hint.Fits (window : Window) (hint : Hint) : Prop where
  start_le : window.start ≤ hint.bound
  countable : hint.bound.toNat + 1 - window.start.toNat < UInt64.size
  length_le : hint.heights.length ≤ hint.bound.toNat + 1 - window.start.toNat

/-- There are not too many heights in a window to be counted. -/
theorem countable_window (hlast : window.last = .ok last) :
    last.toNat + 1 - window.start.toNat < UInt64.size := by
  have hplace := Window.toNat_last hlast
  have hsize := window.size.toNat_lt_size
  have hone : 1 < UInt64.size := by decide
  omega

/-- Heights that ascend between two heights are no more than there are between these. -/
theorem length_le_of_ascending {first last : UInt64} {heights : List UInt64}
    (hascending : heights.Pairwise (· < ·)) (hwithin : ∀ height ∈ heights, first ≤ height ∧ height ≤ last) :
    heights.length ≤ last.toNat + 1 - first.toNat := by
  have hnodup : heights.Nodup := hascending.imp UInt64.ne_of_lt
  have hsubset : heights ⊆ Window.heightsBetween first last :=
    fun height hmem => Window.mem_heightsBetween.mpr (hwithin height hmem)
  have hlength := (List.subperm_of_subset hnodup hsubset).length_le
  rwa [Window.heightsBetween, List.length_map, List.length_range] at hlength

theorem fits_hintOf {selection : ModuloSelection} {reply : HintReply} {hint : Hint}
    (hlast : window.last = .ok last) (h : hintOf selection window last reply = some hint) :
    hint.Fits window := by
  unfold hintOf at h
  split at h
  · cases h
  · rename_i hconfirmed
    cases h
    have hstart := UInt64.le_iff_toNat_le.mp (le_last hlast)
    have hreach := UInt64.le_iff_toNat_le.mp (UInt64.not_lt.mp hconfirmed)
    have hcountable := countable_window hlast
    have hmin : (min last reply.lastConfirmed).toNat = min last.toNat reply.lastConfirmed.toNat :=
      Word.toNat_min _ _
    refine ⟨?_, ?_, length_le_of_ascending (ModuloSelection.pairwise_sortDedup _) fun height hmem => ?_⟩
    · rw [UInt64.le_iff_toNat_le, hmin]
      omega
    · rw [hmin]
      omega
    · rw [ModuloSelection.mem_sortDedup, List.mem_filter, Bool.and_eq_true, decide_eq_true_eq,
        decide_eq_true_eq] at hmem
      exact hmem.2

/-- To ask for a hint counts nothing, and a hint that is found fits the window. -/
theorem counts_consultHints : Counts before skipped (consultHints plan window latest)
    fun found n => n = skipped ∧ ∀ hint, found = some hint → hint.Fits window := by
  unfold consultHints
  cases plan.hinting with
  | none => exact .pure ⟨rfl, nofun⟩
  | some selection =>
    refine counts_ofExcept_bind fun last hlast => ?_
    refine counts_ofExcept_bind fun distance _ => ?_
    split
    · exact .pure ⟨rfl, nofun⟩
    · refine (countsNothing_ask (.hints window.start last) (fun _ => rfl) _ _).bind ?_
      rintro reply _ rfl
      cases reply with
      | none =>
        refine (countsNothing_ask (.note .hintFallback) (fun _ => rfl) _ _).bind ?_
        rintro _ _ rfl
        exact .pure ⟨rfl, nofun⟩
      | some reply => exact .pure ⟨rfl, fun hint hhint => fits_hintOf hlast hhint⟩

/-! ## Blocks -/

theorem counts_noteSkipped (reason : String) (count : UInt64) :
    Counts before skipped (noteSkipped reason count) fun _ n => n = skipped + count.toNat := by
  unfold noteSkipped
  split
  · rename_i hzero
    exact .pure (by rw [hzero]; rfl)
  · refine fun _ => Routine.keeps_ask.mpr ⟨fun _ => ⟨skipped, rfl⟩, ?_⟩
    rintro _ _ ⟨-, rfl⟩
    exact ⟨skipped + count.toNat, rfl, rfl⟩

/-- Heights are kept, or else they are counted as skipped. -/
theorem counts_stripBypass {heights : List UInt64} (hcountable : heights.length < UInt64.size) :
    Counts before skipped (stripBypass heights)
      fun kept n => n + kept.length = skipped + heights.length := by
  intro memory
  refine Routine.keeps_bind.mpr (Routine.keeps_current.mpr ?_)
  have hkept : (memory.strip heights).length ≤ heights.length := List.length_filter_le _ _
  refine ((counts_noteSkipped "bypass" _).bind ?_ : Counts before skipped _ _) memory
  rintro _ _ rfl
  refine .pure ?_
  rw [UInt64.toNat_ofNat_of_lt' (by omega)]
  omega

/-- For each height one block is fetched. -/
theorem counts_fetchHeights (heights : List UInt64) :
    Counts before skipped (fetchHeights window tips heights)
      fun blocks n => n = skipped ∧ blocks.length = heights.length := by
  induction heights with
  | nil => exact .pure ⟨rfl, rfl⟩
  | cons height rest ih =>
    unfold fetchHeights
    cases tipFor? window tips height with
    | none => exact .fail
    | some tip =>
      refine (countsNothing_ask (.fetchBlock tip.point) (fun _ => rfl) _ _).bind ?_
      rintro answer _ rfl
      refine counts_ofExcept_bind fun body _ => ih.bind ?_
      rintro blocks _ ⟨rfl, hlength⟩
      exact .pure ⟨rfl, congrArg Nat.succ hlength⟩

/-- Of what a hint is about every height is fetched or counted as skipped. -/
theorem counts_fetchHinted {hint : Hint} (hfits : hint.Fits window) :
    Counts before skipped (fetchHinted window tips hint)
      fun blocks n => n + blocks.length = skipped + (hint.bound.toNat + 1 - window.start.toNat) := by
  have hcountable := Nat.lt_of_le_of_lt hfits.length_le hfits.countable
  have hcandidates : (UInt64.ofNat hint.heights.length).toNat = hint.heights.length :=
    UInt64.toNat_ofNat_of_lt' hcountable
  refine (counts_stripBypass hcountable).bind fun kept n hkept => ?_
  refine counts_ofExcept_bind fun considered hconsidered => ?_
  refine counts_ofExcept_bind fun left hleft => ?_
  refine (counts_noteSkipped "hint" left).bind ?_
  rintro _ _ rfl
  refine (counts_fetchHeights kept).mono ?_
  rintro blocks _ ⟨rfl, hblocks⟩
  -- what the hint leaves out and what it leaves in make up what it is about
  have hleft := Word.sub_eq_ok_iff.mp hleft
  have hwidth : considered.toNat = hint.bound.toNat + 1 - window.start.toNat := by
    cases hspan : Word.sub hint.bound window.start with
    | error _ =>
      rw [hspan] at hconsidered
      cases hconsidered
    | ok span =>
      rw [hspan] at hconsidered
      have hsum := Word.add_eq_ok_iff.mp hconsidered
      have hdifference := Word.sub_eq_ok_iff.mp hspan
      rw [UInt64.toNat_one] at hsum
      omega
  omega

/-- Of a window every height is fetched or counted as skipped. -/
theorem counts_fetchWindow (hlast : window.last = .ok last) :
    Counts before skipped (fetchWindow window tips)
      fun blocks n => n + blocks.length = skipped + (last.toNat + 1 - window.start.toNat) := by
  have hlength : (Window.heightsBetween window.start last).length
      = last.toNat + 1 - window.start.toNat := by
    rw [Window.heightsBetween, List.length_map, List.length_range]
  unfold fetchWindow
  rw [hlast]
  refine (counts_stripBypass (hlength ▸ countable_window hlast)).bind fun kept n hkept => ?_
  rw [hlength] at hkept
  refine (counts_fetchHeights kept).mono ?_
  rintro blocks _ ⟨rfl, hblocks⟩
  rw [hblocks, hkept]

/-- The blocks of a batch up to a height, with what has been skipped, make up all heights of it. -/
structure MakesUp (window : Window) (skipped : Nat) (blocks : List Block) (height : UInt64) : Prop where
  start_le : window.start ≤ height
  countable : height.toNat + 1 - window.start.toNat < UInt64.size
  counted : skipped + blocks.length = height.toNat + 1 - window.start.toNat

theorem counts_fetchPlanned {found : Option Hint} (hfits : ∀ hint, found = some hint → hint.Fits window) :
    Counts before 0 (fetchPlanned window tips found)
      fun planned n => MakesUp window n planned.1 planned.2 := by
  cases found with
  | some hint =>
    have hfits := hfits hint rfl
    refine (counts_fetchHinted hfits).bind fun blocks n hcounted => .pure ?_
    exact ⟨hfits.start_le, hfits.countable, hcounted.trans (Nat.zero_add _)⟩
  | none =>
    cases hlast : window.last with
    | error _ =>
      unfold fetchPlanned fetchWindow
      rw [hlast]
      exact .fail
    | ok last =>
      refine (counts_fetchWindow hlast).bind fun blocks n hcounted => ?_
      rw [hlast]
      exact .pure ⟨le_last hlast, countable_window hlast, hcounted.trans (Nat.zero_add _)⟩

/-! ## A whole iteration -/

theorem countsNothing_sendAll (blocks : List Block) : CountsNothing (sendAll blocks) := by
  induction blocks with
  | nil => exact countsNothing_pure ()
  | cons block rest ih =>
    refine (countsNothing_ask (.send block) fun _ => rfl).bind fun taken => ?_
    cases taken with
    | true => exact ih
    | false => exact countsNothing_fail _

/-- Work that counts every height of a batch once if it hands one on, and else some heights as skipped at
most. -/
def Concludes (plan : Plan) (before : Option UInt64) (skipped : Nat) (task : Task Outcome) : Prop :=
  ∀ memory, task.Keeps (counting before)
    (fun T _ outcome => T.Concluded plan before outcome) (fun T _ _ => T.IsPending before)
    (.pending before skipped) memory

/-- Work that hands nothing on may come first. -/
theorem Counts.concludes {f : α → Task Outcome} (h : Counts before skipped task fact)
    (hf : ∀ value n, fact value n → Concludes plan before n (f value)) :
    Concludes plan before skipped (task >>= f) :=
  fun _ => h.keeps_bind fun value n memory hfact => hf value n hfact memory

/-- A batch is handed on, or not. Nothing is counted. -/
theorem closes_enqueue (blocks : List Block) (height : UInt64) (memory : BypassRanges) :
    (enqueue blocks height).Keeps (counting before)
      (fun T _ _ => T = ⟨some height, 0, skipped, true⟩) (fun T _ _ => T.IsPending before)
      (.pending before skipped) memory := by
  refine (countsNothing_ask .buffered (fun _ => rfl) _ _).keeps_bind ?_
  rintro previous _ _ rfl
  refine (countsNothing_ofExcept _ _ _ _).keeps_bind ?_
  rintro _ _ _ rfl
  refine (countsNothing_sendAll blocks _ _).keeps_bind ?_
  rintro _ _ _ rfl
  refine Routine.keeps_ask.mpr ⟨nofun, ?_⟩
  rintro _ _ ⟨-, rfl⟩
  rfl

/-- A question that is soon answered may be asked at any time. -/
theorem keeps_short_bind {query : Query} {f : query.Answer → Task α} {T : Tally} {memory : BypassRanges}
    {ok : Tally → BypassRanges → α → Prop} {failed : Tally → BypassRanges → Abort FetchError → Prop}
    (hshort : query.isLong = false)
    (hf : ∀ answer, (f answer).Keeps (counting before) ok failed (T.after query) memory) :
    (Routine.ask (I := Surroundings) query >>= f).Keeps (counting before) ok failed T memory := by
  refine Routine.keeps_bind.mpr (Routine.keeps_ask.mpr ⟨fun hlong => ?_, ?_⟩)
  · rw [hshort] at hlong
    cases hlong
  · rintro answer _ ⟨-, rfl⟩
    exact hf answer

/-- What is fetched is counted once it has been handed on. -/
theorem concludes_handing {blocks : List Block} {height : UInt64} {started : Nat}
    (hmakes : MakesUp window skipped blocks height)
    (hstart : window.start.toNat = Ledger.next plan { buffered := before }) :
    Concludes plan before skipped (do
      enqueue blocks height
      Routine.remember fun bypass => bypass.consumeThrough height
      Work.note (.blocksFetched (UInt64.ofNat blocks.length))
      Work.note (.bufferedHeight height)
      let ended ← Routine.ask (I := Surroundings) .now
      Work.note (.batchFetchTime (secondsBetween started ended))
      return Outcome.dispatched window blocks.length height) := by
  have hfetched : (UInt64.ofNat blocks.length).toNat = blocks.length := by
    have := hmakes.counted
    have := hmakes.countable
    exact UInt64.toNat_ofNat_of_lt' (by omega)
  intro memory
  refine Routine.keeps_bind.mpr (Routine.Keeps.mono (closes_enqueue blocks height memory) ?_
    fun _ _ _ hfailed => hfailed)
  rintro _ memory' _ rfl
  refine Routine.keeps_bind.mpr (Routine.keeps_remember.mpr ?_)
  refine keeps_short_bind rfl fun _ => keeps_short_bind rfl fun _ => keeps_short_bind rfl fun ended =>
    keeps_short_bind rfl fun _ => ?_
  have hfirst := UInt64.le_iff_toNat_le.mp hmakes.start_le
  have hcounted := hmakes.counted
  rw [hstart] at hfirst hcounted
  refine Routine.keeps_pure.mpr ⟨rfl, rfl, hfirst, ?_⟩
  show 0 + (UInt64.ofNat blocks.length).toNat + skipped = _
  omega

theorem concludes_dispatch (hstart : window.start.toNat = Ledger.next plan { buffered := before }) :
    Concludes plan before 0 (dispatch plan window latest) := by
  refine (countsNothing_windowTips _ _).concludes ?_
  rintro tips _ rfl
  refine (countsNothing_ask .now (fun _ => rfl) _ _).concludes ?_
  rintro started _ rfl
  refine counts_consultHints.concludes ?_
  rintro found _ ⟨rfl, hfits⟩
  refine (counts_fetchPlanned hfits).concludes ?_
  rintro ⟨blocks, height⟩ n hmakes
  exact concludes_handing hmakes hstart

/-- An iteration counts every height of the batch that it hands on once, and else some heights as skipped at
most. -/
theorem concludes_iterate : Concludes plan before 0 (iterate plan) := by
  refine counts_nextHeight.concludes ?_
  rintro start _ ⟨rfl, hstart⟩
  refine (countsNothing_ask .freeSlots (fun _ => rfl) _ _).concludes ?_
  rintro free _ rfl
  show Concludes plan before 0 (if min (UInt64.ofNat free) plan.settings.maxBatchSize = 0 then _ else _)
  split
  · exact fun _ => Routine.keeps_pure.mpr ⟨0, rfl⟩
  · refine (countsNothing_latestHeight _ _ _).concludes ?_
    rintro latest _ rfl
    cases hclamp : (⟨start, min (UInt64.ofNat free) plan.settings.maxBatchSize⟩ : Window).clamp latest
      with
    | error _ => exact fun _ => Routine.keeps_fail.mpr ⟨0, rfl⟩
    | ok clamped =>
      cases clamped with
      | none => exact fun _ => Routine.keeps_pure.mpr ⟨0, rfl⟩
      | some window =>
        obtain ⟨rfl, -, -⟩ := Window.clamp_eq_some hclamp
        exact concludes_dispatch hstart

end

end Fetcher

end BlockFeed
