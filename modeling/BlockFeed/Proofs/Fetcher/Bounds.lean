import BlockFeed.Proofs.Fetcher.Tally
import BlockFeed.Proofs.Site
import BlockFeed.Proofs.Transcript
import BlockFeed.Proofs.Window.Clamped
import BlockFeed.Simulation.SampleTip

/-!
# The bounds of an iteration

Unless the height up to which everything has been handed on or the latest one is the largest word, no
computation of an iteration leaves the range of words, whatever the other answers are (`iterate_bounded`). All
that it asks and tells is about heights of the window that it has planned (`KeepsTo`), and the tip of each of
them is at hand once the tips have been read, so that none is missed any more when the blocks are fetched
(`exists_tipFor?`).

The bounds of a window come from the way it is cut off (`Figures.allows_of_clamp`), and what is taken up of it
stays inside (`Hint.Within`). From there on every part of an iteration keeps to the window (`Stays`).
-/

namespace BlockFeed.Fetcher

open Surroundings (Query)

/-- A question with its answer. -/
abbrev Exchange : Type := Interface.Event Surroundings

/-! ## What an iteration is planned from -/

/-- The figures that an iteration asks for first. -/
structure Figures where
  buffered : Option UInt64
  free : Nat
  latest : UInt64

/-- The figures as a behaviour gives them, one after the other. -/
def Figures.of (plan : Plan) (b : Behaviour Surroundings) : Figures :=
  let buffered : Option UInt64 := b [] .buffered
  let free : Nat := b [⟨.buffered, buffered⟩] .freeSlots
  let past : List Exchange := [⟨.buffered, buffered⟩, ⟨.freeSlots, free⟩]
  ⟨buffered, free, if plan.settings.useFinalized then b past .finalizedHeight else b past .bestHeight⟩

/-- A window as it may be planned from figures, with its last height. -/
structure Figures.Allows (plan : Plan) (f : Figures) (window : Window) (last : UInt64) : Prop where
  next : window.start.toNat = Ledger.next plan { buffered := f.buffered }
  last_eq : window.last = .ok last
  one_le : 1 ≤ window.size
  size_le_free : window.size.toNat ≤ f.free
  size_le_max : window.size ≤ plan.settings.maxBatchSize
  start_le : window.start ≤ last
  le_latest : last ≤ f.latest

/-- A height of a window with a last height. -/
def IsIn (window : Window) (last height : UInt64) : Prop := window.start ≤ height ∧ height ≤ last

/-- What is taken up of a window: heights up to a bound. -/
structure Hint.Within (window : Window) (last : UInt64) (hint : Hint) : Prop where
  bound : IsIn window last hint.bound
  heights : ∀ height ∈ hint.heights, window.start ≤ height ∧ height ≤ hint.bound
  ascending : hint.heights.Pairwise (· < ·)

/-! ## What an iteration asks and tells -/

/-- What is told keeps to a window. Of the heights that are taken up, the ones in the bypass ranges are skipped,
and all that a hint leaves out up to its bound are. -/
def Measurement.KeepsTo (window : Window) (last : UInt64) (bypass : BypassRanges) : Measurement → Prop
  | .bufferedHeight height => IsIn window last height
  | .blocksFetched count => count ≤ window.size
  | .heightsSkipped reason count => ∃ hint : Hint, hint.Within window last ∧
      (reason = "bypass" ∧ count.toNat + (bypass.strip hint.heights).length = hint.heights.length ∨
        reason = "hint" ∧
          count.toNat + hint.heights.length = hint.bound.toNat + 1 - window.start.toNat)
  | .hintFallback | .batchFetchTime _ => True
  | _ => False

/-- A question keeps to a window. -/
def KeepsTo (window : Window) (last : UInt64) (bypass : BypassRanges) : Query → Prop
  | .readCache key => ∃ height, IsIn window last height ∧ key = heightKey height
  | .hints first final => first = window.start ∧ final = last
  | .commit height => IsIn window last height
  | .note measurement => Measurement.KeepsTo window last bypass measurement
  | .buffered | .freeSlots | .bestHeight | .finalizedHeight | .fetchBlock _ | .send _ | .now => True
  | _ => False

/-- A block is handed on. -/
def isSend : Query → Bool
  | .send _ => true
  | _ => false

/-- All that has been asked keeps to a window, and no more blocks have been handed on than a limit allows. -/
structure Contained (window : Window) (last : UInt64) (bypass : BypassRanges) (limit : Nat)
    (log : List Exchange) : Prop where
  asks : ∀ event ∈ log, KeepsTo window last bypass event.1
  sends : log.countP (isSend ·.1) ≤ limit

/-- The tip of a height has been looked for in vain. -/
def inVain (height : UInt64) : Exchange :=
  ⟨.readCache (heightKey height), (.ok none : Except CacheError (Option String))⟩

/-- A failure is no overflow, and a height is missed only where its tip has just been looked for in vain. -/
structure Explains (log : List Exchange) (cause : Abort FetchError) : Prop where
  ne_overflow : cause ≠ .overflow
  missed : ∀ height, cause = .failed (.cacheMiss height) → log.getLast? = some (inVain height)

section
variable {α β : Type} {plan : Plan} {b : Behaviour Surroundings} {window : Window} {last latest : UInt64}
  {bypass memory : BypassRanges} {limit : Nat} {log : List Exchange} {tips : List Tip} {hint : Hint}
  {height : UInt64} {heights : List UInt64} {fact : α → Prop}

/-! ## Windows -/

/-- What is left of a window of free places, as it is cut off at the latest height. -/
theorem Figures.allows_of_clamp {f : Figures} {start : UInt64}
    (hstart : start.toNat = Ledger.next plan { buffered := f.buffered })
    (hcapacity : min (UInt64.ofNat f.free) plan.settings.maxBatchSize ≠ 0)
    (h : (⟨start, min (UInt64.ofNat f.free) plan.settings.maxBatchSize⟩ : Window).clamp f.latest
      = .ok (some window)) :
    ∃ last, f.Allows plan window last := by
  have hpos : 0 < min (UInt64.ofNat f.free) plan.settings.maxBatchSize := UInt64.pos_iff_ne_zero.mpr hcapacity
  obtain ⟨last, hlast, hplace⟩ := Window.exists_last_of_clamp hpos h
  obtain ⟨rfl, hwidth, hle⟩ := Window.clamp_eq_some h
  have hfree : (UInt64.ofNat f.free).toNat ≤ f.free := Nat.mod_le _ _
  have hcap := Word.toNat_min (UInt64.ofNat f.free) plan.settings.maxBatchSize
  rw [UInt64.lt_iff_toNat_lt, UInt64.toNat_zero] at hpos
  rw [UInt64.le_iff_toNat_le] at hle
  dsimp only at hplace hwidth hle
  refine ⟨last, hstart, hlast, ?_, ?_, ?_, le_last hlast, ?_⟩
  · rw [UInt64.le_iff_toNat_le, UInt64.toNat_one]
    omega
  · omega
  · rw [UInt64.le_iff_toNat_le]
    omega
  · rw [UInt64.le_iff_toNat_le]
    omega

/-- There are as many heights in a window as its size tells. -/
theorem count_of_last (hlast : window.last = .ok last) (hsize : 1 ≤ window.size) :
    last.toNat + 1 - window.start.toNat = window.size.toNat := by
  have hplace := Window.toNat_last hlast
  rw [UInt64.le_iff_toNat_le, UInt64.toNat_one] at hsize
  omega

/-- Once the tips of a window have been read, there is one for each of its heights. -/
theorem exists_tipFor? (htips : tips.length = last.toNat + 1 - window.start.toNat)
    (hheight : IsIn window last height) : ∃ tip, tipFor? window tips height = some tip := by
  have hplace := UInt64.toNat_sub_of_le _ _ hheight.1
  have hlow := UInt64.le_iff_toNat_le.mp hheight.1
  have hhigh := UInt64.le_iff_toNat_le.mp hheight.2
  have hbound : (height - window.start).toNat < tips.length := by omega
  rw [tipFor?, if_neg (UInt64.not_lt.mpr hheight.1), List.getElem?_eq_getElem hbound]
  exact ⟨_, rfl⟩

/-- The whole of a window. -/
theorem within_heightsBetween (hlast : window.last = .ok last) :
    Hint.Within window last ⟨Window.heightsBetween window.start last, last⟩ where
  bound := ⟨le_last hlast, UInt64.le_refl last⟩
  heights _ hmem := Window.mem_heightsBetween.mp hmem
  ascending := Window.pairwise_heightsBetween _ _

/-- What a hint leaves of a window. -/
theorem within_hintOf {selection : ModuloSelection} {reply : HintReply} (hlast : window.last = .ok last)
    (h : hintOf selection window last reply = some hint) : hint.Within window last := by
  have hfits := fits_hintOf hlast h
  unfold hintOf at h
  split at h
  · cases h
  · cases h
    refine ⟨⟨hfits.start_le, ?_⟩, fun height hmem => ?_, ModuloSelection.pairwise_sortDedup _⟩
    · rw [UInt64.le_iff_toNat_le, Word.toNat_min]
      exact Nat.min_le_left _ _
    · rw [ModuloSelection.mem_sortDedup, List.mem_filter, Bool.and_eq_true, decide_eq_true_eq,
        decide_eq_true_eq] at hmem
      exact hmem.2

theorem Hint.Within.isIn (h : hint.Within window last) (hmem : height ∈ hint.heights) :
    IsIn window last height :=
  ⟨(h.heights height hmem).1, UInt64.le_trans (h.heights height hmem).2 h.bound.2⟩

/-- No more heights are taken up than there are up to the bound. -/
theorem Hint.Within.length_le (h : hint.Within window last) :
    hint.heights.length ≤ hint.bound.toNat + 1 - window.start.toNat :=
  length_le_of_ascending h.ascending h.heights

/-- Up to the bound there are no more heights than in the window. -/
theorem Hint.Within.count_le (h : hint.Within window last) :
    hint.bound.toNat + 1 - window.start.toNat ≤ last.toNat + 1 - window.start.toNat := by
  have := UInt64.le_iff_toNat_le.mp h.bound.2
  omega

/-! ## Keeping to a window -/

/-- Another question, which may hand a block on. -/
theorem Contained.append (h : Contained window last bypass limit log) (event : Exchange)
    (hkeeps : KeepsTo window last bypass event.1) :
    Contained window last bypass (limit + if isSend event.1 then 1 else 0) (log ++ [event]) where
  asks other hother := by
    rcases List.mem_append.mp hother with hother | hother
    · exact h.asks other hother
    · rwa [List.mem_singleton.mp hother]
  sends := by
    rw [List.countP_append, List.countP_singleton]
    exact Nat.add_le_add_right h.sends _

/-- A question that hands no block on. -/
theorem Contained.ask (h : Contained window last bypass limit log) (query : Query)
    (hkeeps : KeepsTo window last bypass query) (hsend : isSend query = false) (answer : query.Answer) :
    Contained window last bypass limit (log ++ [⟨query, answer⟩]) := by
  have happend := h.append ⟨query, answer⟩ hkeeps
  rwa [hsend] at happend

theorem Contained.mono (h : Contained window last bypass limit log) {limit' : Nat} (hle : limit ≤ limit') :
    Contained window last bypass limit' log :=
  ⟨h.asks, Nat.le_trans h.sends hle⟩

/-- A height is missed. -/
def IsMiss : FetchError → Prop
  | .cacheMiss _ => True
  | _ => False

theorem explains_failed {cause : FetchError} (h : ¬IsMiss cause) : Explains log (.failed cause) where
  ne_overflow heq := by cases heq
  missed height heq := by
    cases heq
    exact absurd trivial h

theorem explains_inVain : Explains (log ++ [inVain height]) (.failed (.cacheMiss height)) where
  ne_overflow heq := by cases heq
  missed height heq := by
    cases heq
    exact List.getLast?_concat

/-- Work in the course of an iteration that hands no blocks on and remembers what it did before. -/
def Stays (b : Behaviour Surroundings) (window : Window) (last : UInt64) (bypass : BypassRanges) (limit : Nat)
    (memory : BypassRanges) (task : Task α) (fact : α → Prop) : Prop :=
  ∀ log, Contained window last bypass limit log → task.Keeps (following b BypassRanges)
    (fun log' memory' value => Contained window last bypass limit log' ∧ memory' = memory ∧ fact value)
    (fun log' _ cause => Contained window last bypass limit log' ∧ Explains log' cause) log memory

theorem Stays.bind {fact' : β → Prop} {task : Task α} {f : α → Task β}
    (h : Stays b window last bypass limit memory task fact)
    (hf : ∀ value, fact value → Stays b window last bypass limit memory (f value) fact') :
    Stays b window last bypass limit memory (task >>= f) fact' := by
  intro log hlog
  refine Routine.keeps_bind.mpr ((h log hlog).mono ?_ fun _ _ _ hfailed => hfailed)
  rintro log' _ value ⟨hlog', rfl, hfact⟩
  exact hf value hfact log' hlog'

theorem Stays.mono {fact' : α → Prop} {task : Task α} (h : Stays b window last bypass limit memory task fact)
    (himp : ∀ value, fact value → fact' value) : Stays b window last bypass limit memory task fact' :=
  fun log hlog => (h log hlog).mono (fun _ _ value hends => ⟨hends.1, hends.2.1, himp value hends.2.2⟩)
    fun _ _ _ hfailed => hfailed

theorem Stays.pure {value : α} (h : fact value) :
    Stays b window last bypass limit memory (Pure.pure value) fact :=
  fun _ hlog => Routine.keeps_pure.mpr ⟨hlog, rfl, h⟩

theorem stays_ask (query : Query) (hkeeps : KeepsTo window last bypass query) (hsend : isSend query = false) :
    Stays b window last bypass limit memory (Routine.ask (I := Surroundings) query) fun _ => True :=
  fun _ hlog => Routine.keeps_following_ask.mpr ⟨hlog.ask query hkeeps hsend _, rfl, trivial⟩

theorem stays_note (measurement : Measurement) (h : Measurement.KeepsTo window last bypass measurement) :
    Stays b window last bypass limit memory (Work.note measurement) fun _ => True :=
  stays_ask (.note measurement) h rfl

/-- A computation that comes to a word. -/
theorem stays_checked {value : Except Overflow α} {v : α} (h : value = .ok v) :
    Stays b window last bypass limit memory (Work.checked value) fun found => v = found :=
  h ▸ Stays.pure rfl

/-! ## Tips -/

/-- The only failure by a missing tip. -/
theorem stays_requireTip (hheight : IsIn window last height) :
    Stays b window last bypass limit memory (requireTip height) fun _ => True := by
  intro log hlog
  refine Routine.keeps_bind.mpr (Routine.keeps_bind.mpr (Routine.keeps_following_ask.mpr ?_))
  have hlog' := hlog.ask (.readCache (heightKey height)) ⟨height, hheight, rfl⟩ rfl
  -- a tip is missed in one case only, and then the reading is the last event
  generalize b log (.readCache (heightKey height)) = answer
  cases answer with
  | error e => exact ⟨hlog' _, explains_failed id⟩
  | ok found =>
    cases found with
    | none => exact ⟨hlog' _, explains_inVain⟩
    | some text =>
      refine Routine.keeps_bind.mpr (Routine.keeps_ofExcept.mpr (Routine.keeps_ofExcept.mpr ?_))
      rw [decodeCached]
      cases Tip.ofCacheText? text with
      | none => exact ⟨hlog' _, explains_failed id⟩
      | some tip => exact ⟨hlog' _, rfl, trivial⟩

theorem stays_requireTips (hheights : ∀ height ∈ heights, IsIn window last height) :
    Stays b window last bypass limit memory (requireTips heights) fun tips => tips.length = heights.length := by
  induction heights with
  | nil => exact .pure rfl
  | cons height rest ih =>
    have hrest : ∀ height ∈ rest, IsIn window last height :=
      fun other hother => hheights other (List.mem_cons_of_mem _ hother)
    refine (stays_requireTip (hheights height List.mem_cons_self)).bind fun tip _ => ?_
    exact (ih hrest).bind fun tips htips => .pure (congrArg Nat.succ htips)

/-- One tip is read for each height of a window. -/
theorem stays_windowTips (hlast : window.last = .ok last) :
    Stays b window last bypass limit memory (windowTips window)
      fun tips => tips.length = last.toNat + 1 - window.start.toNat := by
  have hheights := innerHeights_append_last hlast
  have hin : ∀ height ∈ innerHeights window ++ [last], IsIn window last height := fun height hmem => by
    rw [hheights] at hmem
    exact Window.mem_heightsBetween.mp hmem
  refine (stays_checked hlast).bind ?_
  rintro _ rfl
  refine (stays_requireTip ⟨le_last hlast, UInt64.le_refl _⟩).bind fun lastTip _ => ?_
  have hinner := fun height hmem => hin height (List.mem_append_left _ hmem)
  refine (stays_requireTips hinner).bind fun tips htips => ?_
  have hlength := congrArg List.length hheights
  rw [List.length_append, List.length_singleton, Window.heightsBetween, List.length_map, List.length_range]
    at hlength
  refine .pure ?_
  rw [List.length_append, List.length_singleton, htips, hlength]

/-! ## Hints -/

theorem stays_consultHints (hlast : window.last = .ok last) (hlatest : last ≤ latest) :
    Stays b window last bypass limit memory (consultHints plan window latest)
      fun found => ∀ hint, found = some hint → hint.Within window last := by
  unfold consultHints
  cases plan.hinting with
  | none => exact .pure nofun
  | some selection =>
    refine (stays_checked hlast).bind ?_
    rintro _ rfl
    have hdistance : Word.sub latest last = .ok (latest - last) := if_pos hlatest
    refine (stays_checked hdistance).bind ?_
    rintro _ rfl
    split
    · exact .pure nofun
    · refine (stays_ask (.hints window.start last) ⟨rfl, rfl⟩ rfl).bind fun reply _ => ?_
      cases reply with
      | none => exact (stays_note .hintFallback trivial).bind fun _ _ => .pure nofun
      | some reply => exact .pure fun hint hhint => within_hintOf hlast hhint

/-! ## Blocks -/

theorem stays_noteSkipped {reason : String} {count : UInt64}
    (h : Measurement.KeepsTo window last bypass (.heightsSkipped reason count)) :
    Stays b window last bypass limit memory (noteSkipped reason count) fun _ => True := by
  unfold noteSkipped
  split
  · exact .pure trivial
  · exact stays_note _ h

/-- The heights in the bypass ranges are skipped, and no others. -/
theorem stays_stripBypass (hwithin : hint.Within window last)
    (hcountable : hint.heights.length < UInt64.size) :
    Stays b window last bypass limit bypass (stripBypass hint.heights)
      fun kept => kept = bypass.strip hint.heights := by
  intro log hlog
  refine Routine.keeps_bind.mpr (Routine.keeps_current.mpr ?_)
  have hkept : (bypass.strip hint.heights).length ≤ hint.heights.length := List.length_filter_le _ _
  have hskipped : Measurement.KeepsTo window last bypass (.heightsSkipped "bypass"
      (UInt64.ofNat (hint.heights.length - (bypass.strip hint.heights).length))) := by
    refine ⟨hint, hwithin, .inl ⟨rfl, ?_⟩⟩
    rw [UInt64.toNat_ofNat_of_lt' (by omega)]
    omega
  have hrest : Stays b window last bypass limit bypass (do
      noteSkipped "bypass" (UInt64.ofNat (hint.heights.length - (bypass.strip hint.heights).length))
      return bypass.strip hint.heights) fun kept => kept = bypass.strip hint.heights :=
    (stays_noteSkipped hskipped).bind fun _ _ => .pure rfl
  exact hrest log hlog

/-- No tip is missed when blocks are fetched. -/
theorem stays_fetchHeights (htips : tips.length = last.toNat + 1 - window.start.toNat)
    (hheights : ∀ height ∈ heights, IsIn window last height) :
    Stays b window last bypass limit memory (fetchHeights window tips heights)
      fun blocks => blocks.length = heights.length := by
  induction heights with
  | nil => exact .pure rfl
  | cons height rest ih =>
    have hrest : ∀ height ∈ rest, IsIn window last height :=
      fun other hother => hheights other (List.mem_cons_of_mem _ hother)
    obtain ⟨tip, htip⟩ := exists_tipFor? htips (hheights height List.mem_cons_self)
    unfold fetchHeights
    rw [htip]
    refine (stays_ask (.fetchBlock tip.point) trivial rfl).bind fun answer _ => ?_
    cases answer with
    | error e => exact fun log hlog => Routine.keeps_fail.mpr ⟨hlog, explains_failed id⟩
    | ok body => exact (ih hrest).bind fun blocks hblocks => .pure (congrArg Nat.succ hblocks)

/-- The heights from one to another can be counted if there are not too many of them for a word. -/
theorem exists_span {first final : UInt64} (hle : first ≤ final)
    (hcountable : final.toNat + 1 - first.toNat < UInt64.size) :
    ∃ span, (do Word.add (← Word.sub final first) 1) = .ok span ∧
      span.toNat = final.toNat + 1 - first.toNat := by
  have hdistance : Word.sub final first = .ok (final - first) := if_pos hle
  have hplace := Word.sub_eq_ok_iff.mp hdistance
  have hspan : (UInt64.ofNat (final.toNat + 1 - first.toNat)).toNat = final.toNat + 1 - first.toNat :=
    UInt64.toNat_ofNat_of_lt' hcountable
  refine ⟨_, ?_, hspan⟩
  rw [hdistance]
  refine Word.add_eq_ok_iff.mpr ?_
  rw [hspan, UInt64.toNat_one]
  omega

/-- The bypass ranges take heights away, and add none. -/
theorem within_strip (hwithin : hint.Within window last) :
    ∀ height ∈ bypass.strip hint.heights, IsIn window last height :=
  fun _ hmem => hwithin.isIn (List.mem_of_mem_filter hmem)

/-- What a hint leaves is fetched, and the rest up to its bound is skipped. -/
theorem stays_fetchHinted (hlast : window.last = .ok last)
    (htips : tips.length = last.toNat + 1 - window.start.toNat) (hwithin : hint.Within window last) :
    Stays b window last bypass limit bypass (fetchHinted window tips hint)
      fun blocks => blocks.length ≤ hint.heights.length := by
  have hcountable := countable_window hlast
  have hlength := hwithin.length_le
  have hcount := hwithin.count_le
  have hlow := UInt64.le_iff_toNat_le.mp hwithin.bound.1
  have hcandidates : (UInt64.ofNat hint.heights.length).toNat = hint.heights.length :=
    UInt64.toNat_ofNat_of_lt' (by omega)
  -- from the start up to the bound there are as many heights as a word can tell
  obtain ⟨considered, hconsidered, hplace⟩ := exists_span hwithin.bound.1 (by omega)
  obtain ⟨skipped, hskipped⟩ : ∃ skipped,
      Word.sub considered (UInt64.ofNat hint.heights.length) = .ok skipped :=
    ⟨_, if_pos (UInt64.le_iff_toNat_le.mpr (by omega))⟩
  have hleft := Word.sub_eq_ok_iff.mp hskipped
  refine (stays_stripBypass hwithin (by omega)).bind ?_
  rintro _ rfl
  refine (stays_checked hconsidered).bind ?_
  rintro _ rfl
  refine (stays_checked hskipped).bind ?_
  rintro _ rfl
  refine (stays_noteSkipped ⟨hint, hwithin, .inr ⟨rfl, by omega⟩⟩).bind fun _ _ => ?_
  refine (stays_fetchHeights htips (within_strip hwithin)).mono fun blocks hblocks => ?_
  rw [hblocks]
  exact List.length_filter_le _ _

theorem stays_fetchWindow (hlast : window.last = .ok last)
    (htips : tips.length = last.toNat + 1 - window.start.toNat) :
    Stays b window last bypass limit bypass (fetchWindow window tips)
      fun blocks => blocks.length ≤ last.toNat + 1 - window.start.toNat := by
  have hwithin := within_heightsBetween hlast
  have hcountable := countable_window hlast
  have hlength := hwithin.length_le
  dsimp only at hlength
  refine (stays_checked hlast).bind ?_
  rintro _ rfl
  refine (stays_stripBypass hwithin (by dsimp only; omega)).bind ?_
  rintro _ rfl
  refine (stays_fetchHeights htips (within_strip hwithin)).mono fun blocks hblocks => ?_
  rw [hblocks]
  exact Nat.le_trans (List.length_filter_le _ _) hlength

/-- No more blocks are fetched than there are heights, up to a height of the window. -/
theorem stays_fetchPlanned (hlast : window.last = .ok last)
    (htips : tips.length = last.toNat + 1 - window.start.toNat) {found : Option Hint}
    (hfound : ∀ hint, found = some hint → hint.Within window last) :
    Stays b window last bypass limit bypass (fetchPlanned window tips found)
      fun planned => planned.1.length ≤ last.toNat + 1 - window.start.toNat ∧ IsIn window last planned.2 := by
  cases found with
  | some hint =>
    have hwithin := hfound hint rfl
    refine (stays_fetchHinted hlast htips hwithin).bind fun blocks hblocks => .pure ⟨?_, hwithin.bound⟩
    exact Nat.le_trans hblocks (Nat.le_trans hwithin.length_le hwithin.count_le)
  | none =>
    refine (stays_fetchWindow hlast htips).bind fun blocks hblocks => ?_
    refine (stays_checked hlast).bind ?_
    rintro _ rfl
    exact .pure ⟨hblocks, le_last hlast, UInt64.le_refl _⟩

/-! ## Handing on -/

/-- Every block is handed on at most once. -/
theorem keeps_sendAll_contained {blocks : List Block} (hlog : Contained window last bypass limit log) :
    (sendAll blocks).Keeps (following b BypassRanges)
      (fun log' memory' _ => Contained window last bypass (limit + blocks.length) log' ∧ memory' = memory)
      (fun log' _ cause => Contained window last bypass (limit + blocks.length) log' ∧ Explains log' cause)
      log memory := by
  -- each block that is handed on adds one to the limit and leaves one block less
  induction blocks generalizing limit log with
  | nil => exact Routine.keeps_pure.mpr ⟨hlog, rfl⟩
  | cons block rest ih =>
    refine Routine.keeps_bind.mpr (Routine.keeps_following_ask.mpr ?_)
    have hsent := hlog.append ⟨.send block, b log (.send block)⟩ trivial
    have hcount : limit + (block :: rest).length = limit + 1 + rest.length := by
      rw [List.length_cons]
      omega
    rw [hcount]
    generalize b log (.send block) = taken at hsent ⊢
    cases taken with
    | false => exact ⟨hsent.mono (Nat.le_add_right _ _), explains_failed id⟩
    | true => exact ih hsent

theorem keeps_enqueue_contained {blocks : List Block} (hheight : IsIn window last height)
    (hlog : Contained window last bypass 0 log) :
    (enqueue blocks height).Keeps (following b BypassRanges)
      (fun log' memory' _ => Contained window last bypass blocks.length log' ∧ memory' = memory)
      (fun log' _ cause => Contained window last bypass blocks.length log' ∧ Explains log' cause)
      log memory := by
  refine Routine.keeps_bind.mpr (Routine.keeps_following_ask.mpr ?_)
  have hasked := hlog.ask .buffered trivial rfl (b log .buffered)
  generalize b log .buffered = previous at hasked ⊢
  refine Routine.keeps_bind.mpr (Routine.keeps_ofExcept.mpr ?_)
  cases Outbox.checkBatch previous blocks height with
  | error e => exact ⟨hasked.mono (Nat.zero_le _), explains_failed id⟩
  | ok _ =>
    refine Routine.keeps_bind.mpr ((keeps_sendAll_contained hasked).mono ?_ ?_)
    · rintro log' _ _ ⟨hsent, rfl⟩
      rw [Nat.zero_add] at hsent
      exact Routine.keeps_following_ask.mpr ⟨hsent.ask (.commit height) hheight rfl _, rfl⟩
    · rintro log' _ cause ⟨hsent, hexplains⟩
      rw [Nat.zero_add] at hsent
      exact ⟨hsent, hexplains⟩

/-- What is measured once a batch has been handed on. -/
theorem stays_notes {fetched : Nat} (hfetched : fetched ≤ window.size.toNat) (hheight : IsIn window last height)
    (started : Nat) :
    Stays b window last bypass limit memory (do
      Work.note (.blocksFetched (UInt64.ofNat fetched))
      Work.note (.bufferedHeight height)
      let ended ← Routine.ask (I := Surroundings) .now
      Work.note (.batchFetchTime (secondsBetween started ended))
      return Outcome.dispatched window fetched height)
      fun outcome => outcome = .dispatched window fetched height := by
  have hcounted : UInt64.ofNat fetched ≤ window.size := by
    rw [UInt64.le_iff_toNat_le]
    exact Nat.le_trans (Nat.mod_le _ _) hfetched
  refine (stays_note (.blocksFetched _) hcounted).bind fun _ _ => ?_
  refine (stays_note (.bufferedHeight height) hheight).bind fun _ _ => ?_
  refine (stays_ask .now trivial rfl).bind fun ended _ => ?_
  exact (stays_note (.batchFetchTime _) trivial).bind fun _ _ => .pure rfl

/-- A batch of a window that has been handed on. -/
def Outcome.IsWithin (window : Window) (last : UInt64) (outcome : Outcome) : Prop :=
  ∃ fetched height, outcome = .dispatched window fetched height ∧ fetched ≤ window.size.toNat ∧
    IsIn window last height

/-- Work that hands a batch of a window on, if it does not fail. -/
def Completes (b : Behaviour Surroundings) (window : Window) (last : UInt64) (bypass : BypassRanges)
    (task : Task Outcome) : Prop :=
  ∀ log, Contained window last bypass 0 log → task.Keeps (following b BypassRanges)
    (fun log' _ outcome => Contained window last bypass window.size.toNat log' ∧ outcome.IsWithin window last)
    (fun log' _ cause => Contained window last bypass window.size.toNat log' ∧ Explains log' cause) log bypass

/-- Work that hands nothing on may come first. -/
theorem Stays.completes {task : Task α} {f : α → Task Outcome}
    (h : Stays b window last bypass 0 bypass task fact)
    (hf : ∀ value, fact value → Completes b window last bypass (f value)) :
    Completes b window last bypass (task >>= f) := by
  intro log hlog
  refine Routine.keeps_bind.mpr ((h log hlog).mono ?_ ?_)
  · rintro log' _ value ⟨hlog', rfl, hfact⟩
    exact hf value hfact log' hlog'
  · rintro log' _ cause ⟨hlog', hexplains⟩
    exact ⟨hlog'.mono (Nat.zero_le _), hexplains⟩

/-- Blocks that have been fetched are handed on. -/
theorem completes_handing {blocks : List Block} (hblocks : blocks.length ≤ window.size.toNat)
    (hheight : IsIn window last height) (started : Nat) :
    Completes b window last bypass (do
      enqueue blocks height
      Routine.remember fun bypass => bypass.consumeThrough height
      Work.note (.blocksFetched (UInt64.ofNat blocks.length))
      Work.note (.bufferedHeight height)
      let ended ← Routine.ask (I := Surroundings) .now
      Work.note (.batchFetchTime (secondsBetween started ended))
      return Outcome.dispatched window blocks.length height) := by
  intro log hlog
  refine Routine.keeps_bind.mpr ((keeps_enqueue_contained hheight hlog).mono ?_ ?_)
  · rintro log' _ _ ⟨hlog', rfl⟩
    refine Routine.keeps_bind.mpr (Routine.keeps_remember.mpr ?_)
    refine (stays_notes hblocks hheight started _ (hlog'.mono hblocks)).mono ?_ fun _ _ _ hfailed => hfailed
    rintro log'' _ _ ⟨hlog'', -, rfl⟩
    exact ⟨hlog'', _, _, rfl, hblocks, hheight⟩
  · rintro log' _ cause ⟨hlog', hexplains⟩
    exact ⟨hlog'.mono hblocks, hexplains⟩

/-- A planned window is fetched and handed on within its bounds. -/
theorem completes_dispatch (hlast : window.last = .ok last) (hsize : 1 ≤ window.size)
    (hlatest : last ≤ latest) : Completes b window last bypass (dispatch plan window latest) := by
  refine (stays_windowTips hlast).completes fun tips htips => ?_
  refine (stays_ask .now trivial rfl).completes fun started _ => ?_
  refine (stays_consultHints hlast hlatest).completes fun found hfound => ?_
  refine (stays_fetchPlanned hlast htips hfound).completes ?_
  rintro ⟨blocks, height⟩ ⟨hblocks, hheight⟩
  rw [count_of_last hlast hsize] at hblocks
  exact completes_handing hblocks hheight started

/-! ## A whole iteration -/

/-- What there is to say of an iteration from its figures: either there is no room, or the next height is above
the latest one, or a window is planned, and the iteration keeps to it. -/
structure Bounded (plan : Plan) (f : Figures) (bypass : BypassRanges)
    (ending : Run.Ending Surroundings BypassRanges (Except (Abort FetchError) Outcome)) : Prop where
  explains : ∀ cause, ending.value = .error cause → Explains ending.log cause
  outcome : (min (UInt64.ofNat f.free) plan.settings.maxBatchSize = 0 ∧ ending.value = .ok .backpressure)
    ∨ (∃ start : UInt64, start.toNat = Ledger.next plan { buffered := f.buffered } ∧ f.latest < start ∧
        ending.value = .ok (.aheadOfTip start f.latest))
    ∨ ∃ window last, f.Allows plan window last ∧ Contained window last bypass window.size.toNat ending.log ∧
        ∀ outcome, ending.value = .ok outcome → outcome.IsWithin window last

/-- Above a height that is not the largest word there is a next one. -/
theorem keeps_nextHeight_figures
    (hbuffered : ∀ height, (Figures.of plan b).buffered = some height → height < Word.max) :
    (nextHeight plan).Keeps (following b BypassRanges)
      (fun log memory start => log = [⟨.buffered, (Figures.of plan b).buffered⟩] ∧ memory = bypass ∧
        start.toNat = Ledger.next plan { buffered := (Figures.of plan b).buffered })
      (fun _ _ _ => False) [] bypass := by
  refine Routine.keeps_bind.mpr (Routine.keeps_following_ask.mpr ?_)
  have hlog : ([⟨.buffered, b [] .buffered⟩] : List Exchange)
      = [⟨.buffered, (Figures.of plan b).buffered⟩] := rfl
  rw [List.nil_append, hlog]
  generalize ([⟨.buffered, (Figures.of plan b).buffered⟩] : List Exchange) = log
  generalize hfound : b [] .buffered = found
  have hfigure : (Figures.of plan b).buffered = found := hfound
  rw [hfigure] at hbuffered ⊢
  cases found with
  | none => exact Routine.keeps_pure.mpr ⟨rfl, rfl, rfl⟩
  | some height =>
    refine Routine.keeps_ofExcept.mpr ?_
    cases hstart : Word.add height 1 with
    | error e => exact UInt64.ne_of_lt (hbuffered height rfl) (Word.eq_largest_of_add_eq_error hstart)
    | ok start => exact ⟨rfl, rfl, Word.add_eq_ok_iff.mp hstart⟩

/-- The latest height is asked for last. No window is planned before. -/
theorem keeps_latestHeight_figures :
    (Work.latestHeight plan.settings.useFinalized : Task UInt64).Keeps (following b BypassRanges)
      (fun log memory latest => (∀ window last, Contained window last bypass 0 log) ∧ memory = bypass ∧
        latest = (Figures.of plan b).latest)
      (fun _ _ _ => False)
      [⟨.buffered, (Figures.of plan b).buffered⟩, ⟨.freeSlots, (Figures.of plan b).free⟩] bypass := by
  have hstart : ∀ window last, Contained window last bypass 0
      [⟨.buffered, (Figures.of plan b).buffered⟩, ⟨.freeSlots, (Figures.of plan b).free⟩] := by
    intro window last
    refine ⟨fun event hevent => ?_, Nat.le_refl 0⟩
    simp only [List.mem_cons, List.not_mem_nil, or_false] at hevent
    rcases hevent with rfl | rfl <;> trivial
  have hlatest : (Figures.of plan b).latest = if plan.settings.useFinalized then
      b [⟨.buffered, (Figures.of plan b).buffered⟩, ⟨.freeSlots, (Figures.of plan b).free⟩] .finalizedHeight
    else b [⟨.buffered, (Figures.of plan b).buffered⟩, ⟨.freeSlots, (Figures.of plan b).free⟩] .bestHeight :=
    rfl
  rw [hlatest]
  unfold Work.latestHeight
  cases plan.settings.useFinalized with
  | true =>
    refine Routine.keeps_following_ask.mpr ⟨fun window last => ?_, rfl, rfl⟩
    exact (hstart window last).ask .finalizedHeight trivial rfl _
  | false =>
    refine Routine.keeps_following_ask.mpr ⟨fun window last => ?_, rfl, rfl⟩
    exact (hstart window last).ask .bestHeight trivial rfl _

/-- The window is cut off at a height that is not the largest word, and what is left of it is dispatched. -/
theorem keeps_planned {f : Figures} {start : UInt64}
    (hstart : start.toNat = Ledger.next plan { buffered := f.buffered })
    (hcapacity : min (UInt64.ofNat f.free) plan.settings.maxBatchSize ≠ 0) (hlatest : f.latest < Word.max)
    (hlog : ∀ window last, Contained window last bypass 0 log) :
    Routine.Keeps (following b BypassRanges) (do
      match ← Work.checked
        ((⟨start, min (UInt64.ofNat f.free) plan.settings.maxBatchSize⟩ : Window).clamp f.latest) with
      | none => return Outcome.aheadOfTip start f.latest
      | some window => dispatch plan window f.latest)
      (fun log' memory' outcome => Bounded plan f bypass ⟨log', memory', .ok outcome⟩)
      (fun log' memory' cause => Bounded plan f bypass ⟨log', memory', .error cause⟩) log bypass := by
  refine Routine.keeps_bind.mpr (Routine.keeps_ofExcept.mpr ?_)
  -- only the largest word is too high for a window to be cut off there
  cases hclamp : (⟨start, min (UInt64.ofNat f.free) plan.settings.maxBatchSize⟩ : Window).clamp f.latest with
  | error e => exact absurd (Window.clamp_eq_error_iff.mp hclamp).2 (UInt64.ne_of_lt hlatest)
  | ok found =>
    cases found with
    | none =>
      have hahead := Window.clamp_eq_none_iff.mp hclamp
      exact Routine.keeps_pure.mpr ⟨nofun, .inr (.inl ⟨start, hstart, hahead, rfl⟩)⟩
    | some window =>
      obtain ⟨last, hallows⟩ := Figures.allows_of_clamp hstart hcapacity hclamp
      have hcompletes : Completes b window last bypass (dispatch plan window f.latest) :=
        completes_dispatch hallows.last_eq hallows.one_le hallows.le_latest
      refine (hcompletes log (hlog window last)).mono ?_ ?_
      · rintro log' _ outcome ⟨hlog', hwithin⟩
        refine ⟨nofun, .inr (.inr ⟨window, last, hallows, hlog', ?_⟩)⟩
        rintro _ ⟨⟩
        exact hwithin
      · rintro log' _ cause ⟨hlog', hexplains⟩
        refine ⟨?_, .inr (.inr ⟨window, last, hallows, hlog', nofun⟩)⟩
        rintro _ ⟨⟩
        exact hexplains

/-- An iteration whose figures leave room for one more height keeps to the bounds of its window, whatever its
other questions are answered. No computation overflows, and none takes away more than there is. -/
theorem iterate_bounded (plan : Plan) (b : Behaviour Surroundings) (bypass : BypassRanges)
    (hbuffered : ∀ height, (Figures.of plan b).buffered = some height → height < Word.max)
    (hlatest : (Figures.of plan b).latest < Word.max) :
    Bounded plan (Figures.of plan b) bypass (((iterate plan).start bypass).against b) ∧
      ∀ heights, (bypass.strip heights).length ≤ heights.length := by
  refine ⟨Routine.against_of_keeps ?_, fun heights => List.length_filter_le _ _⟩
  refine Routine.keeps_bind.mpr ((keeps_nextHeight_figures hbuffered).mono ?_ fun _ _ _ => False.elim)
  rintro _ _ start ⟨rfl, rfl, hstart⟩
  refine Routine.keeps_bind.mpr (Routine.keeps_following_ask.mpr ?_)
  show Routine.Keeps _ (if min (UInt64.ofNat (Figures.of plan b).free) plan.settings.maxBatchSize = 0 then _
    else _) _ _ _ _
  split
  · rename_i hcapacity
    exact Routine.keeps_pure.mpr ⟨nofun, .inl ⟨hcapacity, rfl⟩⟩
  · rename_i hcapacity
    refine Routine.keeps_bind.mpr (keeps_latestHeight_figures.mono ?_ fun _ _ _ => False.elim)
    rintro log _ _ ⟨hlog, rfl, rfl⟩
    exact keeps_planned hstart hcapacity hlatest hlog

end

/-! ## A hinted iteration -/

/-- Everything up to height 4 has been handed on, the latest height is 20, the tips of heights 5 and 6 are
cached, and of these only the second is of interest. -/
def sampleAnswers : Behaviour Surroundings
  | _, .buffered => (some 4 : Option UInt64)
  | _, .freeSlots => (10 : Nat)
  | _, .bestHeight => (20 : UInt64)
  | _, .readCache key =>
    (.ok (([5, 6].find? fun height => heightKey height = key).map fun height =>
      (Tip.sample height 0).toCacheText) : Except CacheError (Option String))
  | _, .hints _ _ => (some ⟨[6], 9⟩ : Option HintReply)
  | _, .fetchBlock _ => (.ok [] : Except NodeError Bytes)
  | _, .send _ => true
  | _, query => query.silence

/-- Two heights at a time are fetched. -/
def samplePlan : Plan := ⟨{ maxBatchSize := 2 }, some ⟨[]⟩⟩

/-- How an iteration ends that is given these answers. -/
def sampleEnding : Run.Ending Surroundings BypassRanges (Except (Abort FetchError) Outcome) :=
  ((iterate samplePlan).start .empty).against sampleAnswers

theorem value_sampleEnding : sampleEnding.value = .ok (.dispatched ⟨5, 2⟩ 1 6) := by decide +kernel

/-- Of two heights one is fetched, and the other is left out by the hint. -/
theorem iterate_bounded_hinted :
    (∀ height, (Figures.of samplePlan sampleAnswers).buffered = some height → height < Word.max) ∧
      (Figures.of samplePlan sampleAnswers).latest < Word.max ∧
      sampleEnding.value = .ok (.dispatched ⟨5, 2⟩ 1 6) ∧
      (Figures.of samplePlan sampleAnswers).Allows samplePlan ⟨5, 2⟩ 6 ∧
      Contained ⟨5, 2⟩ 6 .empty 2 sampleEnding.log := by
  have hbuffered : ∀ height, (Figures.of samplePlan sampleAnswers).buffered = some height →
      height < Word.max := by
    rintro _ ⟨⟩
    decide
  have hlatest : (Figures.of samplePlan sampleAnswers).latest < Word.max := by decide
  obtain ⟨⟨-, hends⟩, -⟩ := iterate_bounded samplePlan sampleAnswers .empty hbuffered hlatest
  rcases hends with ⟨-, hnoRoom⟩ | ⟨start, -, -, hahead⟩ | ⟨window, last, hallows, hcontained, hwithin⟩
  · exact absurd (hnoRoom.symm.trans value_sampleEnding) nofun
  · exact absurd (hahead.symm.trans value_sampleEnding) nofun
  · obtain ⟨fetched, height, houtcome, -, -⟩ := hwithin _ value_sampleEnding
    obtain ⟨rfl, -, -⟩ := Outcome.dispatched.inj houtcome
    have hlast : (⟨5, 2⟩ : Window).last = .ok 6 := by decide
    obtain rfl : 6 = last := Except.ok.inj (hlast.symm.trans hallows.last_eq)
    exact ⟨hbuffered, hlatest, value_sampleEnding, hallows, hcontained⟩

end BlockFeed.Fetcher
