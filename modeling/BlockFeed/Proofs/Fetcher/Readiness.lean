import BlockFeed.Proofs.Fetcher.Confined
import BlockFeed.Proofs.Fetcher.Preparation

/-!
# Readiness of a window

An iteration plans a window and reads the tips of all its heights from the cache before it asks for any
block. Then it asks for the blocks of the heights that are wanted, one after the other. The point that it
names is that of the tip which it has read under the height whose turn it is.

`readiness` is the contract that says so (`keeps_iterate`). Whose turn it is does not depend on how a tip is
found: it is the height whose place among those wanted (`wantedHeights`) is the number of the blocks that
have been asked for. Nothing is presumed of the answers: the cache may have anything under a height, and
another tip there when it is read again.
-/

namespace BlockFeed.Fetcher

open Surroundings (Event Query)

/-- An iteration has planned a window by what it has been told: it begins at the next height, and the room
in the queue, the size of a batch and the latest height limit it. -/
def Planned (plan : Plan) (events : List Event) (window : Window) : Prop :=
  ∃ (buffered : Option UInt64) (start : UInt64) (free : Nat) (latest : UInt64),
    ⟨.buffered, buffered⟩ ∈ events ∧ ⟨.freeSlots, free⟩ ∈ events ∧
      latestRead plan.settings.useFinalized latest ∈ events ∧
      (match buffered with
        | some height => Word.add height 1 = .ok start
        | none => start = plan.settings.initialHeight) ∧
      (⟨start, min (UInt64.ofNat free) plan.settings.maxBatchSize⟩ : Window).clamp latest
        = .ok (some window)

/-- A block has been asked for. -/
def isFetch : Event → Bool
  | ⟨.fetchBlock _, _⟩ => true
  | _ => false

/-- The number of blocks that have been asked for. -/
def fetchesIn (events : List Event) : Nat := events.countP isFetch

/-- What the hint service has replied. -/
def hintReply? : Event → Option HintReply
  | ⟨.hints _ _, reply⟩ => reply
  | _ => none

/-- The hint that an iteration has been given for a window which ends at a height. -/
def hintFor? (plan : Plan) (events : List Event) (window : Window) (last : UInt64) : Option Hint := do
  let selection ← plan.hinting
  let reply ← events.findSome? hintReply?
  hintOf selection window last reply

/-- The heights that an iteration wants of a window which ends at a height, in this order: what the hint
leaves of it, or all of it, but for the bypass ranges. -/
def wantedHeights (plan : Plan) (bypass : BypassRanges) (events : List Event) (window : Window)
    (last : UInt64) : List UInt64 :=
  bypass.strip <| match hintFor? plan events window last with
    | some hint => hint.heights
    | none => Window.heightsBetween window.start last

/-- It is the turn of a height of a planned window, all tips of which have been read; one of them is its
tip. -/
structure Due (plan : Plan) (bypass : BypassRanges) (events : List Event) (window : Window)
    (last height : UInt64) (tip : Tip) : Prop where
  planned : Planned plan events window
  ends : window.last = .ok last
  ready : ∀ other ∈ Window.heightsBetween window.start last, ∃ tip, Read events other tip
  within : height ∈ Window.heightsBetween window.start last
  place : (wantedHeights plan bypass events window last)[fetchesIn events]? = some height
  read : Read events height tip

/-- What is asked of an iteration. It changes nothing that others share with it, but for the queue. -/
def readiness (plan : Plan) : Contract Surroundings BypassRanges (List Event) where
  allows events bypass query :=
    match query with
    | .fetchBlock point => ∃ window last height tip,
        Due plan bypass events window last height tip ∧ tip.point = point
    | .writeCache _ _ _ | .publishBest _ | .publishFinalized _ | .tipHeader | .pointsAfter _ _
    | .findIntersect _ => False
    | _ => True
  answers events query answer events' := events' = ⟨query, answer⟩ :: events

/-- Work that keeps the contract, wherever it ends. -/
def Heeds {α : Type} (plan : Plan) (events : List Event) (bypass : BypassRanges) (task : Task α) : Prop :=
  task.Keeps (readiness plan) (fun _ _ _ => True) (fun _ _ _ => True) events bypass

/-- More has been asked, but for no block and for no hint. -/
structure Prolongs (events events' : List Event) : Prop where
  subset : events ⊆ events'
  fetches : fetchesIn events' = fetchesIn events
  reply : events'.findSome? hintReply? = events.findSome? hintReply?

/-- Work that keeps the contract, asks for no block and no hint, leaves the bypass ranges alone, and has a
value of which a fact holds. -/
def Gathers {α : Type} (plan : Plan) (events : List Event) (bypass : BypassRanges) (task : Task α)
    (fact : List Event → α → Prop) : Prop :=
  task.Keeps (readiness plan)
    (fun events' bypass' value => Prolongs events events' ∧ bypass' = bypass ∧ fact events' value)
    (fun _ _ _ => True) events bypass

section
variable {α β : Type} {plan : Plan} {bypass : BypassRanges} {events events' events'' : List Event}
  {fact : List Event → α → Prop} {window : Window} {last latest : UInt64} {tips : List Tip}

theorem Planned.mono (h : Planned plan events window) (hsub : events ⊆ events') :
    Planned plan events' window := by
  obtain ⟨buffered, start, free, latest, hbuffered, hfree, hlatest, hwindow⟩ := h
  exact ⟨buffered, start, free, latest, hsub hbuffered, hsub hfree, hsub hlatest, hwindow⟩

theorem Prolongs.refl (events : List Event) : Prolongs events events :=
  ⟨List.Subset.refl _, rfl, rfl⟩

theorem Prolongs.trans (h : Prolongs events events') (h' : Prolongs events' events'') :
    Prolongs events events'' :=
  ⟨List.Subset.trans h.subset h'.subset, h'.fetches.trans h.fetches, h'.reply.trans h.reply⟩

/-- The hint is the same as long as the reply is. -/
theorem hintFor?_eq_of_reply (h : events'.findSome? hintReply? = events.findSome? hintReply?) :
    hintFor? plan events' window last = hintFor? plan events window last := by
  rw [hintFor?, hintFor?, h]

/-- So are the heights that are wanted. -/
theorem wantedHeights_eq_of_reply (h : events'.findSome? hintReply? = events.findSome? hintReply?) :
    wantedHeights plan bypass events' window last = wantedHeights plan bypass events window last := by
  rw [wantedHeights, wantedHeights, hintFor?_eq_of_reply h]

/-! ## Ways of composing -/

/-- What follows work that gathers facts need only be looked at where such a fact holds. -/
theorem Gathers.keeps_bind {ok : List Event → BypassRanges → β → Prop} {task : Task α} {f : α → Task β}
    (h : Gathers plan events bypass task fact)
    (hf : ∀ events' value, Prolongs events events' → fact events' value →
      (f value).Keeps (readiness plan) ok (fun _ _ _ => True) events' bypass) :
    (task >>= f).Keeps (readiness plan) ok (fun _ _ _ => True) events bypass := by
  refine Routine.keeps_bind.mpr (Routine.Keeps.mono h ?_ fun _ _ _ _ => trivial)
  rintro events' _ value ⟨hprolongs, rfl, hfact⟩
  exact hf events' value hprolongs hfact

theorem Gathers.bind {fact' : List Event → β → Prop} {task : Task α} {f : α → Task β}
    (h : Gathers plan events bypass task fact)
    (hf : ∀ events' value, Prolongs events events' → fact events' value →
      Gathers plan events' bypass (f value) fact') :
    Gathers plan events bypass (task >>= f) fact' := by
  refine h.keeps_bind fun events₁ value hprolongs hfact => ?_
  refine Routine.Keeps.mono (hf events₁ value hprolongs hfact) ?_ fun _ _ _ _ => trivial
  rintro events₂ bypass₂ value' ⟨hprolongs', hbypass, hfact'⟩
  exact ⟨hprolongs.trans hprolongs', hbypass, hfact'⟩

theorem Gathers.pure {value : α} (h : fact events value) :
    Gathers plan events bypass (Pure.pure value) fact :=
  Routine.keeps_pure.mpr ⟨.refl _, rfl, h⟩

theorem Gathers.fail {cause : Abort FetchError} :
    Gathers plan events bypass (Routine.fail cause) fact :=
  Routine.keeps_fail.mpr trivial

/-- A question that is allowed, and is for no block and no hint. -/
theorem Gathers.ask (query : Query) (hallows : (readiness plan).allows events bypass query)
    (hprolongs : ∀ answer, isFetch ⟨query, answer⟩ = false ∧ hintReply? ⟨query, answer⟩ = none) :
    Gathers plan events bypass (Routine.ask (I := Surroundings) query)
      fun events' answer => ⟨query, answer⟩ ∈ events' := by
  refine Routine.keeps_ask.mpr ⟨hallows, ?_⟩
  rintro answer _ rfl
  obtain ⟨hfetch, hreply⟩ := hprolongs answer
  refine ⟨⟨List.subset_cons_self _ _, ?_, ?_⟩, rfl, List.mem_cons_self⟩
  · exact List.countP_cons_of_neg (by simp [hfetch])
  · rw [List.findSome?_cons, hreply]

/-- What follows a value that may be a failure need only be looked at for its success. -/
theorem keeps_ofExcept_bind {ε : Type} {rename : ε → Abort FetchError} {value : Except ε β}
    {f : β → Task α} {ok : List Event → BypassRanges → α → Prop}
    (h : ∀ v, value = .ok v →
      (f v).Keeps (readiness plan) ok (fun _ _ _ => True) events bypass) :
    (Routine.ofExcept rename value >>= f).Keeps (readiness plan) ok (fun _ _ _ => True) events bypass := by
  cases value with
  | ok v => exact h v rfl
  | error cause => exact Routine.keeps_fail.mpr trivial

/-- Further work is looked at wherever the first part ends with a value. -/
theorem heeds_bind {ok : List Event → BypassRanges → β → Prop} {task : Task β} {f : β → Task α}
    (h : task.Keeps (readiness plan) ok (fun _ _ _ => True) events bypass)
    (hf : ∀ events' bypass' value, ok events' bypass' value → Heeds plan events' bypass' (f value)) :
    Heeds plan events bypass (task >>= f) :=
  Routine.keeps_bind.mpr (h.mono hf fun _ _ _ _ => trivial)

theorem heeds_pure {value : α} : Heeds plan events bypass (Pure.pure value) :=
  Routine.keeps_pure.mpr trivial

theorem gathers_note (m : Measurement) :
    Gathers plan events bypass (Work.note m) fun _ _ => True :=
  (Gathers.ask (.note m) trivial fun _ => ⟨rfl, rfl⟩).bind fun _ _ _ _ => .pure trivial

theorem gathers_noteSkipped (reason : String) (count : UInt64) :
    Gathers plan events bypass (noteSkipped reason count) fun _ _ => True := by
  unfold noteSkipped
  split
  · exact .pure trivial
  · exact gathers_note _

theorem gathers_stripBypass (heights : List UInt64) :
    Gathers plan events bypass (stripBypass heights) fun _ kept => kept = bypass.strip heights := by
  have hcurrent : Gathers plan events bypass Routine.current fun _ value => value = bypass :=
    Routine.keeps_current.mpr ⟨.refl _, rfl, rfl⟩
  refine hcurrent.bind ?_
  rintro events₁ _ - rfl
  exact (gathers_noteSkipped _ _).bind fun _ _ _ _ => .pure rfl

/-- Work that asks for no more blocks keeps the contract. -/
theorem heeds_of_confined {task : Task α}
    (h : task.Confined (fun _ => True) (AsksFor (fun _ => False) True)) :
    Heeds plan events bypass task := by
  have hkeeps : task.Keeps (readiness plan) (fun _ _ _ => True ∧ True) (fun _ _ _ => True ∧ True)
      events bypass := by
    refine h.keeps ?_ (fun _ _ _ _ _ _ _ => trivial) trivial trivial
    intro events' bypass' query _ _ hasks
    cases query with
    | fetchBlock | writeCache | publishBest | publishFinalized | tipHeader | pointsAfter | findIntersect =>
      exact hasks.elim
    | _ => trivial
  exact hkeeps.mono (fun _ _ _ _ => trivial) fun _ _ _ _ => trivial

/-! ## Planning -/

theorem gathers_nextHeight :
    Gathers plan events bypass (nextHeight plan) fun events' start =>
      ∃ buffered : Option UInt64, ⟨.buffered, buffered⟩ ∈ events' ∧
        (match buffered with
          | some height => Word.add height 1 = .ok start
          | none => start = plan.settings.initialHeight) := by
  refine (Gathers.ask .buffered trivial fun _ => ⟨rfl, rfl⟩).bind fun events₁ buffered _ hbuffered => ?_
  cases buffered with
  | none => exact .pure ⟨none, hbuffered, rfl⟩
  | some height =>
    refine Routine.keeps_ofExcept.mpr ?_
    cases hstart : Word.add height 1 with
    | error => trivial
    | ok start => exact ⟨.refl _, rfl, some height, hbuffered, hstart⟩

theorem gathers_latestHeight (useFinalized : Bool) :
    Gathers plan events bypass (Work.latestHeight useFinalized)
      fun events' latest => latestRead useFinalized latest ∈ events' := by
  cases useFinalized with
  | true => exact Gathers.ask .finalizedHeight trivial fun _ => ⟨rfl, rfl⟩
  | false => exact Gathers.ask .bestHeight trivial fun _ => ⟨rfl, rfl⟩

/-! ## Tips -/

theorem gathers_tipAt (height : UInt64) :
    Gathers plan events bypass (Work.tipAt .cache height)
      fun events' found => ∀ tip, found = some tip → Read events' height tip := by
  refine (Gathers.ask (.readCache (heightKey height)) trivial fun _ => ⟨rfl, rfl⟩).bind
    fun events₁ answer _ hread => ?_
  refine keeps_ofExcept_bind ?_
  rintro text rfl
  refine Routine.keeps_ofExcept.mpr ?_
  cases text with
  | none => exact ⟨.refl _, rfl, nofun⟩
  | some text =>
    cases hdecode : Tip.ofCacheText? text with
    | none =>
      rw [decodeCached, hdecode]
      trivial
    | some tip =>
      rw [decodeCached, hdecode]
      refine ⟨.refl _, rfl, fun tip' htip' => ?_⟩
      cases htip'
      exact ⟨text, hread, hdecode⟩

theorem gathers_requireTip (height : UInt64) :
    Gathers plan events bypass (requireTip height) fun events' tip => Read events' height tip := by
  refine (gathers_tipAt height).bind fun events₁ found _ hfound => ?_
  cases found with
  | some tip => exact .pure (hfound tip rfl)
  | none => exact .fail

theorem gathers_requireTips (heights : List UInt64) :
    Gathers plan events bypass (requireTips heights)
      fun events' tips => List.Forall₂ (Read events') heights tips := by
  induction heights generalizing events with
  | nil => exact .pure .nil
  | cons height rest ih =>
    refine (gathers_requireTip height).bind fun events₁ tip _ htip => ?_
    refine ih.bind fun events₂ tips hprolongs htips => ?_
    exact .pure (.cons (htip.mono hprolongs.subset) htips)

/-- The tips of a window are those that have been read under its heights. -/
theorem gathers_windowTips :
    Gathers plan events bypass (windowTips window) fun events' tips => ∃ last, window.last = .ok last ∧
      List.Forall₂ (Read events') (Window.heightsBetween window.start last) tips := by
  refine keeps_ofExcept_bind fun last hlast => ?_
  refine (gathers_requireTip last).bind fun events₁ lastTip _ hlastTip => ?_
  refine (gathers_requireTips (innerHeights window)).bind fun events₂ tips hprolongs htips => ?_
  refine .pure ⟨last, hlast, ?_⟩
  rw [← innerHeights_append_last hlast]
  exact List.rel_append htips (.cons (hlastTip.mono hprolongs.subset) .nil)

/-! ## The hint -/

/-- What the service is taken to have hinted at is what it has replied. -/
theorem keeps_consultHints (hlast : window.last = .ok last)
    (hnone : events.findSome? hintReply? = none) :
    (consultHints plan window latest).Keeps (readiness plan)
      (fun events' bypass' found => events ⊆ events' ∧ fetchesIn events' = fetchesIn events ∧
        bypass' = bypass ∧ found = hintFor? plan events' window last)
      (fun _ _ _ => True) events bypass := by
  have hunasked : hintFor? plan events window last = none := by
    rw [hintFor?, hnone]
    cases plan.hinting <;> rfl
  unfold consultHints
  cases hhinting : plan.hinting with
  | none => exact Routine.keeps_pure.mpr ⟨List.Subset.refl _, rfl, rfl, hunasked.symm⟩
  | some selection =>
    refine keeps_ofExcept_bind fun end' hend => ?_
    obtain rfl : end' = last := Except.ok.inj (hend.symm.trans hlast)
    refine keeps_ofExcept_bind fun distance _ => ?_
    split
    · exact Routine.keeps_pure.mpr ⟨List.Subset.refl _, rfl, rfl, hunasked.symm⟩
    · refine Routine.keeps_bind.mpr (Routine.keeps_ask.mpr ⟨trivial, ?_⟩)
      rintro reply _ rfl
      cases reply with
      | none =>
        refine (gathers_note _).keeps_bind fun events₂ _ hprolongs _ => ?_
        exact Routine.keeps_pure.mpr ⟨List.Subset.trans (List.subset_cons_self _ _) hprolongs.subset,
          hprolongs.fetches, rfl, ((hintFor?_eq_of_reply hprolongs.reply).trans hunasked).symm⟩
      | some reply =>
        refine Routine.keeps_pure.mpr ⟨List.subset_cons_self _ _, rfl, rfl, ?_⟩
        rw [hintFor?, hhinting]
        rfl

/-! ## Blocks -/

/-- Each block that is asked for is that of the height whose turn it is. The induction is on the heights that
are left, which begin at the place of the next one. -/
theorem heeds_fetchHeights (hplanned : Planned plan events window) (hlast : window.last = .ok last)
    (htips : List.Forall₂ (Read events) (Window.heightsBetween window.start last) tips)
    {heights : List UInt64}
    (hleft : (wantedHeights plan bypass events window last).drop (fetchesIn events) = heights) :
    Heeds plan events bypass (fetchHeights window tips heights) := by
  induction heights generalizing events with
  | nil => exact heeds_pure
  | cons height rest ih =>
    unfold fetchHeights
    cases htip : tipFor? window tips height with
    | none => exact Routine.keeps_fail.mpr trivial
    | some tip =>
      obtain ⟨-, hwithin, hread⟩ := tipFor?_of_forall₂ htips htip
      have hready : ∀ other ∈ Window.heightsBetween window.start last, ∃ tip, Read events other tip := by
        intro other hother
        obtain ⟨i, hi, rfl⟩ := List.getElem_of_mem hother
        exact ⟨_, htips.get hi (htips.length_eq ▸ hi)⟩
      have hplace : (wantedHeights plan bypass events window last)[fetchesIn events]? = some height := by
        rw [← List.head?_drop, hleft, List.head?_cons]
      have hdue : Due plan bypass events window last height tip :=
        ⟨hplanned, hlast, hready, hwithin, hplace, hread⟩
      refine Routine.keeps_bind.mpr
        (Routine.keeps_ask.mpr ⟨⟨window, last, height, tip, hdue, rfl⟩, ?_⟩)
      rintro answer _ rfl
      have hsub : events ⊆ ⟨.fetchBlock tip.point, answer⟩ :: events := List.subset_cons_self _ _
      refine keeps_ofExcept_bind fun body _ => ?_
      refine heeds_bind (ih (hplanned.mono hsub) (htips.imp fun _ _ hread => hread.mono hsub) ?_)
        fun _ _ _ _ => heeds_pure
      have hcount : fetchesIn (⟨.fetchBlock tip.point, answer⟩ :: events) = fetchesIn events + 1 :=
        List.countP_cons_of_pos rfl
      have hwanted : wantedHeights plan bypass (⟨.fetchBlock tip.point, answer⟩ :: events) window last
          = wantedHeights plan bypass events window last := wantedHeights_eq_of_reply rfl
      rw [hcount, hwanted, ← List.drop_drop, hleft]
      rfl

/-- What the hint leaves of a window, or all of it, is fetched in turn. -/
theorem heeds_fetchPlanned (hplanned : Planned plan events window) (hlast : window.last = .ok last)
    (htips : List.Forall₂ (Read events) (Window.heightsBetween window.start last) tips)
    (hnone : fetchesIn events = 0) :
    Heeds plan events bypass (fetchPlanned window tips (hintFor? plan events window last)) := by
  -- the notes that are taken before the first block change nothing of what is due
  have hfetch : ∀ events₁ heights, Prolongs events events₁ →
      wantedHeights plan bypass events window last = heights →
      Heeds plan events₁ bypass (fetchHeights window tips heights) := by
    intro events₁ heights hprolongs hheights
    refine heeds_fetchHeights (hplanned.mono hprolongs.subset) hlast
      (htips.imp fun _ _ hread => hread.mono hprolongs.subset) ?_
    rw [hprolongs.fetches, hnone, wantedHeights_eq_of_reply hprolongs.reply, List.drop_zero, hheights]
  cases hhint : hintFor? plan events window last with
  | some hint =>
    have hhinted : Heeds plan events bypass (fetchHinted window tips hint) := by
      refine (gathers_stripBypass hint.heights).keeps_bind ?_
      rintro events₁ _ hprolongs₁ rfl
      refine keeps_ofExcept_bind fun considered _ => keeps_ofExcept_bind fun skipped _ => ?_
      refine (gathers_noteSkipped _ _).keeps_bind fun events₂ _ hprolongs₂ _ => ?_
      exact hfetch events₂ _ (hprolongs₁.trans hprolongs₂) (by rw [wantedHeights, hhint])
    exact heeds_bind hhinted fun _ _ _ _ => heeds_pure
  | none =>
    have hwhole : Heeds plan events bypass (fetchWindow window tips) := by
      unfold fetchWindow
      rw [hlast]
      refine (gathers_stripBypass _).keeps_bind ?_
      rintro events₁ _ hprolongs₁ rfl
      exact hfetch events₁ _ hprolongs₁ (by rw [wantedHeights, hhint])
    exact heeds_bind hwhole fun _ _ _ _ => keeps_ofExcept_bind fun _ _ => heeds_pure

/-! ## A whole iteration -/

/-- A planned window is fetched once all its tips have been read. -/
theorem heeds_dispatch (hplanned : Planned plan events window) (hfetches : fetchesIn events = 0)
    (hreply : events.findSome? hintReply? = none) :
    Heeds plan events bypass (dispatch plan window latest) := by
  refine gathers_windowTips.keeps_bind ?_
  rintro events₁ tips hprolongs₁ ⟨last, hlast, htips⟩
  refine (Gathers.ask .now trivial fun _ => ⟨rfl, rfl⟩).keeps_bind fun events₂ _ hprolongs₂ _ => ?_
  have hprolongs := hprolongs₁.trans hprolongs₂
  refine heeds_bind (keeps_consultHints hlast (hprolongs.reply.trans hreply)) ?_
  rintro events₃ _ _ ⟨hsub, hcount, rfl, rfl⟩
  refine heeds_bind (heeds_fetchPlanned (hplanned.mono (List.Subset.trans hprolongs.subset hsub)) hlast
    (htips.imp fun _ _ hread => (hread.mono hprolongs₂.subset).mono hsub)
    (hcount.trans (hprolongs.fetches.trans hfetches))) fun _ _ _ _ => ?_
  -- the batch is handed on
  exact heeds_of_confined <| (confined_enqueue trivial _ _).bind fun _ =>
    (Routine.confined_remember fun _ _ => trivial).bind fun _ => (confined_note _).bind fun _ =>
      (confined_note _).bind fun _ => (Routine.confined_ask trivial).bind fun _ =>
        (confined_note _).bind fun _ => Routine.confined_pure _

/-- An iteration keeps the contract. -/
theorem keeps_iterate (bypass : BypassRanges) :
    ((iterate plan).start bypass).Keeps (readiness plan) (fun _ _ _ => True) [] := by
  have hheeds : Heeds plan [] bypass (iterate plan) := by
    refine gathers_nextHeight.keeps_bind ?_
    rintro events₁ start hprolongs₁ ⟨buffered, hbuffered, hstart⟩
    refine (Gathers.ask .freeSlots trivial fun _ => ⟨rfl, rfl⟩).keeps_bind
      fun events₂ free hprolongs₂ hfree => ?_
    show Heeds plan events₂ bypass (if min (UInt64.ofNat free) plan.settings.maxBatchSize = 0 then _ else _)
    split
    · exact heeds_pure
    · refine (gathers_latestHeight _).keeps_bind fun events₃ latest hprolongs₃ hlatest => ?_
      refine keeps_ofExcept_bind fun clamped hclamped => ?_
      cases clamped with
      | none => exact heeds_pure
      | some window =>
        have hprolongs := (hprolongs₁.trans hprolongs₂).trans hprolongs₃
        exact heeds_dispatch ⟨buffered, start, free, latest,
          hprolongs₃.subset (hprolongs₂.subset hbuffered), hprolongs₃.subset hfree, hlatest, hstart,
          hclamped⟩ hprolongs.fetches hprolongs.reply
  exact Run.Keeps.mono hheeds fun _ _ _ _ => trivial

end

end BlockFeed.Fetcher
