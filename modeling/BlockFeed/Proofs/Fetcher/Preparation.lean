import Mathlib.Data.List.Forall2
import BlockFeed.Proofs.Fetcher.Ledger
import BlockFeed.Proofs.ModuloSelection

/-!
# Preparing a batch

Until a batch is handed on, an iteration only asks. `Prepares` is said of such work: it may begin
whenever the ledger rests, it leaves the bypass ranges and all blocks alone, it never fails by a refusal
of the queue, and a fact holds of its value. Each part of an iteration has one lemma of this kind, up to
`prepares_fetchPlanned`: the blocks that are fetched are a whole batch.
-/

namespace BlockFeed.Fetcher

open Surroundings (Event)

/-- The queue has refused a batch. -/
def IsRefusal : Abort FetchError → Prop
  | .failed (.dispatch _) => True
  | _ => False

/-- Work that only asks, and has a value of which a fact holds. -/
def Prepares {α : Type} (plan : Plan) (bypass : BypassRanges) (L : Ledger) (memory : BypassRanges)
    (task : Task α) (fact : Ledger → α → Prop) : Prop :=
  task.Keeps (contract plan bypass)
    (fun L' memory' value => L.Grows L' ∧ memory' = memory ∧ fact L' value)
    (fun L' memory' cause => L.Grows L' ∧ memory' = memory ∧ ¬ IsRefusal cause) L memory

section
variable {α β : Type} {plan : Plan} {bypass memory : BypassRanges} {L L' : Ledger}
  {fact : Ledger → α → Prop} {window : Window} {latest last : UInt64} {tips : List Tip}

/-! ## Ways of composing -/

theorem Prepares.bind {fact' : Ledger → β → Prop} {task : Task α} {f : α → Task β}
    (h : Prepares plan bypass L memory task fact)
    (hf : ∀ L' value, L.Grows L' → fact L' value → Prepares plan bypass L' memory (f value) fact') :
    Prepares plan bypass L memory (task >>= f) fact' := by
  refine Routine.keeps_bind.mpr (Routine.Keeps.mono h ?_ fun _ _ _ hfailed => hfailed)
  rintro L' memory' value ⟨hgrows, rfl, hfact⟩
  refine Routine.Keeps.mono (hf L' value hgrows hfact) ?_ ?_
  · rintro L'' memory'' value' ⟨hgrows', hmemory, hfact'⟩
    exact ⟨hgrows.trans hgrows', hmemory, hfact'⟩
  · rintro L'' memory'' cause ⟨hgrows', hmemory, hcause⟩
    exact ⟨hgrows.trans hgrows', hmemory, hcause⟩

theorem Prepares.mono {fact' : Ledger → α → Prop} {task : Task α}
    (h : Prepares plan bypass L memory task fact)
    (himp : ∀ L' value, L.Grows L' → fact L' value → fact' L' value) :
    Prepares plan bypass L memory task fact' := by
  refine Routine.Keeps.mono h ?_ fun _ _ _ hfailed => hfailed
  rintro L' memory' value ⟨hgrows, hmemory, hfact⟩
  exact ⟨hgrows, hmemory, himp L' value hgrows hfact⟩

theorem Prepares.pure {value : α} (h : fact L value) :
    Prepares plan bypass L memory (Pure.pure value) fact :=
  Routine.keeps_pure.mpr ⟨.refl L, rfl, h⟩

theorem Prepares.fail {cause : Abort FetchError} (h : ¬ IsRefusal cause) :
    Prepares plan bypass L memory (Routine.fail cause) fact :=
  Routine.keeps_fail.mpr ⟨.refl L, rfl, h⟩

/-- A question that is allowed and changes nothing. -/
theorem Prepares.ask (query : Surroundings.Query)
    (hallows : (contract plan bypass).allows L memory query)
    (hafter : ∀ answer, L.after query answer = { L with events := ⟨query, answer⟩ :: L.events }) :
    Prepares plan bypass L memory (Routine.ask (I := Surroundings) query)
      fun L' answer => L.Permits query answer ∧ ⟨query, answer⟩ ∈ L'.events := by
  refine Routine.keeps_ask.mpr ⟨hallows, ?_⟩
  rintro answer L' ⟨hpermits, hL'⟩
  obtain rfl := hL'.trans (hafter answer)
  exact ⟨⟨rfl, rfl, rfl, List.subset_cons_self _ _⟩, rfl, hpermits, List.mem_cons_self⟩

theorem prepares_current :
    Prepares plan bypass L memory Routine.current fun _ value => value = memory :=
  Routine.keeps_current.mpr ⟨.refl L, rfl, rfl⟩

theorem prepares_checked {value : Except Overflow α} (h : ∀ v, value = .ok v → fact L v) :
    Prepares plan bypass L memory (Work.checked value) fact := by
  cases value with
  | ok v => exact .pure (h v rfl)
  | error _ => exact .fail id

/-- What follows a computation on words need only be looked at for its result. -/
theorem prepares_checked_bind {value : Except Overflow β} {f : β → Task α}
    (h : ∀ v, value = .ok v → Prepares plan bypass L memory (f v) fact) :
    Prepares plan bypass L memory (Work.checked value >>= f) fact := by
  cases value with
  | ok v => exact h v rfl
  | error _ => exact .fail id

theorem prepares_ofAnswer_bind {ε : Type} {rename : ε → FetchError} {answer : Except ε β}
    {f : β → Task α} (hrename : ∀ cause, ¬ IsRefusal (.failed (rename cause)))
    (h : ∀ v, answer = .ok v → Prepares plan bypass L memory (f v) fact) :
    Prepares plan bypass L memory (Work.ofAnswer rename answer >>= f) fact := by
  cases answer with
  | ok v => exact h v rfl
  | error cause => exact .fail (hrename cause)

theorem prepares_note (hrests : L.Rests plan bypass memory) (m : Measurement) :
    Prepares plan bypass L memory (Work.note m) fun _ _ => True :=
  (Prepares.ask (.note m) hrests fun _ => rfl).mono fun _ _ _ _ => trivial

theorem prepares_noteSkipped (hrests : L.Rests plan bypass memory) (reason : String)
    (count : UInt64) : Prepares plan bypass L memory (noteSkipped reason count) fun _ _ => True := by
  unfold noteSkipped
  split
  · exact .pure trivial
  · exact prepares_note hrests _

theorem prepares_stripBypass (hrests : L.Rests plan bypass memory) (heights : List UInt64) :
    Prepares plan bypass L memory (stripBypass heights)
      fun _ kept => kept = memory.strip heights := by
  refine prepares_current.bind ?_
  rintro L' _ hgrows rfl
  exact (prepares_noteSkipped (hrests.grows hgrows) _ _).bind fun _ _ _ _ => .pure rfl

/-! ## Tips -/

/-- A tip has been read under its own height. -/
def Cached (L : Ledger) (tip : Tip) : Prop := Read L.events tip.number tip

theorem Cached.grows {tip : Tip} (h : Cached L tip) (hgrows : L.Grows L') : Cached L' tip :=
  h.mono hgrows.events

theorem prepares_tipAt (hrests : L.Rests plan bypass memory) (height : UInt64) :
    Prepares plan bypass L memory (Work.tipAt .cache height)
      fun L' found => ∀ tip, found = some tip → tip.number = height ∧ Cached L' tip := by
  refine (Prepares.ask (.readCache (heightKey height)) hrests fun _ => rfl).bind ?_
  rintro L₁ answer - ⟨hnumber, hmem⟩
  refine prepares_ofAnswer_bind (fun _ => id) ?_
  rintro text rfl
  cases text with
  | none => exact .pure fun tip hnone => nomatch hnone
  | some text =>
    cases hdecode : Tip.ofCacheText? text with
    | none =>
      rw [decodeCached, hdecode]
      exact .fail id
    | some tip =>
      rw [decodeCached, hdecode]
      refine .pure fun tip' htip' => ?_
      cases htip'
      have heq : tip.number = height := hnumber height text tip rfl rfl hdecode
      refine ⟨heq, text, ?_, hdecode⟩
      rw [heq]
      exact hmem

theorem prepares_requireTip (hrests : L.Rests plan bypass memory) (height : UInt64) :
    Prepares plan bypass L memory (requireTip height)
      fun L' tip => tip.number = height ∧ Cached L' tip := by
  refine (prepares_tipAt hrests height).bind fun L' found _ hfound => ?_
  cases found with
  | some tip => exact .pure (hfound tip rfl)
  | none => exact .fail id

/-- The tips of heights, in the order of the heights. -/
theorem prepares_requireTips (hrests : L.Rests plan bypass memory) (heights : List UInt64) :
    Prepares plan bypass L memory (requireTips heights)
      fun L' tips => tips.map Tip.number = heights ∧ ∀ tip ∈ tips, Cached L' tip := by
  induction heights generalizing L with
  | nil => exact .pure ⟨rfl, fun tip htip => nomatch htip⟩
  | cons height rest ih =>
    refine (prepares_requireTip hrests height).bind ?_
    rintro L₁ tip hgrows₁ ⟨rfl, htip⟩
    refine (ih (hrests.grows hgrows₁)).bind ?_
    rintro L₂ tips hgrows₂ ⟨rfl, htips⟩
    refine .pure ⟨rfl, fun other hother => ?_⟩
    rcases List.mem_cons.mp hother with rfl | hother
    · exact htip.grows hgrows₂
    · exact htips other hother

/-- The heights of a window but for its last one, and that one. -/
theorem innerHeights_append_last (hlast : window.last = .ok last) :
    innerHeights window ++ [last] = Window.heightsBetween window.start last := by
  have hplace := Window.toNat_last hlast
  have hcount : last.toNat + 1 - window.start.toNat = window.size.toNat - 1 + 1 := by omega
  have hend : window.start + UInt64.ofNat (window.size.toNat - 1) = last := by
    have := last.toNat_lt_size
    rw [← UInt64.toNat_inj, Word.toNat_add_ofNat (by omega), hplace]
  rw [Window.heightsBetween, hcount, List.range_succ, List.map_append, List.map_singleton, hend]
  rfl

/-- The tips of a window are those of its heights. -/
theorem prepares_windowTips (hrests : L.Rests plan bypass memory) :
    Prepares plan bypass L memory (windowTips window) fun L' tips =>
      ∃ last, window.last = .ok last ∧
        tips.map Tip.number = Window.heightsBetween window.start last ∧ ∀ tip ∈ tips, Cached L' tip := by
  refine prepares_checked_bind fun last hlast => ?_
  refine (prepares_requireTip hrests last).bind ?_
  rintro L₁ lastTip hgrows₁ ⟨hnumber, hlastTip⟩
  refine (prepares_requireTips (hrests.grows hgrows₁) (innerHeights window)).bind ?_
  rintro L₂ tips hgrows₂ ⟨hnumbers, htips⟩
  refine .pure ⟨last, hlast, ?_, fun tip htip => ?_⟩
  · rw [List.map_append, hnumbers, List.map_singleton, hnumber, innerHeights_append_last hlast]
  · rcases List.mem_append.mp htip with htip | htip
    · exact htips tip htip
    · rw [List.mem_singleton.mp htip]
      exact hlastTip.grows hgrows₂

/-- What relates the heights of a window to tips relates a height to the tip that is found for it. -/
theorem tipFor?_of_forall₂ {R : UInt64 → Tip → Prop} {height : UInt64} {tip : Tip}
    (htips : List.Forall₂ R (Window.heightsBetween window.start last) tips)
    (h : tipFor? window tips height = some tip) :
    tip ∈ tips ∧ height ∈ Window.heightsBetween window.start last ∧ R height tip := by
  unfold tipFor? at h
  split at h
  · cases h
  · rename_i hlow
    obtain ⟨hplace, hfound⟩ := List.getElem?_eq_some_iff.mp h
    have hbound : (height - window.start).toNat
        < (Window.heightsBetween window.start last).length := by
      rw [htips.length_eq]
      exact hplace
    have hat : (Window.heightsBetween window.start last)[(height - window.start).toNat] = height := by
      rw [Window.getElem_heightsBetween, UInt64.ofNat_toNat, UInt64.add_comm, UInt64.sub_add_cancel]
    have hrelated := htips.get hbound hplace
    rw [List.get_eq_getElem, List.get_eq_getElem, hat, hfound] at hrelated
    refine ⟨List.mem_of_getElem? h, ?_, hrelated⟩
    rw [← hat]
    exact List.getElem_mem hbound

/-- A tip that is found for a height among those of a window is the tip of that height. -/
theorem tipFor?_eq_some {height : UInt64} {tip : Tip}
    (htips : tips.map Tip.number = Window.heightsBetween window.start last)
    (h : tipFor? window tips height = some tip) : tip ∈ tips ∧ tip.number = height := by
  have hrelated : List.Forall₂ (fun height tip => Tip.number tip = height)
      (Window.heightsBetween window.start last) tips := by
    rw [← htips, List.forall₂_map_left_iff]
    exact List.forall₂_same.mpr fun _ _ => rfl
  obtain ⟨hmem, -, hnumber⟩ := tipFor?_of_forall₂ hrelated h
  exact ⟨hmem, hnumber⟩

/-! ## Hints -/

/-- What is wanted of a window, up to a bound: the heights that are left, every other one being passed
over. -/
structure Selects (plan : Plan) (L : Ledger) (start : UInt64) (hint : Hint) : Prop where
  bound : start ≤ hint.bound
  ascending : hint.heights.Pairwise (· < ·)
  within : ∀ height ∈ hint.heights, start ≤ height ∧ height ≤ hint.bound
  complete : ∀ height, start ≤ height → height ≤ hint.bound →
    height ∈ hint.heights ∨ PassedOver plan L.events height

/-- A whole window. -/
theorem selects_heightsBetween {start last : UInt64} (hle : start ≤ last) :
    Selects plan L start ⟨Window.heightsBetween start last, last⟩ where
  bound := hle
  ascending := Window.pairwise_heightsBetween start last
  within _ hmem := Window.mem_heightsBetween.mp hmem
  complete _ hstart hlast := .inl (Window.mem_heightsBetween.mpr ⟨hstart, hlast⟩)

theorem Selects.grows {start : UInt64} {hint : Hint} (h : Selects plan L start hint)
    (hgrows : L.Grows L') : Selects plan L' start hint :=
  { h with complete := fun height hstart hbound =>
      (h.complete height hstart hbound).imp_right (PassedOver.mono hgrows.events) }

theorem le_last (hlast : window.last = .ok last) : window.start ≤ last := by
  have := Window.toNat_last hlast
  rw [UInt64.le_iff_toNat_le]
  omega

/-- A hint leaves every height that its reply does not let pass. -/
theorem selects_hintOf {selection : ModuloSelection} {reply : HintReply} {hint : Hint}
    (hhinting : plan.hinting = some selection) (hlast : window.last = .ok last)
    (hread : latestRead plan.settings.useFinalized latest ∈ L.events)
    (hreplied : ⟨.hints window.start last, some reply⟩ ∈ L.events)
    (hburied : last.toNat + (last.toNat + 1 - window.start.toNat) ≤ latest.toNat)
    (h : hintOf selection window last reply = some hint) : Selects plan L window.start hint := by
  unfold hintOf at h
  split at h
  · cases h
  · rename_i hconfirmed
    cases h
    have hle := UInt64.le_iff_toNat_le.mp (UInt64.not_lt.mp hconfirmed)
    have hstart := UInt64.le_iff_toNat_le.mp (le_last hlast)
    have hmin : (min last reply.lastConfirmed).toNat = min last.toNat reply.lastConfirmed.toNat :=
      Word.toNat_min _ _
    refine ⟨?_, ModuloSelection.pairwise_sortDedup _, fun height hmem => ?_,
      fun height hlow hbound => ?_⟩
    · rw [UInt64.le_iff_toNat_le, hmin]
      omega
    · rw [ModuloSelection.mem_sortDedup, List.mem_filter, Bool.and_eq_true, decide_eq_true_eq,
        decide_eq_true_eq] at hmem
      exact hmem.2
    · by_cases hmem : height ∈ reply.matched ++
          selection.heights window.start (min last reply.lastConfirmed)
      · left
        rw [ModuloSelection.mem_sortDedup, List.mem_filter]
        exact ⟨hmem, by simp [hlow, hbound]⟩
      -- what neither the service nor the selection has is passed over
      · right
        obtain ⟨hunmatched, hunselected⟩ := not_or.mp (mt List.mem_append.mpr hmem)
        rw [UInt64.le_iff_toNat_le, hmin] at hbound
        refine ⟨selection, window.start, last, latest, reply, hhinting, hread, hreplied, ⟨hlow, ?_⟩,
          ?_, hunmatched, fun source hsource modulus hmodulus hactive hdvd => hunselected ?_, hburied⟩
        · rw [UInt64.le_iff_toNat_le]
          omega
        · rw [UInt64.le_iff_toNat_le]
          omega
        · refine ModuloSelection.mem_heights_of_dvd hsource hmodulus hactive hdvd hlow ?_
          rw [UInt64.le_iff_toNat_le, hmin]
          exact hbound

theorem prepares_consultHints (hrests : L.Rests plan bypass memory)
    (hread : latestRead plan.settings.useFinalized latest ∈ L.events)
    (hsize : 0 < window.size.toNat) :
    Prepares plan bypass L memory (consultHints plan window latest)
      fun L' found => ∀ hint, found = some hint → Selects plan L' window.start hint := by
  unfold consultHints
  cases hhinting : plan.hinting with
  | none => exact .pure fun hint hnone => nomatch hnone
  | some selection =>
    refine prepares_checked_bind fun last hlast => ?_
    refine prepares_checked_bind fun distance hdistance => ?_
    split
    · exact .pure fun hint hnone => nomatch hnone
    -- only of a window that ends a window below the latest height are hints asked for
    · rename_i hfar
      refine (Prepares.ask (.hints window.start last) hrests fun _ => rfl).bind ?_
      rintro L₁ reply hgrows ⟨-, hreplied⟩
      cases reply with
      | none =>
        exact (prepares_note (hrests.grows hgrows) _).bind fun _ _ _ _ =>
          .pure fun hint hnone => nomatch hnone
      | some reply =>
        have hburied : last.toNat + (last.toNat + 1 - window.start.toNat) ≤ latest.toNat := by
          have hplace := Window.toNat_last hlast
          have hsum := Word.sub_eq_ok_iff.mp hdistance
          rw [UInt64.lt_iff_toNat_lt] at hfar
          omega
        exact .pure fun hint hhint =>
          selects_hintOf hhinting hlast (hgrows.events hread) hreplied hburied hhint

/-! ## Blocks -/

/-- Blocks that settle every height from the next one up to another. -/
structure Batch (plan : Plan) (bypass : BypassRanges) (L : Ledger) (blocks : List Block)
    (height : UInt64) : Prop where
  advances : L.next plan ≤ height.toNat
  ascending : (blocks.map Block.height).Pairwise (· < ·)
  within : ∀ block ∈ blocks, L.next plan ≤ block.height.toNat ∧ block.height ≤ height
  wanted : ∀ block ∈ blocks,
    plan.settings.initialHeight ≤ block.height ∧ bypass.contains block.height = false
  supplied : ∀ block ∈ blocks, Supplied L.events block
  complete : ∀ h : UInt64, L.next plan ≤ h.toNat → h ≤ height →
    bypass.contains h = true ∨ h ∈ blocks.map Block.height ∨ PassedOver plan L.events h

theorem prepares_fetchHeights (hrests : L.Rests plan bypass memory)
    (htips : tips.map Tip.number = Window.heightsBetween window.start last)
    (hcached : ∀ tip ∈ tips, Cached L tip) {heights : List UInt64}
    (hwanted : ∀ height ∈ heights,
      plan.settings.initialHeight ≤ height ∧ bypass.contains height = false) :
    Prepares plan bypass L memory (fetchHeights window tips heights)
      fun L' blocks => blocks.map Block.height = heights ∧
        ∀ block ∈ blocks, Supplied L'.events block := by
  -- the induction is on the heights, over all ledgers, as every body that is fetched adds to them
  induction heights generalizing L with
  | nil => exact .pure ⟨rfl, fun block hblock => nomatch hblock⟩
  | cons height rest ih =>
    unfold fetchHeights
    cases htip : tipFor? window tips height with
    | none => exact .fail id
    | some tip =>
      obtain ⟨hmem, rfl⟩ := tipFor?_eq_some htips htip
      have hpoint : L.Wanted plan bypass tip.point :=
        ⟨tip.number, tip, hcached tip hmem, rfl, rfl, hwanted _ List.mem_cons_self⟩
      refine (Prepares.ask (.fetchBlock tip.point) ⟨hrests, hpoint⟩ fun _ => rfl).bind ?_
      rintro L₁ answer hgrows₁ ⟨-, hfetched⟩
      refine prepares_ofAnswer_bind (fun _ => id) ?_
      rintro body rfl
      refine (ih (hrests.grows hgrows₁) (fun other hother => (hcached other hother).grows hgrows₁)
        fun other hother => hwanted other (List.mem_cons_of_mem _ hother)).bind ?_
      rintro L₂ blocks hgrows₂ ⟨rfl, hsupplied⟩
      refine .pure ⟨rfl, fun block hblock => ?_⟩
      rcases List.mem_cons.mp hblock with rfl | hblock
      · exact ⟨((hcached tip hmem).grows hgrows₁).grows hgrows₂, hgrows₂.events hfetched⟩
      · exact hsupplied block hblock

/-- The heights that are wanted of a window and lie in no bypass range. -/
theorem wanted_of_mem_strip (hrests : L.Rests plan bypass memory) {start : UInt64}
    (hstart : start.toNat = L.next plan) {hint : Hint} (hselects : Selects plan L start hint)
    {height : UInt64} (hmem : height ∈ memory.strip hint.heights) :
    plan.settings.initialHeight ≤ height ∧ bypass.contains height = false := by
  obtain ⟨hmem, hfree⟩ := BypassRanges.mem_strip.mp hmem
  have hlow := UInt64.le_iff_toNat_le.mp (hselects.within height hmem).1
  have hstarted := hrests.started
  constructor
  · rw [UInt64.le_iff_toNat_le]
    omega
  · rwa [hrests.remembered height (by omega)] at hfree

/-- The blocks of the heights that are left are a batch up to the bound. -/
theorem batch_of_selects (hrests : L.Rests plan bypass memory) {start : UInt64}
    (hstart : start.toNat = L.next plan) {hint : Hint} (hselects : Selects plan L start hint)
    {blocks : List Block} (hblocks : blocks.map Block.height = memory.strip hint.heights)
    (hsupplied : ∀ block ∈ blocks, Supplied L.events block) :
    Batch plan bypass L blocks hint.bound := by
  have hstrip : ∀ block ∈ blocks, block.height ∈ memory.strip hint.heights := by
    intro block hblock
    rw [← hblocks]
    exact List.mem_map_of_mem hblock
  refine ⟨?_, ?_, fun block hblock => ?_, fun block hblock => ?_, hsupplied, fun height hlow hbound => ?_⟩
  · have := UInt64.le_iff_toNat_le.mp hselects.bound
    omega
  · rw [hblocks]
    exact hselects.ascending.filter _
  · obtain ⟨hmem, -⟩ := BypassRanges.mem_strip.mp (hstrip block hblock)
    obtain ⟨hlow, hbound⟩ := hselects.within _ hmem
    rw [← hstart]
    exact ⟨UInt64.le_iff_toNat_le.mp hlow, hbound⟩
  · exact wanted_of_mem_strip hrests hstart hselects (hstrip block hblock)
  · have hle : start ≤ height := by
      rw [UInt64.le_iff_toNat_le]
      omega
    rcases hselects.complete height hle hbound with hmem | hpassed
    -- stripping by what is left of the ranges is stripping by the ranges, from the next height on
    · cases hbypassed : bypass.contains height with
      | true => exact .inl rfl
      | false =>
        right; left
        rw [hblocks]
        refine BypassRanges.mem_strip.mpr ⟨hmem, ?_⟩
        rw [hrests.remembered height hlow, hbypassed]
    · exact .inr (.inr hpassed)

theorem prepares_fetchHinted (hrests : L.Rests plan bypass memory)
    (hstart : window.start.toNat = L.next plan)
    (htips : tips.map Tip.number = Window.heightsBetween window.start last)
    (hcached : ∀ tip ∈ tips, Cached L tip) {hint : Hint}
    (hselects : Selects plan L window.start hint) :
    Prepares plan bypass L memory (fetchHinted window tips hint)
      fun L' blocks => Batch plan bypass L' blocks hint.bound := by
  refine (prepares_stripBypass hrests _).bind ?_
  rintro L₁ _ hgrows₁ rfl
  refine prepares_checked_bind fun considered _ => ?_
  refine prepares_checked_bind fun skipped _ => ?_
  refine (prepares_noteSkipped (hrests.grows hgrows₁) _ _).bind fun L₂ _ hgrows₂ _ => ?_
  have hgrows := hgrows₁.trans hgrows₂
  refine (prepares_fetchHeights (hrests.grows hgrows) htips
    (fun tip htip => (hcached tip htip).grows hgrows)
    fun height => wanted_of_mem_strip hrests hstart hselects).mono ?_
  rintro L₃ blocks hgrows₃ ⟨hblocks, hsupplied⟩
  have hgrows := hgrows.trans hgrows₃
  exact batch_of_selects (hrests.grows hgrows) (hstart.trans hgrows.next.symm) (hselects.grows hgrows)
    hblocks hsupplied

theorem prepares_fetchWindow (hrests : L.Rests plan bypass memory)
    (hstart : window.start.toNat = L.next plan) (hlast : window.last = .ok last)
    (htips : tips.map Tip.number = Window.heightsBetween window.start last)
    (hcached : ∀ tip ∈ tips, Cached L tip) :
    Prepares plan bypass L memory (fetchWindow window tips)
      fun L' blocks => Batch plan bypass L' blocks last := by
  unfold fetchWindow
  rw [hlast]
  have hselects : ∀ L, Selects plan L window.start ⟨Window.heightsBetween window.start last, last⟩ :=
    fun L => selects_heightsBetween (le_last hlast)
  refine (prepares_stripBypass hrests _).bind ?_
  rintro L₁ _ hgrows₁ rfl
  refine (prepares_fetchHeights (hrests.grows hgrows₁) htips
    (fun tip htip => (hcached tip htip).grows hgrows₁)
    fun height => wanted_of_mem_strip hrests hstart (hselects L)).mono ?_
  rintro L₂ blocks hgrows₂ ⟨hblocks, hsupplied⟩
  have hgrows := hgrows₁.trans hgrows₂
  exact batch_of_selects (hrests.grows hgrows) (hstart.trans hgrows.next.symm) (hselects L₂) hblocks
    hsupplied

/-- The blocks that are fetched of a window are a batch. -/
theorem prepares_fetchPlanned (hrests : L.Rests plan bypass memory)
    (hstart : window.start.toNat = L.next plan) (hlast : window.last = .ok last)
    (htips : tips.map Tip.number = Window.heightsBetween window.start last)
    (hcached : ∀ tip ∈ tips, Cached L tip) {found : Option Hint}
    (hselects : ∀ hint, found = some hint → Selects plan L window.start hint) :
    Prepares plan bypass L memory (fetchPlanned window tips found)
      fun L' planned => Batch plan bypass L' planned.1 planned.2 := by
  cases found with
  | some hint =>
    refine (prepares_fetchHinted hrests hstart htips hcached (hselects hint rfl)).bind ?_
    exact fun L' blocks _ hbatch => .pure hbatch
  | none =>
    refine (prepares_fetchWindow hrests hstart hlast htips hcached).bind fun L' blocks _ hbatch => ?_
    rw [hlast]
    exact .pure hbatch

end

end BlockFeed.Fetcher
