import BlockFeed.Proofs.Answers
import BlockFeed.Proofs.Walker
import BlockFeed.Proofs.Walker.Confined
import BlockFeed.Proofs.Walker.Course

/-!
# Bounds of a walk

A walk begins by reading the best height. As many blocks below that as the confirmation depth says are left
alone: the walk asks for no more points than there are up to that height, and for none if the cursor is
there already. If the node numbers them on from the cursor, no tip is written above it.

`bounded` is the contract that says so. It is kept whatever the cache answers, whose entries may expire and
be replaced by others at any time. In every state of a course all that is in the cache has been written by
the walker, and all that the call under way has asked is within bounds (`Course.Bounded.of_reachable`).
-/

namespace BlockFeed

namespace Walker

open Surroundings (Event Query)

/-- The node numbers on. -/
abbrev Rules.numbering : Rules := { tells := NumbersOn }

/-- The first question of a call has been for the best height; events are listed latest first. -/
def BestRead (events : List Event) (best : UInt64) : Prop := [⟨.bestHeight, best⟩] <:+ events

/-- A question that a walker may ask in a call that began with a memory. -/
def Bounds (settings : WalkerSettings) (call : Call) (began : Walker) (events : List Event) :
    Query → Prop
  | .pointsAfter start limit => call = .advance ∧ start = began.cursor.point ∧
      ∃ best, BestRead events best ∧ 0 < limit ∧ limit ≤ settings.maxBatchSize ∧
        began.cursor.number.toNat + limit.toNat
          ≤ (Word.satSub best settings.confirmationDepth).toNat
  | .writeCache key text _ => key = cursorKey ∨
      ∃ tip : Tip, key = heightKey tip.number ∧ text = tip.toCacheText ∧ call = .advance ∧
        ∃ best, BestRead events best ∧ tip.number ≤ Word.satSub best settings.confirmationDepth
  | .findIntersect _ => call.recovers = true
  | .tipHeader | .fetchBlock _ | .hints _ _ | .publishBest _ | .publishFinalized _ | .send _
  | .commit _ => False
  | _ => True

/-- What is asked of a walker in a call that began with a memory. Points are asked for before the cursor
moves. -/
def bounded (settings : WalkerSettings) (call : Call) (began : Walker) :
    Contract Surroundings Walker (List Event) where
  allows events memory query := Bounds settings call began events query ∧
    ∀ start limit, query = .pointsAfter start limit → memory.cursor = began.cursor
  answers events query answer events' :=
    NumbersOn began query answer ∧ events' = ⟨query, answer⟩ :: events

section
variable {α : Type} {settings : WalkerSettings} {call : Call} {began memory : Walker}
  {events events' : List Event} {query : Query}

theorem Bounds.mono (h : Bounds settings call began events query) (hsuffix : events <:+ events') :
    Bounds settings call began events' query := by
  cases query with
  | pointsAfter start limit =>
    obtain ⟨hcall, hstart, best, hread, hlimit⟩ := h
    exact ⟨hcall, hstart, best, hread.trans hsuffix, hlimit⟩
  | writeCache key text lifetime =>
    rcases h with hcursor | ⟨tip, hkey, htext, hcall, best, hread, hle⟩
    · exact .inl hcursor
    · exact .inr ⟨tip, hkey, htext, hcall, best, hread.trans hsuffix, hle⟩
  | _ => exact h

theorem numbersOn_congr {answer : query.Answer} (hcursor : memory.cursor = began.cursor)
    (h : NumbersOn memory query answer) : NumbersOn began query answer := by
  cases query with
  | pointsAfter start limit =>
    intro next hnext
    rw [← hcursor]
    exact h next hnext
  | _ => exact h

/-- A tip that is named lies no further above the cursor than points have been asked for. -/
theorem toNat_le_of_numbersOn {start : Point} {limit : UInt64} {next : NextPoints} {tip : Tip}
    (h : NumbersOn began (.pointsAfter start limit) (Except.ok next)) (hmem : tip ∈ next.tips) :
    tip.number.toNat ≤ began.cursor.number.toNat + limit.toNat := by
  obtain ⟨hnumbers, hlength⟩ := h next rfl
  have hnumber : tip.number.toNat ∈ List.range' (began.cursor.number.toNat + 1) next.tips.length := by
    rw [← hnumbers]
    exact List.mem_map_of_mem hmem
  rw [List.mem_range'_1] at hnumber
  omega

/-- The points that a walk asks for, if any, are those of a batch and lie as deep as blocks are
confirmed. -/
theorem batchSize_within {best : UInt64} {cursor : Tip} (h : batchSize settings best cursor ≠ 0) :
    0 < batchSize settings best cursor ∧ batchSize settings best cursor ≤ settings.maxBatchSize ∧
      cursor.number.toNat + (batchSize settings best cursor).toNat
        ≤ (Word.satSub best settings.confirmationDepth).toNat := by
  have hdeep := deep_of_batchSize h rfl (Nat.le_refl _)
  refine ⟨UInt64.pos_iff_ne_zero.mpr h, ?_, ?_⟩
  · unfold batchSize
    rw [UInt64.le_iff_toNat_le, Word.toNat_min]
    exact Nat.min_le_right _ _
  · rw [Word.toNat_satSub]
    omega

/-! ## What a walker asks -/

/-- Questions within bounds, but for those for points. -/
def Asks (settings : WalkerSettings) (call : Call) (began : Walker) (events : List Event)
    (query : Query) : Prop :=
  Bounds settings call began events query ∧ ∀ start limit, query ≠ .pointsAfter start limit

theorem spares_asks : Spares (fun _ => True) (Asks settings call began events) where
  moves _ _ _ := trivial
  reads _ := ⟨trivial, nofun⟩
  stores _ _ := ⟨.inl rfl, nofun⟩
  notes _ := ⟨trivial, nofun⟩

/-- A task that asks only such questions keeps within bounds. -/
theorem keeps_of_confined {task : Task α}
    (h : task.Confined (fun _ => True) (Asks settings call began events)) :
    task.Keeps (bounded settings call began) (fun _ _ _ => True) (fun _ _ _ => True) events
      memory := by
  have hkeeps : task.Keeps (bounded settings call began) (fun events' _ _ => events <:+ events' ∧ True)
      (fun events' _ _ => events <:+ events' ∧ True) events memory := by
    refine h.keeps ?_ ?_ (List.suffix_refl events) trivial
    · exact fun events' _ query hsuffix _ hasks =>
        ⟨hasks.1.mono hsuffix, fun start limit hquery => absurd hquery (hasks.2 start limit)⟩
    · rintro events' query answer _ hsuffix - ⟨-, rfl⟩
      exact hsuffix.trans (List.suffix_cons _ _)
  exact hkeeps.mono (fun _ _ _ _ => trivial) fun _ _ _ _ => trivial

/-- A walk keeps within bounds. -/
theorem keeps_walk (hcursor : memory.cursor = began.cursor) :
    (walk settings).Keeps (bounded settings .advance began) (fun _ _ _ => True) (fun _ _ _ => True)
      [] memory := by
  refine Routine.keeps_bind.mpr (Routine.keeps_ask.mpr ⟨⟨trivial, nofun⟩, ?_⟩)
  rintro best _ ⟨-, rfl⟩
  have hread : BestRead [⟨.bestHeight, best⟩] best := List.suffix_refl _
  refine Routine.keeps_bind.mpr (Routine.keeps_bind.mpr (Routine.keeps_current.mpr
    (Routine.keeps_pure.mpr ?_)))
  rw [hcursor]
  by_cases hsize : batchSize settings best began.cursor = 0
  · rw [if_pos hsize]
    trivial
  rw [if_neg hsize]
  obtain ⟨hpos, hbatch, hroom⟩ := batchSize_within hsize
  refine Routine.keeps_bind.mpr (Routine.keeps_ask.mpr
    ⟨⟨⟨rfl, rfl, best, hread, hpos, hbatch, hroom⟩, fun _ _ _ => hcursor⟩, ?_⟩)
  rintro answer _ ⟨hnumbers, rfl⟩
  cases answer with
  | error error => exact trivial
  | ok next =>
    refine keeps_of_confined (spares_asks.walkOn began.cursor fun tip hmem _ => ⟨.inr ?_, nofun⟩)
    have hle := toNat_le_of_numbersOn hnumbers hmem
    exact ⟨tip, rfl, rfl, rfl, best, hread.trans (List.suffix_cons _ _),
      UInt64.le_iff_toNat_le.mpr (hle.trans hroom)⟩

/-- The work of a stage keeps within bounds. -/
theorem keeps_advance :
    (advance settings).Keeps (bounded settings .advance memory) (fun _ _ _ => True)
      (fun _ _ _ => True) [] memory := by
  -- what comes after the work of a stage asks nothing
  have hthen : ∀ {α : Type} {task : Task α} (stage : α → Stage) (step : α → Step),
      task.Keeps (bounded settings .advance memory) (fun _ _ _ => True) (fun _ _ _ => True) [] memory →
      (do let value ← task; enter (stage value); return step value : Task Step).Keeps
        (bounded settings .advance memory) (fun _ _ _ => True) (fun _ _ _ => True) [] memory := by
    intro α task stage step h
    refine Routine.keeps_bind.mpr (h.mono (fun _ _ _ _ => ?_) fun _ _ _ _ => trivial)
    exact Routine.keeps_bind.mpr (Routine.keeps_remember.mpr trivial)
  have hspares : Spares (fun _ => True) (Asks settings .advance memory []) := spares_asks
  refine Routine.keeps_bind.mpr (Routine.keeps_current.mpr ?_)
  cases memory.stage with
  | bootstrap => exact hthen _ _ (keeps_of_confined hspares.bootstrap)
  | fastForward => exact hthen _ _ (keeps_of_confined (hspares.fastForward fun _ _ => trivial))
  | walking | idle => exact hthen _ _ (keeps_walk rfl)
  | recovering => exact Routine.keeps_bind.mpr (Routine.keeps_remember.mpr trivial)

/-- A call keeps within bounds. -/
theorem keeps_call :
    (call.work settings memory).Keeps (bounded settings call memory) (fun _ _ _ => True) [] := by
  cases call with
  | advance => exact Run.keeps_bind.mpr (Run.Keeps.mono keeps_advance fun _ _ _ _ => trivial)
  | recover error =>
    have hspares : Spares (fun _ => True) (Asks settings (.recover error) memory []) := spares_asks
    refine Run.keeps_bind.mpr (Run.Keeps.mono (keeps_of_confined ?_) fun _ _ _ _ => trivial)
    exact hspares.recover (fun _ => ⟨rfl, nofun⟩) (fun _ _ => trivial) (fun _ _ => trivial) error

end

/-! ## A course -/

/-- All that is in the cache has been written. -/
def Shelf.Holds (s : Shelf) : Prop :=
  ∀ entry ∈ s.shared.cache.entries, (entry.1, entry.2.text) ∈ s.written

/-- What a walker writes: its cursor, or a tip under its height. -/
def IsRecord (entry : String × String) : Prop :=
  entry.1 = cursorKey ∨ ∃ tip : Tip, entry = (heightKey tip.number, tip.toCacheText)

/-- All that is in the cache has been written by the walker, and the call under way keeps within bounds. -/
structure Course.Bounded (settings : WalkerSettings) (s : Course) : Prop where
  holds : s.toShelf.Holds
  records : ∀ entry ∈ s.written, IsRecord entry
  phase : match s.phase with
    | .resting _ => True
    | .working call began run =>
      run.Keeps (bounded settings call began) (fun _ _ _ => True) s.events ∧
        ∀ event ∈ s.events, Bounds settings call began s.events event.query

/-- A call under way has asked a question, whether it has been answered yet or not. -/
def Course.HasAsked (s : Course) (call : Call) (began : Walker) (query : Query) : Prop :=
  ∃ run, s.phase = .working call began run ∧
    ((∃ answer, ⟨query, answer⟩ ∈ s.events) ∨ ∃ memory resume, run = .wait memory query resume)

section
variable {rules : Rules} {settings : WalkerSettings} {call : Call} {began memory : Walker}
  {events : List Event} {query : Query} {answer : query.Answer} {shelf shelf' : Shelf} {s s' : Course}

theorem Shelf.Leaves.holds (h : shelf.Leaves rules query shelf') (hholds : shelf.Holds) :
    shelf'.Holds := by
  cases h with
  | untouched => exact hholds
  | @served answer _ hserves =>
    have hsub := (Shelf.Leaves.served hserves).written_subset
    obtain ⟨now, -, h⟩ := hserves
    intro entry hmem
    cases query with
    | writeCache key text lifetime =>
      obtain ⟨rfl, rfl⟩ | ⟨rfl, rfl⟩ := FeedState.of_reply_writeCache h
      · rcases PointCache.mem_insert hmem with ⟨hkey, htext⟩ | hmem
        · rw [hkey, htext]
          exact List.mem_cons_self
        · exact List.mem_cons_of_mem _ (hholds entry hmem)
      · exact hholds entry hmem
    | _ =>
      rcases FeedState.mem_cache_of_reply h hmem with hmem | ⟨_, hquery⟩
      · exact hsub (hholds entry hmem)
      · cases hquery

/-- What is within bounds writes records only. -/
theorem Shelf.Leaves.records (h : shelf.Leaves rules query shelf')
    (hbounds : Bounds settings call began events query)
    (hrecords : ∀ entry ∈ shelf.written, IsRecord entry) : ∀ entry ∈ shelf'.written, IsRecord entry := by
  rcases h.written with hsame | ⟨key, text, lifetime, rfl, hlogged⟩
  · rw [hsame]
    exact hrecords
  · rw [hlogged]
    intro entry hmem
    rcases List.mem_cons.mp hmem with rfl | hmem
    · rcases hbounds with hcursor | ⟨tip, rfl, rfl, -⟩
      · exact .inl hcursor
      · exact .inr ⟨tip, rfl⟩
    · exact hrecords entry hmem

/-- What a walker is told is as its contract has it. -/
theorem numbersOn_of_answers (h : shelf.Answers .numbering memory query answer shelf')
    (hallows : (bounded settings call began).allows events memory query) :
    NumbersOn began query answer := by
  cases h with
  | served _ htold | elsewhere _ htold =>
    cases query with
    | pointsAfter start limit => exact numbersOn_congr (hallows.2 start limit rfl) htold
    | _ => trivial
  | unreadable | unwritable => trivial

theorem Course.Bounded.start {shared : FeedState} (hcache : shared.cache.entries = []) :
    Course.Bounded settings { shared, phase := .resting memory } where
  holds := by
    intro entry hmem
    rw [hcache] at hmem
    cases hmem
  records := nofun
  phase := trivial

/-- Others may take entries from the cache, and change what else is shared. -/
theorem Course.Bounded.share (h : s.Bounded settings) {shared : FeedState}
    (hsub : shared.cache.entries ⊆ s.shared.cache.entries) :
    Course.Bounded settings { s with shared } :=
  ⟨fun entry hmem => h.holds entry (hsub hmem), h.records, h.phase⟩

theorem Course.Bounded.step (h : s.Bounded settings)
    (hstep : Course.Step .numbering settings s s') : s'.Bounded settings := by
  have hphase := h.phase
  cases hstep with
  | call call hrest hcall => exact ⟨h.holds, h.records, keeps_call, nofun⟩
  | @answer call began memory query resume answer shelf hwait hanswer =>
    rw [hwait] at hphase
    obtain ⟨hkeeps, hasked⟩ := hphase
    have hallows := hkeeps.allows
    refine ⟨hanswer.leaves.holds h.holds, hanswer.leaves.records hallows.1 h.records,
      hkeeps.answer ⟨numbersOn_of_answers hanswer hallows, rfl⟩, fun event hmem => ?_⟩
    have hsuffix : s.events <:+ ⟨query, answer⟩ :: s.events := List.suffix_cons _ _
    rcases List.mem_cons.mp hmem with rfl | hmem
    · exact hallows.1.mono hsuffix
    · exact (hasked event hmem).mono hsuffix
  | finish hdone => exact ⟨h.holds, h.records, trivial⟩
  | abandon hwait hleaves =>
    rw [hwait] at hphase
    exact ⟨hleaves.holds h.holds, hleaves.records hphase.1.allows.1 h.records, trivial⟩
  | drift hcache => exact h.share (hcache ▸ List.Subset.refl _)

/-- Whatever a call has asked is within bounds. -/
theorem Course.Bounded.bounds (h : s.Bounded settings) (hasked : s.HasAsked call began query) :
    Bounds settings call began s.events query := by
  obtain ⟨run, hphase, hasked⟩ := hasked
  have hkept := h.phase
  rw [hphase] at hkept
  rcases hasked with ⟨answer, hmem⟩ | ⟨memory, resume, rfl⟩
  · exact hkept.2 _ hmem
  · exact hkept.1.allows.1

end

end Walker

end BlockFeed
