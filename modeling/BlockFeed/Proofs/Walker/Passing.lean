import BlockFeed.Proofs.Simulation.Follow
import BlockFeed.Proofs.Transcript
import BlockFeed.Proofs.Walker.Confined
import BlockFeed.Simulation.SampleTip
import BlockFeed.Walker.Basic

/-!
# The points a walk passes

Of the tips that a node tells a walk takes those that go on from the cursor, one after the other (`passed`):
it publishes each of them under its height and moves the cursor to it. So a tip that lies at the height of the
cursor or above is published, unless it is another block at the very height of the cursor
(`passed_of_walk_ends`).

That exception decides what becomes of the first block of a chain. A new walker stands at the origin, which
counts as height 0; a first block at height 0 is passed over in silence (`unpublished_at_cursor`).
-/

namespace BlockFeed

namespace Walker

/-! ## Passing over tips -/

/-- The tips that a cursor moves over, each going on from the one before. -/
def passed (cursor : Tip) : List Tip → List Tip
  | [] => []
  | tip :: rest => if isForward cursor tip then tip :: passed tip rest else passed cursor rest

/-- Where a cursor stands after tips. -/
def cursorAfter (cursor : Tip) (tips : List Tip) : Tip := (passed cursor tips).getLastD cursor

section
variable {cursor tip : Tip} {rest : List Tip}

theorem passed_cons_of_forward (h : isForward cursor tip = true) (rest : List Tip) :
    passed cursor (tip :: rest) = tip :: passed tip rest := if_pos h

theorem passed_cons_of_not_forward (h : isForward cursor tip = false) (rest : List Tip) :
    passed cursor (tip :: rest) = passed cursor rest := if_neg (by simp [h])

theorem cursorAfter_cons_of_forward (h : isForward cursor tip = true) (rest : List Tip) :
    cursorAfter cursor (tip :: rest) = cursorAfter tip rest := by
  rw [cursorAfter, passed_cons_of_forward h, List.getLastD_cons, cursorAfter]

theorem cursorAfter_cons_of_not_forward (h : isForward cursor tip = false) (rest : List Tip) :
    cursorAfter cursor (tip :: rest) = cursorAfter cursor rest := by
  rw [cursorAfter, passed_cons_of_not_forward h, cursorAfter]

/-- Further tips are passed over from where the cursor stands then. -/
theorem passed_append (cursor : Tip) (tips more : List Tip) :
    passed cursor (tips ++ more) = passed cursor tips ++ passed (cursorAfter cursor tips) more := by
  induction tips generalizing cursor with
  | nil => rfl
  | cons tip rest ih =>
    rw [List.cons_append]
    cases hforward : isForward cursor tip with
    | true =>
      rw [passed_cons_of_forward hforward, passed_cons_of_forward hforward,
        cursorAfter_cons_of_forward hforward, ih, List.cons_append]
    | false =>
      rw [passed_cons_of_not_forward hforward, passed_cons_of_not_forward hforward,
        cursorAfter_cons_of_not_forward hforward, ih]

theorem cursorAfter_append (cursor : Tip) (tips more : List Tip) :
    cursorAfter cursor (tips ++ more) = cursorAfter (cursorAfter cursor tips) more := by
  induction tips generalizing cursor with
  | nil => rfl
  | cons tip rest ih =>
    rw [List.cons_append]
    cases hforward : isForward cursor tip with
    | true => rw [cursorAfter_cons_of_forward hforward, cursorAfter_cons_of_forward hforward, ih]
    | false => rw [cursorAfter_cons_of_not_forward hforward, cursorAfter_cons_of_not_forward hforward, ih]

/-- A tip goes on from a cursor if it lies at its height or above, and is not another block at its height. -/
theorem isForward_eq_true_iff :
    isForward cursor tip = true
      ↔ cursor.number ≤ tip.number ∧ ¬(tip.number = cursor.number ∧ tip.point ≠ cursor.point) := by
  simp only [isForward, Bool.or_eq_true, Bool.and_eq_true, decide_eq_true_eq]
  constructor
  · rintro (habove | ⟨hnumber, hpoint⟩)
    · exact ⟨UInt64.le_of_lt habove, fun hsame => UInt64.ne_of_lt habove hsame.1.symm⟩
    · exact ⟨UInt64.le_of_eq hnumber.symm, fun hother => hother.2 hpoint⟩
  · rintro ⟨hle, hother⟩
    rcases UInt64.lt_or_eq_of_le hle with habove | hnumber
    · exact .inl habove
    · exact .inr ⟨hnumber.symm, by_contra fun hpoint => hother ⟨hnumber.symm, hpoint⟩⟩

end

/-! ## What a walk asks -/

/-- A question of a transcript with its answer. -/
abbrev Seen : Type := Interface.Event Surroundings

/-- What the node has told of the points after another one. -/
def Seen.told : Seen → List NextPoints
  | ⟨.pointsAfter _ _, .ok next⟩ => [next]
  | _ => []

/-- What has been written to the cache. -/
def Seen.entries (event : Seen) : List (String × String) := Surroundings.Event.entries ⟨event.1, event.2⟩

/-- A write to the cache has failed. -/
def Seen.isRefusal : Seen → Bool
  | ⟨.writeCache _ _ _, .error _⟩ => true
  | _ => false

/-- What the tips that are passed leave in the cache, in the order in which they are passed. -/
def entriesOf (tips : List Tip) : List (String × String) :=
  tips.map fun tip => (heightKey tip.number, tip.toCacheText)

/-- A part of a walk has written entries and has been told nothing. -/
structure Writes (entries : List (String × String)) (own : List Seen) : Prop where
  told : own.flatMap Seen.told = []
  entries : own.flatMap Seen.entries = entries

theorem Writes.append {entries more : List (String × String)} {own rest : List Seen}
    (h : Writes entries own) (hmore : Writes more rest) : Writes (entries ++ more) (own ++ rest) where
  told := by rw [List.flatMap_append, h.told, hmore.told, List.append_nil]
  entries := by rw [List.flatMap_append, h.entries, hmore.entries]

/-- Some write of a transcript has failed. -/
def Refused (log : List Seen) : Prop := ∃ event ∈ log, event.isRefusal = true

section
variable {settings : WalkerSettings} {memory : Walker} {past : List Seen}

/-- What goes on from a past, if no write fails: entries are written, and the memory changes. -/
def Leaves (past : List Seen) (entries : List (String × String)) (memory : Walker) (log : List Seen)
    (after : Walker) : Prop :=
  ∃ own, log = past ++ own ∧ Writes entries own ∧ after = memory

theorem keeps_writeTip (key : String) (tip : Tip) (lifetime : Duration) :
    (Work.writeTip WalkerError.cache key tip lifetime : Task Unit).Keeps (recorded Surroundings Walker)
      (fun log after _ => Leaves past [(key, tip.toCacheText)] memory log after)
      (fun log _ _ => Refused log) past memory := by
  refine Routine.keeps_bind.mpr (Routine.keeps_recorded_ask.mpr fun answer => ?_)
  match (answer : Except (Abort CacheError) Unit) with
  | .ok () => exact ⟨_, rfl, ⟨rfl, rfl⟩, rfl⟩
  | .error error =>
    exact ⟨_, List.mem_append_right past (List.mem_singleton.mpr rfl), rfl⟩

/-- The cursor is stored, and its height is shown. -/
theorem keeps_storeCursor :
    (storeCursor settings).Keeps (recorded Surroundings Walker)
      (fun log after _ => Leaves past [(cursorKey, memory.cursor.toCacheText)] memory log after)
      (fun log _ _ => Refused log) past memory := by
  refine Routine.keeps_bind.mpr (keeps_cursorNow.mpr ?_)
  refine Routine.keeps_bind.mpr ((keeps_writeTip _ _ _).mono ?_ fun _ _ _ h => h)
  rintro _ _ _ ⟨own, rfl, hwrites, rfl⟩
  refine Routine.keeps_bind.mpr (keeps_cursorNow.mpr (Routine.keeps_recorded_ask.mpr fun answer => ?_))
  refine ⟨own ++ [_], List.append_assoc .., ?_, rfl⟩
  exact hwrites.append ⟨rfl, rfl⟩

/-- Tips are published as they are passed, and the cursor moves with them. -/
theorem keeps_publish (tips : List Tip) :
    (publish settings tips).Keeps (recorded Surroundings Walker)
      (fun log after count =>
        Leaves past (entriesOf (passed memory.cursor tips))
          { memory with cursor := cursorAfter memory.cursor tips } log after
        ∧ count = (passed memory.cursor tips).length)
      (fun log _ _ => Refused log) past memory := by
  induction tips generalizing past memory with
  | nil => exact ⟨⟨[], (List.append_nil past).symm, ⟨rfl, rfl⟩, rfl⟩, rfl⟩
  | cons tip rest ih =>
    refine Routine.keeps_bind.mpr (keeps_cursorNow.mpr ?_)
    cases hforward : isForward memory.cursor tip with
    | true =>
      rw [if_pos rfl, passed_cons_of_forward hforward, cursorAfter_cons_of_forward hforward]
      refine Routine.keeps_bind.mpr ((keeps_writeTip _ _ _).mono ?_ fun _ _ _ h => h)
      rintro _ _ _ ⟨own, rfl, hwrites, rfl⟩
      refine Routine.keeps_bind.mpr (Routine.keeps_remember.mpr ?_)
      refine Routine.keeps_bind.mpr (ih.mono ?_ fun _ _ _ h => h)
      rintro _ after count ⟨⟨more, rfl, hmore, rfl⟩, rfl⟩
      refine Routine.keeps_pure.mpr ⟨⟨own ++ more, List.append_assoc .., ?_, rfl⟩, rfl⟩
      exact hwrites.append hmore
    | false =>
      rw [if_neg (by simp), passed_cons_of_not_forward hforward, cursorAfter_cons_of_not_forward hforward]
      exact ih

/-- What comes of a walk that is told the next points: nothing if there are none and no step back; otherwise
they are published, and the cursor is stored where it stands then if it has passed any. -/
structure Passes (memory : Walker) (next : NextPoints) (own : List Seen) (after : Walker) : Prop where
  entries : own.flatMap Seen.entries = entriesOf (passed memory.cursor next.tips) ++
    if passed memory.cursor next.tips = [] then []
    else [(cursorKey, (cursorAfter memory.cursor next.tips).toCacheText)]
  after : after = { memory with cursor := cursorAfter memory.cursor next.tips }

/-- A walk has passed what it has been told, unless a write has failed. -/
def Walked (memory : Walker) (log : List Seen) (after : Walker) : Prop :=
  Refused log ∨ log.flatMap Seen.told = [] ∨
    ∃ next, log.flatMap Seen.told = [next] ∧ Passes memory next log after

/-- A walk has come to where the node had told the next points, and has written entries since. -/
theorem walked_of_writes {next : NextPoints} {own : List Seen} {entries : List (String × String)}
    (hpast : past.flatMap Seen.told = [next]) (hquiet : past.flatMap Seen.entries = [])
    (hwrites : Writes entries own)
    (hentries : entries = entriesOf (passed memory.cursor next.tips) ++
      if passed memory.cursor next.tips = [] then []
      else [(cursorKey, (cursorAfter memory.cursor next.tips).toCacheText)]) :
    Walked memory (past ++ own) { memory with cursor := cursorAfter memory.cursor next.tips } := by
  refine .inr (.inr ⟨next, ?_, ?_, rfl⟩)
  · rw [List.flatMap_append, hpast, hwrites.told, List.append_nil]
  · rw [List.flatMap_append, hquiet, List.nil_append, hwrites.entries, hentries]

theorem keeps_walked :
    (walk settings).Keeps (recorded Surroundings Walker) (fun log after _ => Walked memory log after)
      (fun log after _ => Walked memory log after) [] memory := by
  refine Routine.keeps_bind.mpr (Routine.keeps_recorded_ask.mpr fun best => ?_)
  refine Routine.keeps_bind.mpr (keeps_cursorNow.mpr ?_)
  dsimp only
  split
  · exact .inr (.inl rfl)
  · refine Routine.keeps_bind.mpr (Routine.keeps_recorded_ask.mpr fun answer => ?_)
    cases answer with
    | error e => exact .inr (.inl rfl)
    | ok next =>
      generalize hpast : ([] ++ [⟨.bestHeight, best⟩] : List Seen) ++ [⟨.pointsAfter _ _, Except.ok next⟩]
        = past
      have htold : past.flatMap Seen.told = [next] := by rw [← hpast]; rfl
      have hquiet : past.flatMap Seen.entries = [] := by rw [← hpast]; rfl
      refine Routine.keeps_bind.mpr (Routine.keeps_pure.mpr ?_)
      split
      · rename_i hnone
        have htips : next.tips = [] := by simp_all
        have hwalked : Walked memory (past ++ [])
            { memory with cursor := cursorAfter memory.cursor next.tips } :=
          walked_of_writes htold hquiet ⟨rfl, rfl⟩ (by rw [htips]; rfl)
        rw [List.append_nil, htips] at hwalked
        exact hwalked
      · refine Routine.keeps_bind.mpr ((keeps_publish next.tips).mono ?_ fun _ _ _ h => .inl h)
        rintro _ _ count ⟨⟨own, rfl, hwrites, rfl⟩, rfl⟩
        by_cases hcount : 0 < (passed memory.cursor next.tips).length
        · have hsome : passed memory.cursor next.tips ≠ [] := List.length_pos_iff.mp hcount
          rw [if_pos hcount]
          refine Routine.keeps_bind.mpr (keeps_storeCursor.mono ?_ fun _ _ _ h => .inl h)
          rintro _ _ _ ⟨stored, rfl, hstored, rfl⟩
          have hwalked : Walked memory (past ++ (own ++ stored))
              { memory with cursor := cursorAfter memory.cursor next.tips } :=
            walked_of_writes htold hquiet (hwrites.append hstored) (by rw [if_neg hsome])
          rw [← List.append_assoc] at hwalked
          cases next.rolledBackTo <;> exact hwalked
        · have hnone : passed memory.cursor next.tips = [] := by simpa using hcount
          rw [if_neg hcount]
          have hwalked : Walked memory (past ++ own)
              { memory with cursor := cursorAfter memory.cursor next.tips } :=
            walked_of_writes htold hquiet hwrites (by rw [if_pos hnone, List.append_nil])
          cases next.rolledBackTo <;> exact hwalked

/-- A walk that has been told the next points, and of whose writes none has failed, has published the tips that
it has passed, in order, stored the cursor if there were any, and stands at the last of them. In particular, a
tip that lies at the height where the cursor stands when its turn comes, or above, is published under its
height and becomes the cursor, unless it is another block at that very height; then, as below the cursor, the
cursor stays where it is. -/
theorem passed_of_walk_ends {after : Walker} {log : List Seen} {outcome : Except (Abort WalkerError) Step}
    {start : Point} {limit : UInt64} {next : NextPoints}
    (hends : ((walk settings).start memory).Ends log after outcome)
    (htold : (⟨.pointsAfter start limit, Except.ok next⟩ : Seen) ∈ log)
    (hwrites : ∀ event ∈ log, event.isRefusal = false) :
    Passes memory next log after ∧
      ∀ before tip rest, next.tips = before ++ tip :: rest →
        let cursor := cursorAfter memory.cursor before
        (cursor.number ≤ tip.number ∧ ¬(tip.number = cursor.number ∧ tip.point ≠ cursor.point) →
          (heightKey tip.number, tip.toCacheText) ∈ log.flatMap Seen.entries ∧
            cursorAfter memory.cursor (before ++ [tip]) = tip) ∧
        (tip.number < cursor.number ∨ tip.number = cursor.number ∧ tip.point ≠ cursor.point →
          cursorAfter memory.cursor (before ++ [tip]) = cursor) := by
  have hwalked : Walked memory log after := by
    have hend := Run.keeps_recorded_iff.mp keeps_walked log after outcome hends
    cases outcome <;> exact hend
  have hmem : next ∈ log.flatMap Seen.told := List.mem_flatMap.mpr ⟨_, htold, List.mem_singleton.mpr rfl⟩
  have hpasses : Passes memory next log after := by
    rcases hwalked with ⟨event, hevent, hrefusal⟩ | hnone | ⟨other, hother, hpasses⟩
    · rw [hwrites event hevent] at hrefusal
      cases hrefusal
    · rw [hnone] at hmem
      cases hmem
    · rw [hother, List.mem_singleton] at hmem
      exact hmem ▸ hpasses
  refine ⟨hpasses, fun before tip rest hsplit => ?_⟩
  intro cursor
  have hstep : cursorAfter memory.cursor (before ++ [tip]) = cursorAfter cursor [tip] :=
    cursorAfter_append memory.cursor before [tip]
  rw [hstep, ← isForward_eq_true_iff, hpasses.entries, hsplit, passed_append]
  constructor
  · intro hforward
    refine ⟨List.mem_append_left _ (List.mem_map_of_mem (List.mem_append_right _ ?_)), ?_⟩
    · rw [passed_cons_of_forward hforward]
      exact List.mem_cons_self
    · exact cursorAfter_cons_of_forward hforward []
  · intro hbehind
    have hforward : isForward cursor tip = false := by
      rw [← Bool.not_eq_true, isForward_eq_true_iff]
      rintro ⟨hle, hother⟩
      rcases hbehind with hlt | hsame
      · exact UInt64.not_le.mpr hlt hle
      · exact hother hsame
    exact cursorAfter_cons_of_not_forward hforward []

end

/-! ## The first block of a chain -/

/-- The best height is 5, the node tells certain points after any other, and every write comes off. -/
def sampleTelling (next : NextPoints) : Behaviour Surroundings
  | _, .bestHeight => (5 : UInt64)
  | _, .pointsAfter _ _ => (Except.ok next : Except NodeError NextPoints)
  | _, .writeCache _ _ _ => (Except.ok () : Except (Abort CacheError) Unit)
  | _, .readCache _ => (Except.ok none : Except CacheError (Option String))
  | _, .tipHeader => (Except.error (.connection .closed) : Except NodeError Header)
  | _, .fetchBlock _ => (Except.error (.connection .closed) : Except NodeError Bytes)
  | _, .findIntersect _ => (Except.error (.connection .closed) : Except NodeError Intersection)
  | _, .finalizedHeight => (0 : UInt64)
  | _, .hints _ _ => (none : Option HintReply)
  | _, .freeSlots | _, .now => (0 : Nat)
  | _, .buffered => (none : Option UInt64)
  | _, .send _ => true
  | _, .publishBest _ | _, .publishFinalized _ | _, .commit _ | _, .note _ => ()

/-- How a walk ends that is told certain points. -/
def sampleWalk (settings : WalkerSettings) (memory : Walker) (next : NextPoints) :
    Run.Ending Surroundings Walker (Except (Abort WalkerError) Step) :=
  ((walk settings).start memory).against (sampleTelling next)

/-- The walk has asked for the points, and no write of it has failed. -/
theorem told_of_sampleWalk {settings : WalkerSettings} {memory : Walker} {next : NextPoints}
    (h : next ∈ (sampleWalk settings memory next).log.flatMap Seen.told) :
    ∃ start limit,
      (⟨.pointsAfter start limit, Except.ok next⟩ : Seen) ∈ (sampleWalk settings memory next).log := by
  obtain ⟨⟨query, answer⟩, hevent, htold⟩ := List.mem_flatMap.mp h
  cases query with
  | pointsAfter start limit =>
    match (answer : Except NodeError NextPoints) with
    | .ok other =>
      obtain rfl : next = other := List.mem_singleton.mp htold
      exact ⟨start, limit, hevent⟩
    | .error e => cases htold
  | _ => cases htold

/-- From height 1 on a node tells the next tip, another block at the same height, a lower one, and one further
up. -/
theorem passed_of_walk_ends_sample :
    let next : NextPoints := ⟨[.sample 2 0, .sample 2 1, .sample 1 1, .sample 4 0], none⟩
    let ending := sampleWalk {} { cursor := .sample 1 0 } next
    (∃ start limit, (⟨.pointsAfter start limit, Except.ok next⟩ : Seen) ∈ ending.log)
      ∧ (∀ event ∈ ending.log, Seen.isRefusal event = false)
      ∧ ending.log.flatMap Seen.entries = entriesOf [.sample 2 0, .sample 4 0]
          ++ [(cursorKey, (Tip.sample 4 0).toCacheText)]
      ∧ ending.memory.cursor = .sample 4 0 := by
  intro next ending
  have hwrites : ∀ event ∈ ending.log, Seen.isRefusal event = false := by decide +kernel
  obtain ⟨start, limit, htold⟩ := told_of_sampleWalk (by decide +kernel : next ∈ ending.log.flatMap Seen.told)
  have hends := Run.ends_against ((walk {}).start { cursor := .sample 1 0 }) (sampleTelling next)
  obtain ⟨⟨hentries, hafter⟩, -⟩ := passed_of_walk_ends hends htold hwrites
  have hpassed : passed (Tip.sample 1 0) next.tips = [.sample 2 0, .sample 4 0] := by decide +kernel
  rw [hpassed] at hentries
  have hcursor : cursorAfter (Tip.sample 1 0) next.tips = .sample 4 0 := by rw [cursorAfter, hpassed]; rfl
  rw [hcursor] at hentries hafter
  exact ⟨⟨start, limit, htold⟩, hwrites, hentries, congrArg Walker.cursor hafter⟩

/-- Not every tip at the height of the cursor or above is published. A new walker stands at the origin, at
height 0, and the first block of the chain is at height 0, too: it is not published, and with a batch of one
point the walker does not leave the origin. -/
theorem unpublished_at_cursor :
    ¬ ∀ (settings : WalkerSettings) (memory after : Walker) (log : List Seen)
      (outcome : Except (Abort WalkerError) Step) (start : Point) (limit : UInt64) (next : NextPoints),
      ((walk settings).start memory).Ends log after outcome →
      (⟨.pointsAfter start limit, Except.ok next⟩ : Seen) ∈ log →
      (∀ event ∈ log, Seen.isRefusal event = false) →
      ∀ before tip rest, next.tips = before ++ tip :: rest →
        (cursorAfter memory.cursor before).number ≤ tip.number →
        (heightKey tip.number, tip.toCacheText) ∈ log.flatMap Seen.entries ∧
          cursorAfter memory.cursor (before ++ [tip]) = tip := by
  intro hclaim
  let settings : WalkerSettings := { maxBatchSize := 1 }
  let next : NextPoints := ⟨[.sample 0 0], none⟩
  let ending := sampleWalk settings (Walker.new settings) next
  have hwrites : ∀ event ∈ ending.log, Seen.isRefusal event = false := by decide +kernel
  obtain ⟨start, limit, htold⟩ := told_of_sampleWalk (by decide +kernel : next ∈ ending.log.flatMap Seen.told)
  have hends : ((walk settings).start (Walker.new settings)).Ends ending.log ending.memory ending.value :=
    Run.ends_against _ _
  have hpublished := (hclaim settings _ _ _ _ start limit next hends htold hwrites [] (.sample 0 0) [] rfl
    (by decide)).1
  have hnothing : ending.log.flatMap Seen.entries = [] := by decide +kernel
  rw [hnothing] at hpublished
  cases hpublished

end Walker

end BlockFeed
