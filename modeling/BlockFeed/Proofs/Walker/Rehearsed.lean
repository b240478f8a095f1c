import BlockFeed.Proofs.Answers
import BlockFeed.Proofs.PointCache
import BlockFeed.Proofs.Simulation.Follow
import BlockFeed.Proofs.Walker.Course

/-!
# Rehearsed courses

A walker that is called again and again in a world for rehearsals runs a course, as long as it is told
nothing but what its rules provide for. The world answers by itself, so whether it does so is found out by
running (`Rehearsed.call`); what comes of it is a state that a walker can reach (`Shows.calls`).
-/

namespace BlockFeed.Walker

open Simulation (Response World Followed answer? settled? follow follow_induction)
open Surroundings (Event Query)

/-! ## Rules that can be checked -/

instance (cache : PointCache) (now : Nat) : Decidable (cache.Lasts now) :=
  inferInstanceAs (Decidable (∀ entry ∈ cache.entries, entry.2.isLive now = true))

instance (asker : Walker) (query : Query) (answer : query.Answer) :
    Decidable (NumbersOn asker query answer) :=
  match query, answer with
  | .pointsAfter _ limit, .ok next =>
    decidable_of_iff (next.tips.map (·.number.toNat)
        = List.range' (asker.cursor.number.toNat + 1) next.tips.length ∧
      next.tips.length ≤ limit.toNat) ⟨fun h _ hnext => by cases hnext; exact h, fun h => h next rfl⟩
  | .pointsAfter _ _, .error _ => .isTrue nofun
  | .bestHeight, _ | .finalizedHeight, _ | .publishBest _, _ | .publishFinalized _, _
  | .readCache _, _ | .writeCache _ _ _, _ | .tipHeader, _ | .fetchBlock _, _ | .findIntersect _, _
  | .hints _ _, _ | .freeSlots, _ | .buffered, _ | .send _, _ | .commit _, _ | .now, _ | .note _, _ =>
    .isTrue trivial

instance (owed : Option WalkerError) : (call : Call) → Decidable (call.IsDue owed)
  | .advance => inferInstanceAs (Decidable (owed = none))
  | .recover error => inferInstanceAs (Decidable (owed = some error))

/-! ## Answers of a world -/

section
variable {rules : Rules} {asker : Walker} {w w' : World} {written : List (String × String)}
  {query : Query} {answer : query.Answer}

theorem entries_of_isElsewhere (h : query.isElsewhere = true) : (Event.mk query answer).entries = [] := by
  cases query with
  | writeCache => cases h
  | _ => rfl

theorem logged_eq_entries_append (query : Query) (answer : query.Answer) :
    query.logged written answer = (Event.mk query answer).entries ++ written := by
  cases query with
  | writeCache => cases answer <;> rfl
  | _ => rfl

/-- A question for somebody else is answered without a change of the shared values. -/
theorem toFeedState_of_called {reacted : Response query × World}
    (helsewhere : query.isElsewhere = true) (hreact : w.reactElsewhere query = reacted)
    (h : settled? query reacted = some (answer, w')) : w'.toFeedState = w.toFeedState := by
  subst hreact
  cases query with
  | hints =>
    cases h
    rfl
  | tipHeader | fetchBlock | pointsAfter | findIntersect =>
    obtain ⟨answer, -, heq⟩ := Option.map_eq_some_iff.mp h
    cases heq
    exact FeedState.finishCall_toFeedState _ _
  | _ => cases helsewhere

/-- What a world answers may be answered under rules that provide for it. -/
theorem shelf_answers (h : answer? w query = some (answer, w')) (htime : rules.admits w.cache w.clock)
    (htold : rules.tells asker query answer) :
    Shelf.Answers rules asker ⟨w.toFeedState, written⟩ query answer
      ⟨w'.toFeedState, (Event.mk query answer).entries ++ written⟩ := by
  unfold answer? World.react at h
  cases hfault : w.fault? query with
  | some fault =>
    rw [hfault] at h
    cases h
    unfold World.fault? at hfault
    split at hfault
    · split at hfault
      · cases hfault
        exact .unreadable _ _
      · cases hfault
    · split at hfault
      · cases hfault
        exact .unwritable _ _ _ _ .untouched
      · cases hfault
    · cases hfault
  | none =>
    rw [hfault] at h
    cases hreply : w.toFeedState.reply w.clock query with
    | mk reply shared =>
      rw [hreply] at h
      cases reply with
      | answered =>
        cases h
        rw [← logged_eq_entries_append]
        exact .served (.reply w.clock htime hreply) htold
      | noRoom => cases h
      | elsewhere =>
        have helsewhere := FeedState.isElsewhere_of_reply hreply
        rw [entries_of_isElsewhere helsewhere, toFeedState_of_called helsewhere rfl h]
        exact .elsewhere helsewhere htold

end

/-! ## Calls that are followed -/

/-- A walker that is being rehearsed, between two calls. -/
structure Rehearsed where
  world : World
  written : List (String × String) := []
  memory : Walker
  owed : Option WalkerError := none

/-- The world changes, but for what it shares. -/
def Rehearsed.amid (change : World → World) (r : Rehearsed) : Rehearsed :=
  { r with world := { change r.world with toFeedState := r.world.toFeedState } }

/-- A rehearsed walker is in the state of a course. -/
structure Rehearsed.Shows (r : Rehearsed) (s : Course) : Prop where
  shelf : s.toShelf = ⟨r.world.toFeedState, r.written⟩
  phase : s.phase = .resting r.memory
  owed : s.owed = r.owed

/-- Nothing has been written at first. -/
theorem Rehearsed.shows_start (world : World) (memory : Walker) :
    Rehearsed.Shows { world, memory } { shared := world.toFeedState, phase := .resting memory } :=
  ⟨rfl, rfl, rfl⟩

theorem Rehearsed.Shows.amid {r : Rehearsed} {s : Course} (h : r.Shows s) (change : World → World) :
    (r.amid change).Shows s :=
  ⟨h.shelf, h.phase, h.owed⟩

section
variable (rules : Rules) [∀ cache now, Decidable (rules.admits cache now)]
  [∀ (asker : Walker) (query : Query) (answer : query.Answer),
    Decidable (rules.tells asker query answer)]

/-- The rules provide for an answer of a world. -/
def provides (w : World) (asker : Walker) (query : Query) (answer : query.Answer) : Bool :=
  decide (rules.admits w.cache w.clock ∧ rules.tells asker query answer)

variable {rules} {settings : WalkerSettings} {s : Course} {r : Rehearsed}

/-- A rehearsed walker begins a call, which goes on as far as it has been followed. -/
theorem Rehearsed.Shows.begin {call : Call} {f : Followed Walker (Option WalkerError)} (h : r.Shows s)
    (hcall : rules.calls r.memory r.owed call)
    (hfollow : follow (provides rules) r.world [] (call.work settings r.memory) = some f) :
    ∃ s', Course.GoesOn rules settings s s' ∧
      s'.toShelf = ⟨f.world.toFeedState, f.entries ++ r.written⟩ ∧
      s'.phase = .working call r.memory f.run ∧ s'.events = f.events := by
  let begun : Course := { s with
    phase := .working call r.memory (call.work settings r.memory), events := [] }
  have hstep : Course.Step rules settings s begun := .call call h.phase (by rw [h.owed]; exact hcall)
  refine follow_induction (motive := fun w events run => ∃ s', Course.GoesOn rules settings s s' ∧
    s'.toShelf = ⟨w.toFeedState, events.flatMap Event.entries ++ r.written⟩ ∧
    s'.phase = .working call r.memory run ∧ s'.events = events) ?_
    ⟨begun, .single hstep, h.shelf, rfl, rfl⟩ hfollow
  rintro w w' events memory query resume answer hanswer hmay ⟨s', hpath, hshelf, hphase, rfl⟩
  obtain ⟨htime, htold⟩ := decide_eq_true_iff.mp hmay
  have hanswers : s'.toShelf.Answers rules memory query answer ⟨w'.toFeedState,
      (Event.mk query answer).entries ++ (s'.events.flatMap Event.entries ++ r.written)⟩ := by
    rw [hshelf]
    exact shelf_answers hanswer htime htold
  refine ⟨_, hpath.tail (.answer hphase hanswers), ?_, rfl, rfl⟩
  rw [List.flatMap_cons, List.append_assoc]

end

section
variable (rules : Rules) [∀ memory owed call, Decidable (rules.calls memory owed call)]
  [∀ cache now, Decidable (rules.admits cache now)]
  [∀ (asker : Walker) (query : Query) (answer : query.Answer),
    Decidable (rules.tells asker query answer)]

namespace Rehearsed

/-- Carries a call out. If the world does not answer, the call is given up. -/
def call (settings : WalkerSettings) (r : Rehearsed) (call : Call) : Option Rehearsed :=
  if rules.calls r.memory r.owed call then
    (follow (provides rules) r.world [] (call.work settings r.memory)).map fun f =>
      match f.run with
      | .done memory failure => ⟨f.world, f.entries ++ r.written, memory, failure⟩
      | .wait memory _ _ => ⟨f.world, f.entries ++ r.written, memory, some (.stalled settings.watchdog)⟩
  else none

/-- Carries calls out one after the other. -/
def calls (settings : WalkerSettings) (r : Rehearsed) (calls : List Call) : Option Rehearsed :=
  calls.foldlM (call rules settings) r

end Rehearsed

variable {rules} {settings : WalkerSettings} {s : Course} {r r' : Rehearsed}

theorem Rehearsed.Shows.call {call : Call} (h : r.Shows s)
    (hcall : r.call rules settings call = some r') :
    ∃ s', Course.GoesOn rules settings s s' ∧ r'.Shows s' := by
  unfold Rehearsed.call at hcall
  split at hcall
  · rename_i hmay
    obtain ⟨⟨world, events, run⟩, hfollow, rfl⟩ := Option.map_eq_some_iff.mp hcall
    obtain ⟨s₁, hpath, hshelf, hphase, -⟩ := h.begin hmay hfollow
    cases run with
    | done memory failure => exact ⟨_, hpath.tail (.finish hphase), hshelf, rfl, rfl⟩
    | wait memory query resume => exact ⟨_, hpath.tail (.abandon hphase .untouched), hshelf, rfl, rfl⟩
  · cases hcall

theorem Rehearsed.Shows.calls {calls : List Call} (h : r.Shows s)
    (hcalls : r.calls rules settings calls = some r') :
    ∃ s', Course.GoesOn rules settings s s' ∧ r'.Shows s' := by
  unfold Rehearsed.calls at hcalls
  induction calls generalizing r s with
  | nil =>
    cases hcalls
    exact ⟨s, .refl, h⟩
  | cons call rest ih =>
    rw [List.foldlM_cons, Option.bind_eq_bind, Option.bind_eq_some_iff] at hcalls
    obtain ⟨middle, hcall, hrest⟩ := hcalls
    obtain ⟨s₁, hpath₁, hshows₁⟩ := h.call hcall
    obtain ⟨s₂, hpath₂, hshows₂⟩ := ih hshows₁ hrest
    exact ⟨s₂, hpath₁.trans hpath₂, hshows₂⟩

end

end BlockFeed.Walker
