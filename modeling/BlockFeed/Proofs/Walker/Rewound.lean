import BlockFeed.Proofs.Walker.Confined
import BlockFeed.Proofs.Walker.Rehearsed

/-!
# After the cursor has been moved back

A recovery that moves the cursor back leaves the cache as it is, so above the cursor there are tips of the
fork that the node has abandoned. The next pass over cached points is left out, and no pass moves the
cursor until a recovery begins after that (`unmoved_of_rewound`).

The pass is left out once only. If the walker fails again before it has written over the abandoned tips,
the pass that follows this failure moves the cursor over them (`passes_over_abandoned`).
-/

namespace BlockFeed.Walker

open Simulation (ScriptedNode follow)

/-- A recovery has moved the cursor back to a tip. -/
def Course.HasRewound (s : Course) (tip : Tip) : Prop := s.phase = .resting ⟨.recovering, tip, true⟩

/-- No recovery begins once a pass over cached points has been left out. -/
abbrev Rules.undisturbed : Rules where
  calls memory _ call := call.recovers = true → memory.skipFastForward = true

/-- The next pass over cached points is to be left out, or the walker has left it behind. -/
def Guarded (memory : Walker) : Prop :=
  memory.skipFastForward = true ∨ memory.stage = .walking ∨ memory.stage = .idle

/-- A pass over cached points has not moved the cursor. -/
def Unmoved (call : Call) (began memory : Walker) : Prop :=
  call = .advance → began.stage = .fastForward → memory.cursor = began.cursor

section
variable {settings : WalkerSettings} {call : Call} {began memory : Walker} {s s' : Course} {tip : Tip}

/-- A call is confined as its task is. -/
theorem confined_call {α : Type} {holds holds' : Walker → Prop} {task : Task α}
    (h : task.Confined holds fun _ => True) (hmemory : holds memory)
    (himp : ∀ memory, holds memory → holds' memory) :
    ((task.start memory).map Call.failure?).Confined holds' fun _ => True :=
  Run.Confined.bind ((h memory hmemory).mono himp) fun _ _ hends => hends

/-- Work that begins while the next pass is to be left out, and is not that pass. -/
theorem confined_skipping {α : Type} {task : Task α}
    (htask : task.Confined (fun memory => memory.skipFastForward = true) fun _ => True)
    (hskip : memory.skipFastForward = true) (hother : call = .advance → memory.stage ≠ .fastForward) :
    ((task.start memory).map Call.failure?).Confined
      (fun memory' => Guarded memory' ∧ Unmoved call memory memory') fun _ => True :=
  confined_call htask hskip fun _ hskip' =>
    ⟨.inl hskip', fun hcall hfast => absurd hfast (hother hcall)⟩

/-- A walk leads to another one, or to a rest. -/
theorem confined_walking (stage : Step → Stage)
    (hnext : ∀ step, stage step = .walking ∨ stage step = .idle)
    (hstage : memory.stage = .walking ∨ memory.stage = .idle) :
    (((do
      let step ← walk settings
      enter (stage step)
      return step : Task Step).start memory).map Call.failure?).Confined
        (fun memory' => Guarded memory' ∧ Unmoved call memory memory') fun _ => True := by
  have hspares : Spares (fun memory => memory.stage = .walking ∨ memory.stage = .idle)
      fun _ => True := spares_of_moves fun _ _ h => h
  refine confined_call (hspares.walk.bind fun step =>
    Routine.Confined.bind (Routine.confined_remember fun _ _ => hnext step) fun _ =>
      Routine.confined_pure _) hstage fun memory' hstage' => ⟨.inr hstage', fun _ hfast => ?_⟩
  rcases hstage with hstage | hstage <;> rw [hfast] at hstage <;> cases hstage

/-- A call that begins while the walker is guarded leaves it guarded, and does not move the cursor by
passing over cached points. -/
theorem confined_work (h : Guarded memory)
    (hcall : call.recovers = true → memory.skipFastForward = true) :
    (call.work settings memory).Confined (fun memory' => Guarded memory' ∧ Unmoved call memory memory')
      fun _ => True := by
  cases call with
  | recover error =>
    exact confined_skipping (spares_skip.recover (fun _ => trivial) (fun _ _ => rfl) (fun _ h => h) error)
      (hcall rfl) nofun
  | advance =>
    obtain ⟨stage, cursor, skip⟩ := memory
    have hskip : stage ≠ .walking → stage ≠ .idle → skip = true :=
      fun hwalking hidle => h.resolve_right fun hstage => hstage.elim hwalking hidle
    cases stage with
    | bootstrap =>
      have hbootstrap : (bootstrap settings).Confined (fun memory => memory.skipFastForward = true)
          fun _ => True := spares_skip.bootstrap
      have hwork : Run.Confined (fun memory' => Guarded memory' ∧
          Unmoved .advance ⟨.bootstrap, cursor, skip⟩ memory') (fun _ => True) _ :=
        confined_skipping (hbootstrap.bind fun _ => confined_entering .fastForward)
          (hskip nofun nofun) nofun
      exact hwork
    | fastForward =>
      show Run.Confined _ _ (((fastForward settings ⟨.fastForward, cursor, skip⟩).bind _).map _)
      rw [fastForward_of_skip (hskip nofun nofun)]
      exact ⟨.inr (.inl rfl), fun _ _ => rfl⟩
    | walking => exact confined_walking _ (by rintro (_ | _) <;> simp) (.inl rfl)
    | idle => exact confined_walking _ (by rintro (_ | _) <;> simp) (.inr rfl)
    | recovering =>
      have hwork : Run.Confined (fun memory' => Guarded memory' ∧
          Unmoved .advance ⟨.recovering, cursor, skip⟩ memory') (fun _ => True) _ :=
        confined_skipping (confined_entering .bootstrap) (hskip nofun nofun) nofun
      exact hwork

/-- A walker that rests is guarded; one that works stays so, and does not move the cursor by passing over
cached points. -/
def Course.IsGuarded (s : Course) : Prop :=
  match s.phase with
  | .resting memory => Guarded memory
  | .working call began run =>
    run.Confined (fun memory => Guarded memory ∧ Unmoved call began memory) fun _ => True

theorem Course.IsGuarded.step (h : s.IsGuarded) (hstep : Course.Step .undisturbed settings s s') :
    s'.IsGuarded := by
  unfold Course.IsGuarded at h
  cases hstep with
  | call call hrest hcall =>
    rw [hrest] at h
    exact confined_work h hcall
  | answer hwait hanswer =>
    rw [hwait] at h
    exact h.2.2 _
  | finish hdone =>
    rw [hdone] at h
    exact h.1
  | abandon hwait hleaves =>
    rw [hwait] at h
    exact h.1.1
  | drift => exact h

/-- Once a recovery has moved the cursor back, no pass over cached points moves it until another recovery
begins after such a pass has been left out. -/
theorem unmoved_of_rewound (h : s.HasRewound tip)
    (hpath : Course.GoesOn .undisturbed settings s s') :
    ∀ began run, s'.phase = .working .advance began run → began.stage = .fastForward →
      s'.memory.cursor = began.cursor := by
  have hguarded : s'.IsGuarded := by
    induction hpath with
    | refl =>
      unfold Course.IsGuarded
      rw [show s.phase = _ from h]
      exact .inl rfl
    | tail _ hstep ih => exact ih.step hstep
  intro began run hphase hstage
  unfold Course.IsGuarded at hguarded
  unfold Course.memory
  rw [hphase] at hguarded ⊢
  cases run with
  | done memory failure => exact hguarded.2 rfl hstage
  | wait memory query resume => exact hguarded.1.2 rfl hstage

/-! ## A fork that is abandoned -/

/-- A node with three blocks that steps back to the first one when it is asked again, and is closed when it
is asked once more. -/
def sampleFork : Rehearsed where
  world := {
    heights := { best := 5 }
    outbox := .new 8
    node := {
      chain := ScriptedNode.sampleChain 3
      script := [{}, { next := some ⟨[], some (Tip.sample 1 0).point⟩ }, { error := some (.connection .closed) }] } }
  memory := Walker.new {}

/-- The calls until the cursor has been moved back. -/
def callsUntilRewound : List Call :=
  [.advance, .advance, .advance, .advance, .recover (.rolledBack (Tip.sample 1 0).point)]

/-- The blocks above the first one are replaced. -/
def Rehearsed.reorganised (r : Rehearsed) : Rehearsed :=
  r.amid fun w => { w with node := { w.node with
    chain := (ScriptedNode.sampleChain 4).map (ScriptedNode.forkedBlock 1 1) } }

/-- The abandoned tips are there, but the pass is left out. -/
theorem unmoved_of_rewound_sample :
    ∃ s s' began run, Course.Reachable {} {} s ∧ s.HasRewound (Tip.sample 1 0) ∧
      Course.GoesOn .undisturbed {} s s' ∧ s'.phase = .working .advance began run ∧
      began.stage = .fastForward ∧
      (s.shared.cache.entries.lookup (heightKey 2)).map CacheEntry.text
        = some (Tip.sample 2 0).toCacheText ∧
      s'.memory.cursor = began.cursor := by
  have hrun : ((sampleFork.calls {} {} callsUntilRewound).bind fun r₁ =>
      (r₁.reorganised.calls .undisturbed {} [.advance, .advance]).bind fun r₂ =>
        (follow (provides .undisturbed) r₂.world [] (Call.advance.work {} r₂.memory)).map fun _ =>
          (r₁.memory, (r₁.world.cache.entries.lookup (heightKey 2)).map CacheEntry.text,
            r₂.memory.stage))
      = some (⟨.recovering, Tip.sample 1 0, true⟩, some (Tip.sample 2 0).toCacheText, .fastForward) := by
    decide +kernel
  obtain ⟨r₁, hrewound, hr₂⟩ := Option.bind_eq_some_iff.mp hrun
  obtain ⟨r₂, hbegun, hr₃⟩ := Option.bind_eq_some_iff.mp hr₂
  obtain ⟨f, hfollow, hsummary⟩ := Option.map_eq_some_iff.mp hr₃
  obtain ⟨hmemory, hcached, hstage⟩ : r₁.memory = ⟨.recovering, Tip.sample 1 0, true⟩ ∧
      (r₁.world.cache.entries.lookup (heightKey 2)).map CacheEntry.text
        = some (Tip.sample 2 0).toCacheText ∧ r₂.memory.stage = .fastForward := by
    simpa only [Prod.mk.injEq] using hsummary
  obtain ⟨s₁, hpath₁, hshows₁⟩ := (Rehearsed.shows_start sampleFork.world sampleFork.memory).calls hrewound
  obtain ⟨s₂, hpath₂, hshows₂⟩ := (hshows₁.amid _).calls hbegun
  obtain ⟨s₃, hpath₃, -, hphase, -⟩ := hshows₂.begin (fun hback => absurd hback (by decide)) hfollow
  have hback : s₁.HasRewound (Tip.sample 1 0) := by rw [Course.HasRewound, hshows₁.phase, hmemory]
  have hpath := hpath₂.trans hpath₃
  refine ⟨s₁, s₃, r₂.memory, f.run, (Course.Reachable.start rfl).goesOn hpath₁, hback, hpath, hphase, hstage,
    ?_, unmoved_of_rewound hback hpath _ _ hphase hstage⟩
  rw [show s₁.shared = r₁.world.toFeedState from congrArg Shelf.shared hshows₁.shelf]
  exact hcached

/-- The walker fails again before it has written over the abandoned tips. The pass that follows this failure
moves the cursor from the tip to which it had been moved back over to an abandoned one that nobody has
written since. -/
theorem passes_over_abandoned :
    ∃ s s' began run, Course.Reachable {} {} s ∧ s.HasRewound (Tip.sample 1 0) ∧
      Course.GoesOn {} {} s s' ∧ s'.phase = .working .advance began run ∧
      began.stage = .fastForward ∧ began.cursor = Tip.sample 1 0 ∧
      s'.memory.cursor = Tip.sample 3 0 ∧
      (s.shared.cache.entries.lookup (heightKey 3)).map CacheEntry.text
        = some (Tip.sample 3 0).toCacheText ∧
      s'.written.filter (·.1 = heightKey 3) = s.written.filter (·.1 = heightKey 3) := by
  have hrun : ((sampleFork.calls {} {} callsUntilRewound).bind fun r₁ =>
      (r₁.reorganised.calls {} {} [.advance, .advance, .advance, .advance,
          .recover (.node (.connection .closed)), .advance, .advance]).bind fun r₂ =>
        (follow (provides {}) r₂.world [] (Call.advance.work {} r₂.memory)).map fun f =>
          (r₁.memory, r₂.memory, f.run.memory.cursor,
            (r₁.world.cache.entries.lookup (heightKey 3)).map CacheEntry.text,
            ((f.entries ++ r₂.written).filter (·.1 = heightKey 3)
              = r₁.written.filter (·.1 = heightKey 3) : Bool)))
      = some (⟨.recovering, Tip.sample 1 0, true⟩, ⟨.fastForward, Tip.sample 1 0, false⟩,
          Tip.sample 3 0, some (Tip.sample 3 0).toCacheText, true) := by
    decide +kernel
  obtain ⟨r₁, hrewound, hr₂⟩ := Option.bind_eq_some_iff.mp hrun
  obtain ⟨r₂, hbegun, hr₃⟩ := Option.bind_eq_some_iff.mp hr₂
  obtain ⟨f, hfollow, hsummary⟩ := Option.map_eq_some_iff.mp hr₃
  simp only [Prod.mk.injEq, decide_eq_true_eq] at hsummary
  obtain ⟨hmemory₁, hmemory₂, hcursor, hcached, hwritten⟩ := hsummary
  obtain ⟨s₁, hpath₁, hshows₁⟩ := (Rehearsed.shows_start sampleFork.world sampleFork.memory).calls hrewound
  obtain ⟨s₂, hpath₂, hshows₂⟩ := (hshows₁.amid _).calls hbegun
  obtain ⟨s₃, hpath₃, hshelf, hphase, -⟩ := hshows₂.begin trivial hfollow
  refine ⟨s₁, s₃, r₂.memory, f.run, (Course.Reachable.start rfl).goesOn hpath₁, ?_, hpath₂.trans hpath₃,
    hphase, ?_, ?_, ?_, ?_, ?_⟩
  · rw [Course.HasRewound, hshows₁.phase, hmemory₁]
  · rw [hmemory₂]
  · rw [hmemory₂]
  · rw [Course.memory, hphase]
    exact hcursor
  · rw [show s₁.shared = r₁.world.toFeedState from congrArg Shelf.shared hshows₁.shelf]
    exact hcached
  · rw [show s₃.written = f.entries ++ r₂.written from congrArg Shelf.written hshelf,
      show s₁.written = r₁.written from congrArg Shelf.written hshows₁.shelf]
    exact hwritten

end

end BlockFeed.Walker
