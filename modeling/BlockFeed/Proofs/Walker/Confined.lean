import BlockFeed.Proofs.Contract
import BlockFeed.Walker.Basic

/-!
# What a walker asks and remembers

Each part of the walker is confined: but for the node it asks the cache and takes measurements, it writes
nothing but its cursor unless it walks, and it moves its cursor without touching the rest of its memory.
So a condition on the stage goes on holding while a stage is at work, and so does one on the pass over
cached points that is to be left out.
-/

namespace BlockFeed.Walker

open Surroundings (Query)

/-- The memory tells the cursor. -/
theorem keeps_cursorNow {W : Type} {c : Contract Surroundings Walker W} {w : W} {memory : Walker}
    {ok : W → Walker → Tip → Prop} {failed : W → Walker → Abort WalkerError → Prop} :
    cursorNow.Keeps c ok failed w memory ↔ ok w memory memory.cursor := Iff.rfl

/-- A pass over cached points that is left out asks nothing, and changes nothing but the flag. -/
theorem fastForward_of_skip {settings : WalkerSettings} {memory : Walker}
    (hskip : memory.skipFastForward = true) :
    fastForward settings memory = .done { memory with skipFastForward := false } (.ok ()) := by
  show (if memory.skipFastForward = true then
    Routine.remember fun w => { w with skipFastForward := false } else _ : Task Unit) memory = _
  rw [if_pos hskip]
  rfl

/-- The condition does not depend on the cursor, and a walker may use the cache for its cursor. -/
structure Spares (holds : Walker → Prop) (asks : Query → Prop) : Prop where
  moves : ∀ memory cursor, holds memory → holds { memory with cursor }
  reads : ∀ key, asks (.readCache key)
  stores : ∀ text lifetime, asks (.writeCache cursorKey text lifetime)
  notes : ∀ m, asks (.note m)

section
variable {holds : Walker → Prop} {asks : Query → Prop} {settings : WalkerSettings}

theorem confined_cursorNow : Routine.Confined holds asks cursorNow :=
  Routine.confined_current.bind fun _ => Routine.confined_pure _

namespace Spares

theorem moveTo (h : Spares holds asks) (tip : Tip) : Routine.Confined holds asks (moveTo tip) :=
  Routine.confined_remember fun memory => h.moves memory tip

theorem showHeight (h : Spares holds asks) : Routine.Confined holds asks showHeight :=
  confined_cursorNow.bind fun _ => Routine.confined_ask (h.notes _)

theorem readTip (h : Spares holds asks) (key : String) :
    Routine.Confined holds asks (Work.readTip WalkerError.cache key) :=
  (Routine.confined_ask (h.reads key)).bind fun _ =>
    (Routine.confined_ofExcept _ _).bind fun _ => Routine.confined_ofExcept _ _

theorem storeCursor (h : Spares holds asks) :
    Routine.Confined holds asks (storeCursor settings) := by
  refine confined_cursorNow.bind fun cursor => ?_
  refine Routine.Confined.bind ?_ fun _ => h.showHeight
  exact (Routine.confined_ask (h.stores _ _)).bind fun _ => Routine.confined_ofExcept _ _

theorem bootstrap (h : Spares holds asks) : Routine.Confined holds asks (bootstrap settings) :=
  (h.readTip cursorKey).bind fun _ => (h.moveTo _).bind fun _ => h.showHeight

theorem adoptCached (h : Spares holds asks) (above : Nat) :
    Routine.Confined holds asks (adoptCached above) := by
  induction above with
  | zero => exact Routine.confined_fail _
  | succ above ih =>
    refine confined_cursorNow.bind fun cursor => (Routine.confined_ofExcept _ _).bind fun next => ?_
    refine (h.readTip (heightKey next)).bind fun found => ?_
    cases found with
    | none => exact Routine.confined_pure _
    | some tip =>
      dsimp only
      split
      · exact (h.moveTo tip).bind fun _ => ih
      · exact Routine.confined_pure _

theorem fastForward (h : Spares holds asks)
    (hpassed : ∀ memory, holds memory → holds { memory with skipFastForward := false }) :
    Routine.Confined holds asks (fastForward settings) := by
  refine Routine.confined_current.bind fun walker => ?_
  split
  · exact Routine.confined_remember hpassed
  · refine (h.adoptCached _).bind fun _ => confined_cursorNow.bind fun cursor => ?_
    split
    · exact h.storeCursor
    · exact Routine.confined_pure _

theorem findAmong (h : Spares holds asks) (point : Point) (heights : List UInt64) :
    Routine.Confined holds asks (findAmong point heights) := by
  induction heights with
  | nil => exact Routine.confined_pure _
  | cons height rest ih =>
    refine (h.readTip (heightKey height)).bind fun found => ?_
    cases found with
    | none => exact ih
    | some tip =>
      dsimp only
      split
      · exact Routine.confined_pure _
      · split
        · exact Routine.confined_pure _
        · exact ih

theorem probeAmong (h : Spares holds asks) (hprobes : ∀ point, asks (.findIntersect point))
    (top : UInt64) (offsets : List UInt64) : Routine.Confined holds asks (probeAmong top offsets) := by
  induction offsets with
  | nil => exact Routine.confined_pure _
  | cons offset rest ih =>
    refine (h.readTip (heightKey (top - offset))).bind fun found => ?_
    cases found with
    | none => exact ih
    | some tip =>
      refine (Routine.confined_ask (hprobes tip.point)).bind fun answer =>
        (Routine.confined_ofExcept _ _).bind fun intersection => ?_
      cases intersection with
      | notFound => exact ih
      | found point nodeTip =>
        dsimp only
        split
        · exact Routine.confined_pure _
        · exact ih

theorem findTarget (h : Spares holds asks) (target : Option Point) :
    Routine.Confined holds asks (findTarget target) := by
  cases target with
  | none => exact Routine.confined_pure _
  | some point =>
    dsimp only [Walker.findTarget]
    split
    · exact Routine.confined_pure _
    · exact confined_cursorNow.bind fun _ => h.findAmong point _

theorem rewind (h : Spares holds asks) (hprobes : ∀ point, asks (.findIntersect point))
    (hskips : ∀ memory, holds memory → holds { memory with skipFastForward := true })
    (target : Option Point) : Routine.Confined holds asks (rewind settings target) := by
  have hmove : ∀ onChain : Option Tip, Routine.Confined holds asks (do
      Walker.moveTo (onChain.getD settings.startPoint.tip)
      Routine.remember fun w => { w with skipFastForward := true }
      Walker.storeCursor settings) := fun onChain =>
    (h.moveTo _).bind fun _ => (Routine.confined_remember hskips).bind fun _ => h.storeCursor
  refine (h.findTarget target).bind fun found => ?_
  cases found with
  | some tip => exact hmove (some tip)
  | none =>
    exact (confined_cursorNow.bind fun _ => h.probeAmong hprobes _ _).bind hmove

theorem recover (h : Spares holds asks) (hprobes : ∀ point, asks (.findIntersect point))
    (hskips : ∀ memory, holds memory → holds { memory with skipFastForward := true })
    (henters : ∀ memory, holds memory → holds { memory with stage := .recovering })
    (error : WalkerError) : Routine.Confined holds asks (recover settings error) := by
  have hrewind : ∀ target, Routine.Confined holds asks
      (Work.regardless (Walker.rewind settings target) : Task Unit) := fun target =>
    Work.confined_regardless (h.rewind hprobes hskips target)
  refine (Routine.confined_ask (h.notes _)).bind fun _ =>
    (Routine.confined_remember henters).bind fun _ => ?_
  cases error with
  | rolledBack point => exact hrewind (some point)
  | intersectNotFound => exact hrewind none
  | node | cache | stalled => exact Routine.confined_pure _

theorem publish (h : Spares holds asks) (tips : List Tip)
    (hwrites : ∀ tip ∈ tips, ∀ lifetime,
      asks (.writeCache (heightKey tip.number) tip.toCacheText lifetime)) :
    Routine.Confined holds asks (publish settings tips) := by
  induction tips with
  | nil => exact Routine.confined_pure _
  | cons tip rest ih =>
    have hrest := ih fun other hother => hwrites other (List.mem_cons_of_mem _ hother)
    refine confined_cursorNow.bind fun cursor => ?_
    split
    · refine Routine.Confined.bind ?_ fun _ => (h.moveTo tip).bind fun _ =>
        hrest.bind fun _ => Routine.confined_pure _
      exact (Routine.confined_ask (hwrites tip List.mem_cons_self _)).bind fun _ =>
        Routine.confined_ofExcept _ _
    · exact hrest

/-- What a walk does once the node has named the next points. -/
theorem walkOn (h : Spares holds asks) (cursor : Tip) {next : NextPoints}
    (hwrites : ∀ tip ∈ next.tips, ∀ lifetime,
      asks (.writeCache (heightKey tip.number) tip.toCacheText lifetime)) :
    Routine.Confined holds asks (if next.tips.isEmpty && next.rolledBackTo.isNone then
        Work.fail (.intersectNotFound cursor)
      else do
        let written ← Walker.publish settings next.tips
        if 0 < written then Walker.storeCursor settings
        match next.rolledBackTo with
        | some point => Work.fail (.rolledBack point)
        | none => return .progressed : Task Step) := by
  have hend : Routine.Confined holds asks (match next.rolledBackTo with
      | some point => Work.fail (.rolledBack point)
      | none => pure .progressed : Task Step) := by
    cases next.rolledBackTo with
    | some point => exact Routine.confined_fail _
    | none => exact Routine.confined_pure _
  split
  · exact Routine.confined_fail _
  · refine (h.publish next.tips hwrites).bind fun count => ?_
    by_cases hcount : 0 < count
    · rw [if_pos hcount]
      exact h.storeCursor.bind fun _ => hend
    · rw [if_neg hcount]
      exact hend

/-- A walk may ask anything. -/
theorem walk (h : Spares holds fun _ => True) :
    Routine.Confined holds (fun _ => True) (walk settings) := by
  refine (Routine.confined_ask trivial).bind fun best => confined_cursorNow.bind fun cursor => ?_
  dsimp only
  split
  · exact Routine.confined_pure _
  · exact (Routine.confined_ask trivial).bind fun answer =>
      (Routine.confined_ofExcept _ _).bind fun next => h.walkOn cursor fun _ _ _ => trivial

end Spares

/-- A condition on the memory that does not depend on the cursor goes on holding whatever is asked. -/
theorem spares_of_moves {holds : Walker → Prop}
    (h : ∀ memory cursor, holds memory → holds { memory with cursor }) :
    Spares holds fun _ => True :=
  ⟨h, fun _ => trivial, fun _ _ => trivial, fun _ => trivial⟩

/-- While the next pass is to be left out, a condition that this stays so goes on holding. -/
theorem spares_skip : Spares (fun memory => memory.skipFastForward = true) fun _ => True :=
  spares_of_moves fun _ _ h => h

theorem confined_entering (stage : Stage) :
    (do
      enter stage
      return .progressed : Task Step).Confined (fun memory => memory.skipFastForward = true)
        fun _ => True :=
  Routine.Confined.bind (Routine.confined_remember fun _ hskip => hskip) fun _ => Routine.confined_pure _

end

end BlockFeed.Walker
