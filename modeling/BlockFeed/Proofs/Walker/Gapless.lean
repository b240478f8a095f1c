import BlockFeed.Proofs.Walker.Rehearsed
import BlockFeed.Proofs.Walker.Upkept

/-!
# A cache without holes

A walker begins with an empty cache whose entries do not expire, and its node numbers the next points on
from the cursor. Whatever is called in whatever order, whatever fails and wherever the walker is given up,
there is an entry at every height between the checkpoint and the cursor, and likewise below the cursor that
is stored (`gapless_of_reachable`).
-/

namespace BlockFeed.Walker

open Simulation (ScriptedNode)

/-- Nothing expires, and the node numbers on. -/
abbrev Rules.gapless : Rules := { admits := PointCache.Lasts, tells := NumbersOn }

/-- What is known of a node that numbers on. -/
def Terms.gapless (settings : WalkerSettings) : Terms where
  settings := settings
  fits _ := True
  fits_checkpoint := trivial
  steady := False
  last := 0

theorem suits_gapless (settings : WalkerSettings) : (Terms.gapless settings).Suits .gapless where
  lasts _ _ h := h
  calls h := h.elim
  points _ _ next _ _ htold :=
    ⟨(htold next rfl).1, fun _ _ => trivial, fun h => h.elim⟩
  best _ _ h := h.elim

section
variable {settings : WalkerSettings} {s : Course}

/-- At any moment every entry of a height holds a tip of this height, every height between the checkpoint
and the cursor is cached, the stored cursor is the checkpoint or has every height below it cached, the
cursor is not below the checkpoint, and a recovery has not raised it. -/
theorem gapless_of_reachable (h : Course.Reachable .gapless settings s) :
    (∀ height entry, s.shared.cache.entries.lookup (heightKey height) = some entry →
      ∃ tip, Tip.ofCacheText? entry.text = some tip ∧ tip.number = height) ∧
    (∀ height, settings.startPoint.tip.number < height → height ≤ s.memory.cursor.number →
      (s.shared.cache.entries.lookup (heightKey height)).isSome = true) ∧
    (∀ entry, s.shared.cache.entries.lookup cursorKey = some entry →
      ∃ tip, Tip.ofCacheText? entry.text = some tip ∧ (tip = settings.startPoint.tip ∨
        ∀ height, settings.startPoint.tip.number < height → height ≤ tip.number →
          (s.shared.cache.entries.lookup (heightKey height)).isSome = true)) ∧
    settings.startPoint.tip.number ≤ s.memory.cursor.number ∧
    ∀ error began run, s.phase = .working (.recover error) began run →
      s.memory.cursor.number ≤ began.cursor.number := by
  have hkept : Upkept (Terms.gapless settings) s := .of_reachable (suits_gapless settings) h
  have hcovered : ∀ tip, (Terms.gapless settings).Placed s.written tip → ∀ height,
      settings.startPoint.tip.number < height → height ≤ tip.number →
      (s.shared.cache.entries.lookup (heightKey height)).isSome = true := by
    intro tip hplaced height habove hle
    rw [UInt64.lt_iff_toNat_lt] at habove
    rw [UInt64.le_iff_toNat_le] at hle
    exact hkept.isSome_lookup (hplaced.covered height habove hle)
  refine ⟨fun height entry hentry => ?_, hcovered _ hkept.inOrder.placed, fun entry hentry => ?_,
    UInt64.le_iff_toNat_le.mpr hkept.inOrder.placed.low, fun _ _ _ => hkept.lowered⟩
  · have hshows := hkept.shows (heightKey height)
    rw [hentry] at hshows
    obtain ⟨tip, -, hnumber, htext⟩ := hkept.inOrder.of_lookup hshows.symm
    exact ⟨tip, by rw [htext, Tip.ofCacheText?_toCacheText], hnumber⟩
  · have hshows := hkept.shows cursorKey
    rw [hentry] at hshows
    obtain ⟨tip, hplaced, htext⟩ := hkept.inOrder.of_lookup_cursor hshows.symm
    exact ⟨tip, by rw [htext, Tip.ofCacheText?_toCacheText], .inr (hcovered tip hplaced)⟩

/-- The node steps back to the second of four tips, and the cursor cannot be stored then. -/
theorem gapless_of_reachable_rewound :
    ∃ s, Course.Reachable .gapless {} s ∧ s.memory.cursor.number = 2 ∧
      (s.shared.cache.entries.lookup (heightKey 1)).isSome = true ∧
      (s.shared.cache.entries.lookup (heightKey 2)).isSome = true := by
  let first : Rehearsed := {
    world := {
      heights := { best := 5 }
      outbox := .new 8
      node := {
        chain := ScriptedNode.sampleChain 4
        script := [{}, { next := some ⟨[], some (Tip.sample 2 0).point⟩ }] } }
    memory := Walker.new {} }
  have hrun : (((first.calls .gapless {} [.advance, .advance, .advance, .advance]).bind fun r =>
        (r.amid fun w => { w with unwritable := [cursorKey] }).calls .gapless {}
          [.recover (.rolledBack (Tip.sample 2 0).point)]).map fun r => r.memory.cursor.number)
      = some 2 := by
    decide +kernel
  obtain ⟨r₂, hr₂, hnumber⟩ := Option.map_eq_some_iff.mp hrun
  obtain ⟨r₁, hwalked, hrewound⟩ := Option.bind_eq_some_iff.mp hr₂
  obtain ⟨s₁, hpath₁, hshows₁⟩ := (Rehearsed.shows_start first.world first.memory).calls hwalked
  obtain ⟨s₂, hpath₂, hshows₂⟩ := (hshows₁.amid _).calls hrewound
  have hreach : Course.Reachable .gapless {} s₂ :=
    (Course.Reachable.start rfl).goesOn (hpath₁.trans hpath₂)
  have hcursor : s₂.memory.cursor.number = 2 := by
    rw [Course.memory, hshows₂.phase]
    exact hnumber
  have hcached := (gapless_of_reachable hreach).2.1
  rw [hcursor] at hcached
  exact ⟨s₂, hreach, hcursor, hcached 1 (by decide) (by decide), hcached 2 (by decide) (by decide)⟩

end

end BlockFeed.Walker
