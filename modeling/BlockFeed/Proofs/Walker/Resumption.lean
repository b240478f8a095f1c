import Mathlib.Data.List.Nodup
import BlockFeed.Proofs.Walker.Rehearsed
import BlockFeed.Proofs.Walker.Upkept

/-!
# Resuming after failures

The node holds one chain, and the walker is called as its service calls it: a failure is followed by a
recovery, and the walker begins again. Nothing expires. However often and wherever it fails or is given up,
the tips that have been published are the first ones of the chain, each of them once and in order
(`resumed_of_reachable`): the stored cursor lags behind the tips, but the pass over cached points makes up
for it before the node is asked again.
-/

namespace BlockFeed

open Surroundings (Query)
open Simulation (ScriptedNode)

/-- A chain that goes on from a checkpoint. -/
structure Branch (checkpoint : Tip) where
  tips : List Tip
  numbered : tips.map (·.number.toNat) = List.range' (checkpoint.number.toNat + 1) tips.length
  distinct : ((checkpoint :: tips).map Tip.point).Nodup

namespace Branch

variable {checkpoint : Tip} (branch : Branch checkpoint)

/-- The checkpoint and all tips. -/
def all : List Tip := checkpoint :: branch.tips

/-- The number of the last tip. -/
def last : Nat := checkpoint.number.toNat + branch.tips.length

/-- The tips after a point, if it is on the chain. -/
def after (point : Point) : List Tip := (branch.all.dropWhile (·.point ≠ point)).drop 1

/-- What a node may tell that holds the chain: tips after the point, as many as are asked for or fewer, but
some if there are any. What it claims to have confirmed at some depth does not lie above the chain. -/
def Tells (depth : UInt64) : (query : Query) → query.Answer → Prop
  | .pointsAfter start limit, answer => ∀ next, answer = Except.ok next →
    next.tips <+: branch.after start ∧ next.tips.length ≤ limit.toNat ∧
      (next.tips = [] → branch.after start = [] ∨ limit = 0) ∧ next.rolledBackTo = none
  | .bestHeight, best => (Word.satSub best depth).toNat ≤ branch.last
  | _, _ => True

variable {branch} {tip other : Tip}

theorem numbers_all (branch : Branch checkpoint) :
    branch.all.map (·.number.toNat)
      = List.range' checkpoint.number.toNat (branch.tips.length + 1) := by
  rw [all, List.map_cons, branch.numbered, List.range'_succ]

/-- Heights tell the tips of the chain apart. -/
theorem eq_of_number (h : tip ∈ branch.all) (hother : other ∈ branch.all)
    (hnumber : tip.number = other.number) : tip = other := by
  have hnodup : (branch.all.map (·.number.toNat)).Nodup := by
    rw [numbers_all]
    exact List.nodup_range'
  exact List.inj_on_of_nodup_map hnodup h hother (congrArg UInt64.toNat hnumber)

/-- The tips after a tip are numbered on from it. -/
theorem after_point (h : tip ∈ branch.all) :
    branch.after tip.point ⊆ branch.tips ∧
      (branch.after tip.point).map (·.number.toNat)
        = List.range' (tip.number.toNat + 1) (branch.last - tip.number.toNat) := by
  obtain ⟨before, rest, hsplit⟩ := List.append_of_mem h
  have hdistinct := branch.distinct
  rw [show checkpoint :: branch.tips = before ++ tip :: rest from hsplit, List.map_append,
    List.map_cons, List.nodup_append] at hdistinct
  have hbefore : ∀ earlier ∈ before, earlier.point ≠ tip.point := fun earlier hearlier =>
    hdistinct.2.2 _ (List.mem_map_of_mem hearlier) _ List.mem_cons_self
  have hafter : branch.after tip.point = rest := by
    rw [after, hsplit, List.dropWhile_append_of_pos fun earlier hearlier => by
      simpa using hbefore earlier hearlier, List.dropWhile_cons_of_neg (by simp)]
    rfl
  have hnumbers := branch.numbers_all
  rw [hsplit, List.map_append, List.map_cons, eq_comm, List.range'_eq_append_iff] at hnumbers
  obtain ⟨k, hk, -, hrest⟩ := hnumbers
  rw [eq_comm, List.range'_eq_cons_iff] at hrest
  obtain ⟨hnumber, hpos, hrest⟩ := hrest
  rw [hafter]
  constructor
  · intro later hlater
    cases before with
    | nil => exact (List.cons.inj hsplit).2 ▸ hlater
    | cons first before =>
      rw [(List.cons.inj hsplit).2]
      exact List.mem_append_right before (List.mem_cons_of_mem tip hlater)
  · rw [hrest, last]
    congr 1
    omega

/-- The chain lies above the checkpoint. -/
theorem above_of_mem (branch : Branch checkpoint) {height : UInt64}
    (h : height ∈ branch.tips.map Tip.number) : checkpoint.number.toNat < height.toNat := by
  obtain ⟨tip, htip, rfl⟩ := List.mem_map.mp h
  have hnumber : tip.number.toNat ∈ branch.tips.map (·.number.toNat) := List.mem_map_of_mem htip
  rw [branch.numbered, List.mem_range'_1] at hnumber
  exact hnumber.1

/-- Tips of the chain are told apart by their heights, also in lists. -/
theorem eq_of_map_number {tips others : List Tip} (h : tips ⊆ branch.all) (hothers : others ⊆ branch.all)
    (hnumbers : tips.map Tip.number = others.map Tip.number) : tips = others := by
  induction tips generalizing others with
  | nil => exact (List.map_eq_nil_iff.mp hnumbers.symm).symm
  | cons tip rest ih =>
    cases others with
    | nil => cases hnumbers
    | cons other others =>
      rw [List.map_cons, List.map_cons, List.cons.injEq] at hnumbers
      obtain ⟨htip, hrest⟩ := List.cons_subset.mp h
      obtain ⟨hother, hothers⟩ := List.cons_subset.mp hothers
      rw [eq_of_number htip hother hnumbers.1, ih hrest hothers hnumbers.2]

end Branch

namespace Walker

/-- Calls are made as a service makes them, nothing expires, and the node holds a chain. -/
abbrev Rules.ofBranch {checkpoint : Tip} (branch : Branch checkpoint) (depth : UInt64) : Rules where
  calls _ owed call := call.IsDue owed
  admits := PointCache.Lasts
  tells _ := branch.Tells depth

/-- What is known of a node that holds a chain. -/
def Terms.ofBranch (settings : WalkerSettings) (branch : Branch settings.startPoint.tip) : Terms where
  settings := settings
  fits tip := tip ∈ branch.all
  fits_checkpoint := List.mem_cons_self
  steady := True
  last := branch.last

section
variable {settings : WalkerSettings} {branch : Branch settings.startPoint.tip}
  {written : List (String × String)} {memory : Walker} {tip : Tip} {s : Course}

theorem suits_ofBranch (settings : WalkerSettings) (branch : Branch settings.startPoint.tip) :
    (Terms.ofBranch settings branch).Suits (.ofBranch branch settings.confirmationDepth) where
  lasts _ _ h := h
  calls _ _ _ _ h := h
  best _ _ _ h := h
  points asker limit next hfits hsteady htold := by
    obtain ⟨hlimit, hlast⟩ := hsteady trivial
    obtain ⟨⟨rest, hnamed⟩, -, hsome, hback⟩ := htold next rfl
    obtain ⟨hsub, hnumbers⟩ := Branch.after_point hfits
    refine ⟨?_, fun tip htip => ?_, fun _ => ⟨fun hnone => ?_, hback⟩⟩
    · rw [← hnamed, List.map_append, eq_comm, List.range'_eq_append_iff] at hnumbers
      obtain ⟨k, -, hnumbers, -⟩ := hnumbers
      rw [hnumbers, show k = next.tips.length by simpa using (congrArg List.length hnumbers).symm]
    · exact List.mem_cons_of_mem _ (hsub (hnamed ▸ List.mem_append_left rest htip))
    · -- the cursor is below the last tip, so there are tips after it
      rw [(hsome hnone).resolve_right hlimit] at hnumbers
      have := congrArg List.length hnumbers
      simp only [List.map_nil, List.length_nil, List.length_range'] at this
      exact absurd (show asker.cursor.number.toNat < branch.last from hlast) (by omega)

/-- A published tip is one of the chain. -/
theorem mem_tips_of_published (h : (Terms.ofBranch settings branch).InOrder written memory)
    (htip : tip ∈ published written) : tip ∈ branch.tips := by
  obtain ⟨hplaced, habove⟩ := h.of_published htip
  rcases List.mem_cons.mp hplaced.fits with rfl | hmem
  · exact absurd habove (Nat.lt_irrefl _)
  · exact hmem

/-- A cursor above which no tip has been published is the last tip that has been published, or the
checkpoint. -/
theorem cursor_eq_of_isTop (h : (Terms.ofBranch settings branch).InOrder written memory)
    (htop : IsTop written memory.cursor) :
    memory.cursor = (published written).head?.getD settings.startPoint.tip := by
  have hlow : settings.startPoint.tip.number.toNat ≤ memory.cursor.number.toNat := h.placed.low
  have hcached : settings.startPoint.tip.number.toNat < memory.cursor.number.toNat →
      Cached written memory.cursor.number := fun habove =>
    h.placed.covered _ habove (Nat.le_refl _)
  have hdescends := h.descends trivial
  cases hpublished : published written with
  | nil =>
    refine Branch.eq_of_number h.placed.fits List.mem_cons_self (UInt64.toNat_inj.mp ?_)
    refine Nat.le_antisymm (Nat.le_of_not_lt fun habove => ?_) hlow
    obtain ⟨tip, htip, -⟩ := hcached habove
    rw [hpublished] at htip
    cases htip
  | cons latest earlier =>
    have hlatest : latest ∈ published written := hpublished ▸ List.mem_cons_self
    refine Branch.eq_of_number h.placed.fits (List.mem_cons_of_mem _ (mem_tips_of_published h hlatest))
      (UInt64.toNat_inj.mp (Nat.le_antisymm (Nat.le_of_not_lt fun habove => ?_) (htop latest hlatest)))
    -- a tip at the cursor would be above the latest one
    have hchecked : settings.startPoint.tip.number.toNat < latest.number.toNat :=
      (h.of_published hlatest).2
    obtain ⟨tip, htip, hnumber⟩ := hcached (hchecked.trans habove)
    rw [hpublished] at htip hdescends
    rw [← hnumber] at habove
    rcases List.mem_cons.mp htip with rfl | htip
    · exact Nat.lt_irrefl _ habove
    · exact Nat.lt_asymm habove ((List.pairwise_cons.mp hdescends).1 tip htip)

/-- The tips that have been published are the first ones of the chain. -/
theorem published_isPrefix (h : (Terms.ofBranch settings branch).InOrder written memory) :
    (published written).reverse <+: branch.tips := by
  have hascends : ((published written).reverse.map Tip.number).Pairwise (· < ·) := by
    rw [List.pairwise_map, List.pairwise_reverse]
    exact (h.descends trivial).imp UInt64.lt_iff_toNat_lt.mpr
  have hall : (branch.tips.map Tip.number).Pairwise (· < ·) := by
    have hnumbered : (branch.tips.map (·.number.toNat)).Pairwise (· < ·) := by
      rw [branch.numbered]
      exact List.pairwise_lt_range'
    rw [List.pairwise_map] at hnumbered ⊢
    exact hnumbered.imp UInt64.lt_iff_toNat_lt.mpr
  have hsub : (published written).reverse ⊆ branch.tips := fun tip htip =>
    mem_tips_of_published h (List.mem_reverse.mp htip)
  have hlower : ∀ height ∈ (published written).reverse.map Tip.number,
      ∀ other ∈ branch.tips.map Tip.number, other < height →
        other ∈ (published written).reverse.map Tip.number := by
    intro height hheight other hother hlt
    obtain ⟨tip, htip, rfl⟩ := List.mem_map.mp hheight
    have habove := branch.above_of_mem hother
    obtain ⟨lower, hlower, rfl⟩ := (h.of_published (List.mem_reverse.mp htip)).1.covered other habove
      (Nat.le_of_lt (UInt64.lt_iff_toNat_lt.mp hlt))
    exact List.mem_map_of_mem (List.mem_reverse.mpr hlower)
  obtain ⟨rest, hrest⟩ := Window.isPrefix_of_ascending hascends hall (List.map_subset _ hsub) hlower
  obtain ⟨first, others, htips, hfirst, -⟩ := List.map_eq_append_iff.mp hrest.symm
  have hequal : (published written).reverse = first := by
    have hall : (published written).reverse ⊆ branch.all := List.subset_cons_of_subset _ hsub
    have hothers : first ⊆ branch.all := by
      rw [Branch.all, htips]
      exact List.subset_cons_of_subset _ (List.subset_append_left first others)
    exact Branch.eq_of_map_number hall hothers hfirst.symm
  rw [hequal, htips]
  exact List.prefix_append first others

/-- What has been written but for cursors is what has been published. -/
theorem filter_eq_published {terms : Terms} (h : terms.InOrder written memory) :
    written.filter (·.1 ≠ cursorKey)
      = (published written).map fun tip => (heightKey tip.number, tip.toCacheText) := by
  have htips : ∀ entry ∈ written.filter (·.1 ≠ cursorKey),
      ∃ tip : Tip, entry = (heightKey tip.number, tip.toCacheText) := by
    intro entry hentry
    obtain ⟨hmem, hkey⟩ := List.mem_filter.mp hentry
    cases h.records entry hmem with
    | tip => exact ⟨_, rfl⟩
    | cursor => simp at hkey
  unfold published
  generalize written.filter (·.1 ≠ cursorKey) = entries at htips ⊢
  induction entries with
  | nil => rfl
  | cons entry rest ih =>
    obtain ⟨⟨tip, rfl⟩, hrest⟩ := List.forall_mem_cons.mp htips
    rw [List.filterMap_cons, Tip.ofCacheText?_toCacheText, List.map_cons, ← ih hrest]

/-- The tips that have been published are the first ones of the chain, each of them published once and in
order. The node is asked for nothing but what follows the last of them, or the checkpoint. Every entry of a
height is the tip of the chain at this height. Once the walker has passed over what is cached, the cursor
is at the last tip that has been published. -/
theorem resumed_of_reachable
    (h : Course.Reachable (.ofBranch branch settings.confirmationDepth) settings s) :
    ∃ tips, tips <+: branch.tips ∧
      (s.written.filter (·.1 ≠ cursorKey)).reverse
        = tips.map (fun tip => (heightKey tip.number, tip.toCacheText)) ∧
      ((s.written.filter (·.1 ≠ cursorKey)).map Prod.fst).Nodup ∧
      (∀ query, s.Asks query → query.isElsewhere = true → ∃ limit,
        query = .pointsAfter (tips.getLast?.getD settings.startPoint.tip).point limit) ∧
      (∀ height entry, s.shared.cache.entries.lookup (heightKey height) = some entry →
        ∃ tip ∈ tips, tip.number = height ∧ entry.text = tip.toCacheText) ∧
      ∀ memory, s.phase = .resting memory → s.owed = none →
        memory.stage = .walking ∨ memory.stage = .idle →
        memory.cursor = tips.getLast?.getD settings.startPoint.tip := by
  have hkept : Upkept (Terms.ofBranch settings branch) s :=
    .of_reachable (suits_ofBranch settings branch) h
  have horder := hkept.inOrder
  have hphase := hkept.phase
  have hwritten := filter_eq_published horder
  refine ⟨(published s.written).reverse, published_isPrefix horder, ?_, ?_, ?_, ?_, ?_⟩
  · rw [hwritten, List.map_reverse]
  · rw [hwritten, List.map_map, List.nodup_iff_pairwise_ne, List.pairwise_map]
    refine (horder.descends trivial).imp fun hlt heq => ?_
    exact Nat.ne_of_lt hlt (congrArg UInt64.toNat (heightKey_inj.mp heq).symm)
  · rintro query ⟨call, began, memory, resume, hasks⟩ helsewhere
    rw [hasks] at hphase
    obtain ⟨htended, hmay⟩ := hphase.allows
    cases query with
    | pointsAfter start limit =>
      obtain ⟨-, rfl, hsteady⟩ := hmay
      refine ⟨limit, ?_⟩
      rw [List.getLast?_reverse, ← cursor_eq_of_isTop htended.toInOrder (hsteady trivial).1]
    | findIntersect => exact absurd trivial hmay
    | tipHeader | fetchBlock | hints => exact hmay.elim
    | _ => cases helsewhere
  · intro height entry hentry
    have hshows := hkept.shows (heightKey height)
    rw [hentry] at hshows
    obtain ⟨tip, htip, hnumber, htext⟩ := horder.of_lookup hshows.symm
    exact ⟨tip, List.mem_reverse.mpr htip, hnumber, htext⟩
  · intro memory hrests howed hstage
    rw [hrests] at hphase
    rw [List.getLast?_reverse, ← cursor_eq_of_isTop hphase.toInOrder (hphase.atTop trivial howed hstage)]

/-- A chain of four tips. -/
def sampleBranch : Branch (WalkerSettings.startPoint {}).tip where
  tips := (ScriptedNode.sampleChain 4).map Block.tip
  numbered := by decide +kernel
  distinct := by decide +kernel

instance (asker : Walker) (query : Query) (answer : query.Answer) :
    Decidable ((Rules.ofBranch sampleBranch 0).tells asker query answer) :=
  match query, answer with
  | .pointsAfter start limit, .ok next =>
    decidable_of_iff (next.tips <+: sampleBranch.after start ∧ next.tips.length ≤ limit.toNat ∧
        (next.tips = [] → sampleBranch.after start = [] ∨ limit = 0) ∧ next.rolledBackTo = none)
      ⟨fun h _ hnext => by cases hnext; exact h, fun h => h next rfl⟩
  | .pointsAfter _ _, .error _ => .isTrue nofun
  | .bestHeight, best => Nat.decLe (Word.satSub best 0).toNat sampleBranch.last
  | .finalizedHeight, _ | .publishBest _, _ | .publishFinalized _, _
  | .readCache _, _ | .writeCache _ _ _, _ | .tipHeader, _ | .fetchBlock _, _ | .findIntersect _, _
  | .hints _ _, _ | .freeSlots, _ | .buffered, _ | .send _, _ | .commit _, _ | .now, _ | .note _, _ =>
    .isTrue trivial

/-- The third tip cannot be published, and the walker begins again; then the node does not answer. After
the walker has begun once more, its cursor is at the second tip, though no cursor has ever been stored. -/
theorem resumed_of_reachable_interrupted :
    ∃ s, Course.Reachable (.ofBranch sampleBranch 0) {} s ∧
      (s.written.filter (·.1 ≠ cursorKey)).length = 2 ∧
      ∃ tips, tips <+: sampleBranch.tips ∧ tips.length = 2 ∧
        s.memory.cursor = tips.getLast?.getD (WalkerSettings.startPoint {}).tip := by
  let first : Rehearsed := {
    world := {
      heights := { best := 4 }
      outbox := .new 8
      node := { chain := ScriptedNode.sampleChain 4 }
      unwritable := [heightKey 3] }
    memory := Walker.new {} }
  have hrun : (((first.calls (.ofBranch sampleBranch 0) {} [.advance, .advance, .advance,
        .recover (.cache (.store "injected set failure")), .advance, .advance, .advance]).bind fun r =>
        (r.amid fun w => { w with node := { w.node with script := [{ hang := true }] } }).calls
          (.ofBranch sampleBranch 0) {} [.advance, .recover (.stalled (WalkerSettings.watchdog {})),
            .advance, .advance, .advance]).map fun r =>
      (r.owed, r.memory.stage, (r.written.filter (·.1 ≠ cursorKey)).length))
      = some (none, .walking, 2) := by
    decide +kernel
  obtain ⟨r₂, hr₂, hsummary⟩ := Option.map_eq_some_iff.mp hrun
  obtain ⟨r₁, hfailed, hresumed⟩ := Option.bind_eq_some_iff.mp hr₂
  obtain ⟨howed, hstage, hlength⟩ : r₂.owed = none ∧ r₂.memory.stage = .walking ∧
      (r₂.written.filter (·.1 ≠ cursorKey)).length = 2 := by
    simpa only [Prod.mk.injEq] using hsummary
  obtain ⟨s₁, hpath₁, hshows₁⟩ := (Rehearsed.shows_start first.world first.memory).calls hfailed
  obtain ⟨s₂, hpath₂, hshows₂⟩ := (hshows₁.amid _).calls hresumed
  have hreach : Course.Reachable (.ofBranch sampleBranch 0) {} s₂ :=
    (Course.Reachable.start rfl).goesOn (hpath₁.trans hpath₂)
  have hwritten : s₂.written = r₂.written := congrArg Shelf.written hshows₂.shelf
  obtain ⟨tips, hprefix, hpublished, -, -, -, hcursor⟩ := resumed_of_reachable hreach
  rw [← hwritten] at hlength
  refine ⟨s₂, hreach, hlength, tips, hprefix, ?_, ?_⟩
  · have hsame := congrArg List.length hpublished
    rw [List.length_reverse, List.length_map, hlength] at hsame
    exact hsame.symm
  · rw [Course.memory, hshows₂.phase]
    exact hcursor r₂.memory hshows₂.phase (hshows₂.owed.trans howed) (.inl hstage)

end

end Walker

end BlockFeed
