import Mathlib.Data.List.Sort
import BlockFeed.Fetcher
import BlockFeed.Proofs.Bypass.Consumption
import BlockFeed.Proofs.Contract
import BlockFeed.Proofs.Window

/-!
# The ledger of the fetcher

What an iteration of the fetcher has done is told by a ledger: the blocks it has handed on, the height
it has settled, and every question with its answer, iteration by iteration. The queue, the cache and
the node do not occur in it.

Two conditions describe a ledger. `Orderly` holds at any moment: the blocks that have been handed on
ascend, each was wanted, its tip read and its body fetched, and no height that has been settled or lies
below one of them is unaccounted for. `Rests` holds whenever no batch is being handed on: all blocks are
settled, and the fetcher has forgotten bypass ranges only as far as that.

`contract` is what the fetcher keeps to. Its surroundings answer as they like, but that they say of the
queue what is true of it, and that a tip which is cached for a height has that height.
-/

namespace BlockFeed

/-- A question with the answer to it. -/
structure Surroundings.Event where
  query : Surroundings.Query
  answer : query.Answer

namespace Fetcher

open Surroundings (Event)

/-- The event of reading the height up to which blocks may be fetched. -/
def latestRead (useFinalized : Bool) (height : UInt64) : Event :=
  if useFinalized then ⟨.finalizedHeight, height⟩ else ⟨.bestHeight, height⟩

/-- A tip has been read from the cache under a height. -/
def Read (events : List Event) (height : UInt64) (tip : Tip) : Prop :=
  ∃ text, ⟨.readCache (heightKey height), .ok (some text)⟩ ∈ events ∧
    Tip.ofCacheText? text = some tip

/-- The tip of a block has been read under its height, and its body fetched from there. -/
structure Supplied (events : List Event) (block : Block) : Prop where
  tip : Read events block.height block.tip
  body : ⟨.fetchBlock block.tip.point, .ok block.body⟩ ∈ events

/-- A reply about the heights from `first` to `last` lets a height be passed over: it is confirmed, not
matched, and no source selects it. The heights asked about lie their own number below the latest height
that has been read. -/
structure Passes (plan : Plan) (events : List Event) (height : UInt64) (selection : ModuloSelection)
    (first last latest : UInt64) (reply : HintReply) : Prop where
  hinting : plan.hinting = some selection
  read : latestRead plan.settings.useFinalized latest ∈ events
  replied : ⟨.hints first last, some reply⟩ ∈ events
  within : first ≤ height ∧ height ≤ last
  confirmed : height ≤ reply.lastConfirmed
  unmatched : height ∉ reply.matched
  unselected : ∀ source ∈ selection.sources, ∀ modulus, source.modulus? = some modulus →
    source.isActiveAt height = true → ¬ modulus.toNat ∣ height.toNat
  buried : last.toNat + (last.toNat + 1 - first.toNat) ≤ latest.toNat

/-- Some reply lets a height be passed over. -/
def PassedOver (plan : Plan) (events : List Event) (height : UInt64) : Prop :=
  ∃ selection first last latest reply, Passes plan events height selection first last latest reply

theorem Read.mono {events events' : List Event} (hsub : events ⊆ events') {height : UInt64} {tip : Tip}
    (h : Read events height tip) : Read events' height tip := by
  obtain ⟨text, hmem, htext⟩ := h
  exact ⟨text, hsub hmem, htext⟩

theorem Supplied.mono {events events' : List Event} (hsub : events ⊆ events') {block : Block}
    (h : Supplied events block) : Supplied events' block :=
  ⟨h.tip.mono hsub, hsub h.body⟩

theorem PassedOver.mono {plan : Plan} {events events' : List Event} (hsub : events ⊆ events')
    {height : UInt64} (h : PassedOver plan events height) : PassedOver plan events' height := by
  obtain ⟨selection, first, last, latest, reply, h⟩ := h
  exact ⟨selection, first, last, latest, reply,
    { h with read := hsub h.read, replied := hsub h.replied }⟩

/-- What the iterations of a fetcher have done. -/
structure Ledger where
  /-- The blocks that have been handed on. -/
  delivered : List Block := []
  /-- The height up to which everything has been handed on. -/
  buffered : Option UInt64 := none
  /-- The events of earlier iterations. -/
  past : List (List Event) := []
  /-- The events of this iteration. -/
  events : List Event := []

namespace Ledger

variable {plan : Plan} {bypass memory : BypassRanges} {L L' L'' : Ledger}

/-- The events of all iterations. -/
def iterations (L : Ledger) : List (List Event) := L.events :: L.past

/-- Another iteration begins. -/
def turn (L : Ledger) : Ledger := { L with past := L.iterations, events := [] }

/-- The ledger after an answer. -/
def after (L : Ledger) (query : Surroundings.Query) (answer : query.Answer) : Ledger :=
  let L := { L with events := ⟨query, answer⟩ :: L.events }
  match query with
  | .send block => { L with delivered := L.delivered ++ [block] }
  | .commit height => { L with buffered := some height }
  | _ => L

/-- What the surroundings may answer. -/
def Permits (L : Ledger) : (query : Surroundings.Query) → query.Answer → Prop
  | .buffered, answer => answer = L.buffered
  | .send _, answer => answer = true
  | .readCache key, answer => ∀ height text tip, key = heightKey height → answer = .ok (some text) →
      Tip.ofCacheText? text = some tip → tip.number = height
  | _, _ => True

/-- The number of the first height that has not been settled. -/
def next (plan : Plan) (L : Ledger) : Nat :=
  match L.buffered with
  | some height => height.toNat + 1
  | none => plan.settings.initialHeight.toNat

/-- A height is in the bypass ranges, its block has been handed on, or it has been passed over. -/
def Accounted (plan : Plan) (bypass : BypassRanges) (L : Ledger) (height : UInt64) : Prop :=
  bypass.contains height = true ∨ height ∈ L.delivered.map Block.height ∨
    ∃ events ∈ L.iterations, PassedOver plan events height

/-- What has been handed on is in order. -/
structure Orderly (plan : Plan) (bypass : BypassRanges) (L : Ledger) : Prop where
  ascending : (L.delivered.map Block.height).Pairwise (· < ·)
  wanted : ∀ block ∈ L.delivered,
    plan.settings.initialHeight ≤ block.height ∧ bypass.contains block.height = false
  supplied : ∀ block ∈ L.delivered, ∃ events ∈ L.iterations, Supplied events block
  gapless : ∀ block ∈ L.delivered, ∀ height, plan.settings.initialHeight ≤ height →
    height < block.height → Accounted plan bypass L height
  accounted : ∀ height : UInt64, plan.settings.initialHeight ≤ height → height.toNat < L.next plan →
    Accounted plan bypass L height

/-- No batch is being handed on, and the fetcher remembers some bypass ranges. -/
structure Rests (plan : Plan) (bypass : BypassRanges) (L : Ledger) (memory : BypassRanges) : Prop
    extends Orderly plan bypass L where
  started : plan.settings.initialHeight.toNat ≤ L.next plan
  settled : ∀ block ∈ L.delivered, block.height.toNat < L.next plan
  remembered : ∀ height : UInt64, L.next plan ≤ height.toNat →
    memory.contains height = bypass.contains height

/-- The heights of the blocks lie between the initial one and any that bounds them, in no bypass
range. -/
theorem Orderly.heights_subset (h : L.Orderly plan bypass) {last : UInt64}
    (hlast : ∀ block ∈ L.delivered, block.height ≤ last) :
    L.delivered.map Block.height
      ⊆ bypass.strip (Window.heightsBetween plan.settings.initialHeight last) := by
  intro height hmem
  obtain ⟨block, hblock, rfl⟩ := List.mem_map.mp hmem
  obtain ⟨hstart, hfree⟩ := h.wanted block hblock
  rw [BypassRanges.mem_strip, Window.mem_heightsBetween]
  exact ⟨⟨hstart, hlast block hblock⟩, hfree⟩

/-- Where nothing is passed over, a height that is accounted for and lies in no bypass range is that of a
block. -/
theorem Accounted.mem_heights {height : UInt64} (h : L.Accounted plan bypass height)
    (hnone : ∀ events ∈ L.iterations, ∀ height, ¬ PassedOver plan events height)
    (hfree : bypass.contains height = false) : height ∈ L.delivered.map Block.height := by
  rcases h with hbypassed | hdelivered | ⟨events, hevents, hpassed⟩
  · rw [hfree] at hbypassed
    cases hbypassed
  · exact hdelivered
  · exact absurd hpassed (hnone events hevents height)

/-- Where nothing is passed over, the heights of the blocks are all those that lie in no bypass
range. -/
theorem Orderly.heights_eq (h : L.Orderly plan bypass)
    (hnone : ∀ events ∈ L.iterations, ∀ height, ¬ PassedOver plan events height) {last : UInt64}
    (hlast : ∀ block ∈ L.delivered, block.height ≤ last)
    (hall : ∀ height, plan.settings.initialHeight ≤ height → height ≤ last →
      L.Accounted plan bypass height) :
    L.delivered.map Block.height
      = bypass.strip (Window.heightsBetween plan.settings.initialHeight last) := by
  have hsorted : (bypass.strip (Window.heightsBetween plan.settings.initialHeight last)).Pairwise
      (· < ·) := (Window.pairwise_heightsBetween _ _).filter _
  refine h.ascending.eq_of_mem_iff hsorted fun height => ?_
  constructor
  · intro hmem
    exact h.heights_subset hlast hmem
  · rw [BypassRanges.mem_strip, Window.mem_heightsBetween]
    rintro ⟨⟨hstart, hle⟩, hfree⟩
    exact (hall height hstart hle).mem_heights hnone hfree

/-- Where nothing is passed over, the heights of the blocks are at any moment the first of all those
that lie in no bypass range. -/
theorem Orderly.heights_isPrefix (h : L.Orderly plan bypass)
    (hnone : ∀ events ∈ L.iterations, ∀ height, ¬ PassedOver plan events height) :
    L.delivered.map Block.height
      <+: bypass.strip (Window.heightsBetween plan.settings.initialHeight Word.max) := by
  have hsorted : (bypass.strip (Window.heightsBetween plan.settings.initialHeight Word.max)).Pairwise
      (· < ·) := (Window.pairwise_heightsBetween _ _).filter _
  have hlast : ∀ block ∈ L.delivered, block.height ≤ Word.max := fun block _ =>
    UInt64.le_iff_toNat_le.mpr (Nat.le_of_lt_succ block.height.toNat_lt)
  apply Window.isPrefix_of_ascending h.ascending hsorted (h.heights_subset hlast)
  intro height hmem other hother hlt
  obtain ⟨block, hblock, rfl⟩ := List.mem_map.mp hmem
  rw [BypassRanges.mem_strip, Window.mem_heightsBetween] at hother
  exact (h.gapless block hblock other hother.1.1 hlt).mem_heights hnone hother.2

/-! ## Ledgers that tell of more -/

/-- A ledger tells of all that another one tells of. -/
structure Extends (L L' : Ledger) : Prop where
  delivered : L.delivered ⊆ L'.delivered
  iterations : ∀ events ∈ L.iterations, ∃ events' ∈ L'.iterations, events ⊆ events'

/-- What can be found in some iteration can be found there still. -/
theorem Extends.exists_iteration (h : L.Extends L') {P : List Event → Prop}
    (hmono : ∀ {events events'}, events ⊆ events' → P events → P events')
    (hex : ∃ events ∈ L.iterations, P events) : ∃ events ∈ L'.iterations, P events := by
  obtain ⟨events, hmem, hP⟩ := hex
  obtain ⟨events', hmem', hsub⟩ := h.iterations events hmem
  exact ⟨events', hmem', hmono hsub hP⟩

theorem Extends.supplied (h : L.Extends L') {block : Block}
    (hsupplied : ∃ events ∈ L.iterations, Supplied events block) :
    ∃ events ∈ L'.iterations, Supplied events block :=
  h.exists_iteration (fun hsub hP => hP.mono hsub) hsupplied

theorem Accounted.extends {height : UInt64} (h : L.Accounted plan bypass height)
    (hextends : L.Extends L') : L'.Accounted plan bypass height := by
  rcases h with h | h | h
  · exact .inl h
  · exact .inr (.inl (List.map_subset _ hextends.delivered h))
  · exact .inr (.inr (hextends.exists_iteration (fun hsub hP => hP.mono hsub) h))

/-- As long as no other block is handed on and the height does not move, order is kept. -/
theorem Orderly.extends (h : L.Orderly plan bypass) (hextends : L.Extends L')
    (hdelivered : L'.delivered = L.delivered) (hbuffered : L'.buffered = L.buffered) :
    L'.Orderly plan bypass where
  ascending := by
    rw [hdelivered]
    exact h.ascending
  wanted := by
    rw [hdelivered]
    exact h.wanted
  supplied block hblock := by
    rw [hdelivered] at hblock
    exact hextends.supplied (h.supplied block hblock)
  gapless block hblock height hstart hlt := by
    rw [hdelivered] at hblock
    exact (h.gapless block hblock height hstart hlt).extends hextends
  accounted height hstart hlt := by
    rw [Ledger.next, hbuffered] at hlt
    exact (h.accounted height hstart hlt).extends hextends

/-- So is rest. -/
theorem Rests.extends (h : L.Rests plan bypass memory) (hextends : L.Extends L')
    (hdelivered : L'.delivered = L.delivered) (hbuffered : L'.buffered = L.buffered) :
    L'.Rests plan bypass memory := by
  have hnext : L'.next plan = L.next plan := by rw [Ledger.next, Ledger.next, hbuffered]
  refine ⟨h.toOrderly.extends hextends hdelivered hbuffered, ?_, ?_, ?_⟩
  · rw [hnext]
    exact h.started
  · rw [hdelivered, hnext]
    exact h.settled
  · rw [hnext]
    exact h.remembered

/-- A ledger tells of more events of the same iteration, and of nothing else. -/
structure Grows (L L' : Ledger) : Prop where
  delivered : L'.delivered = L.delivered
  buffered : L'.buffered = L.buffered
  past : L'.past = L.past
  events : L.events ⊆ L'.events

theorem Grows.refl (L : Ledger) : L.Grows L := ⟨rfl, rfl, rfl, List.Subset.refl _⟩

theorem Grows.trans (h : L.Grows L') (h' : L'.Grows L'') : L.Grows L'' :=
  ⟨h'.delivered.trans h.delivered, h'.buffered.trans h.buffered, h'.past.trans h.past,
    List.Subset.trans h.events h'.events⟩

theorem Grows.next (h : L.Grows L') : L'.next plan = L.next plan := by
  rw [Ledger.next, Ledger.next, h.buffered]

/-- More events of the last iteration are more events. -/
theorem exists_iteration_of_subset (hpast : L'.past = L.past) (hevents : L.events ⊆ L'.events)
    {events : List Event} (hmem : events ∈ L.iterations) :
    ∃ events' ∈ L'.iterations, events ⊆ events' := by
  rcases List.mem_cons.mp hmem with rfl | hmem
  · exact ⟨L'.events, List.mem_cons_self, hevents⟩
  · refine ⟨events, List.mem_cons_of_mem _ ?_, List.Subset.refl _⟩
    rwa [hpast]

theorem extends_after (L : Ledger) (query : Surroundings.Query) (answer : query.Answer) :
    L.Extends (L.after query answer) := by
  have hpast : (L.after query answer).past = L.past := by cases query <;> rfl
  have hevents : L.events ⊆ (L.after query answer).events := by
    cases query <;> exact List.subset_cons_self _ _
  refine ⟨?_, fun _ hmem => exists_iteration_of_subset hpast hevents hmem⟩
  cases query with
  | send => exact List.subset_append_left _ _
  | _ => exact List.Subset.refl _

theorem Rests.grows (h : L.Rests plan bypass memory) (hgrows : L.Grows L') :
    L'.Rests plan bypass memory := by
  have hextends : L.Extends L' :=
    ⟨by rw [hgrows.delivered]; exact List.Subset.refl _,
      fun _ hmem => exists_iteration_of_subset hgrows.past hgrows.events hmem⟩
  exact h.extends hextends hgrows.delivered hgrows.buffered

/-- The beginning of an iteration changes nothing but the count of iterations. -/
theorem Rests.turn (h : L.Rests plan bypass memory) : L.turn.Rests plan bypass memory := by
  have hextends : L.Extends L.turn :=
    ⟨List.Subset.refl _,
      fun events hmem => ⟨events, List.mem_cons_of_mem _ hmem, List.Subset.refl _⟩⟩
  exact h.extends hextends rfl rfl

/-- At first nothing has been handed on and no bypass range been forgotten. -/
theorem rests_empty (plan : Plan) (bypass : BypassRanges) : Rests plan bypass {} bypass where
  ascending := .nil
  wanted := by intro block hblock; cases hblock
  supplied := by intro block hblock; cases hblock
  gapless := by intro block hblock; cases hblock
  started := Nat.le_refl _
  settled := by intro block hblock; cases hblock
  accounted := by
    intro height hstart hlt
    rw [UInt64.le_iff_toNat_le] at hstart
    exact absurd hlt (Nat.not_lt.mpr hstart)
  remembered := by intro height _; rfl

/-- A point is asked for because it is that of a height that is wanted. -/
def Wanted (plan : Plan) (bypass : BypassRanges) (L : Ledger) (point : Point) : Prop :=
  ∃ height tip, Read L.events height tip ∧ tip.number = height ∧ tip.point = point ∧
    plan.settings.initialHeight ≤ height ∧ bypass.contains height = false

end Ledger

/-- What the fetcher keeps to, and what its surroundings keep to. -/
def contract (plan : Plan) (bypass : BypassRanges) :
    Contract Surroundings BypassRanges Ledger where
  allows L memory query :=
    match query with
    | .send _ | .commit _ => L.Orderly plan bypass
    | .fetchBlock point => L.Rests plan bypass memory ∧ L.Wanted plan bypass point
    -- The fetcher only reads what others write.
    | .writeCache _ _ _ | .publishBest _ | .publishFinalized _ => False
    | _ => L.Rests plan bypass memory
  answers L query answer L' := L.Permits query answer ∧ L' = L.after query answer

/-- At any moment what has been handed on is in order. -/
theorem orderly_of_allows {plan : Plan} {bypass memory : BypassRanges} {L : Ledger}
    {query : Surroundings.Query} (h : (contract plan bypass).allows L memory query) :
    L.Orderly plan bypass := by
  cases query with
  | send | commit => exact h
  | fetchBlock => exact h.1.toOrderly
  | writeCache | publishBest | publishFinalized => exact h.elim
  | _ => exact h.toOrderly

end Fetcher

end BlockFeed
