import BlockFeed.Chain.Header
import Mathlib.Data.List.Nodup
import Mathlib.Data.Nat.Basic
import Mathlib.Order.Basic

/-!
# The history of a chain

A node holds a chain of blocks, and as time passes it may hold another one. The blocks of a chain are
numbered consecutively from one, and each has a point of its own, so a height or a point tells a block
of a chain from all the others.

A history agrees from some depth on when no later chain differs from an earlier one but in the last
blocks of the earlier one. A block that has been seen so deep in a chain is settled: every later chain
holds it (`History.settled_of_mem`). A reader who follows the node from a settled block passes settled
blocks only, as long as he stays that deep (`History.Follows.settled`).
-/

namespace BlockFeed

/-- A chain of blocks. -/
structure Chain where
  blocks : List Block
  numbered : blocks.map (fun block => block.height.toNat) = List.range' 1 blocks.length
  distinct : (blocks.map fun block => block.tip.point).Nodup
  /-- The origin is the position before the first block. -/
  placed : ∀ block ∈ blocks, block.tip.point.isOrigin = false

namespace Chain

variable {c : Chain} {block block' : Block} {height : UInt64} {point : Point} {n n' : Nat}

/-- The number of blocks, which is the height of the last one. -/
def length (c : Chain) : Nat := c.blocks.length

/-- The block at a height. -/
def blockAt? (c : Chain) (height : UInt64) : Option Block := c.blocks.find? (·.height = height)

/-- A point is that of the block at a height, or the origin at height zero. -/
def At (c : Chain) (point : Point) (height : Nat) : Prop :=
  (point.isOrigin = true ∧ height = 0) ∨
    ∃ block ∈ c.blocks, block.tip.point = point ∧ block.height.toNat = height

/-- A height tells a block from all others. -/
theorem eq_of_height_eq (h : block ∈ c.blocks) (h' : block' ∈ c.blocks)
    (heq : block.height = block'.height) : block = block' := by
  have hnodup : (c.blocks.map fun block => block.height.toNat).Nodup := by
    rw [c.numbered]
    exact List.nodup_range'
  apply List.inj_on_of_nodup_map hnodup h h'
  simp only [heq]

/-- A point tells a block from all others. -/
theorem eq_of_point_eq (h : block ∈ c.blocks) (h' : block' ∈ c.blocks)
    (heq : block.tip.point = block'.tip.point) : block = block' :=
  List.inj_on_of_nodup_map c.distinct h h' heq

theorem blockAt?_eq_some_iff :
    c.blockAt? height = some block ↔ block ∈ c.blocks ∧ block.height = height := by
  constructor
  · intro h
    refine ⟨List.mem_of_find?_eq_some h, ?_⟩
    simpa using List.find?_some h
  · rintro ⟨hmem, rfl⟩
    cases hfound : c.blockAt? block.height with
    | none =>
      have hnone := List.find?_eq_none.mp hfound block hmem
      simp at hnone
    | some found =>
      -- another block of this height would be the same one
      have heq : found.height = block.height := by simpa using List.find?_some hfound
      rw [eq_of_height_eq (List.mem_of_find?_eq_some hfound) hmem heq]

/-- A point stands at one height only. -/
theorem At.unique (h : c.At point n) (h' : c.At point n') : n = n' := by
  rcases h with ⟨horigin, rfl⟩ | ⟨block, hmem, hpoint, rfl⟩
  · rcases h' with ⟨-, rfl⟩ | ⟨block', hmem', hpoint', -⟩
    · rfl
    · rw [← hpoint', c.placed block' hmem'] at horigin
      cases horigin
  · rcases h' with ⟨horigin, -⟩ | ⟨block', hmem', hpoint', rfl⟩
    · rw [← hpoint, c.placed block hmem] at horigin
      cases horigin
    · rw [eq_of_point_eq hmem hmem' (hpoint.trans hpoint'.symm)]

/-- Where a reader goes on who was placed at a point: there, or at another point of the chain when the
chain has left that one. -/
def Resumes (c : Chain) (start point : Point) : Prop :=
  (∃ n, c.At point n) ∧ ((∃ n, c.At start n) → point = start)

end Chain

/-- The chains that a node holds, time by time. -/
abbrev History : Type := Nat → Chain

namespace History

variable {node : History} {depth now since t : Nat} {best : UInt64} {block : Block} {tip : Tip}
  {point : Point} {tips : List Tip}

/-- No later chain differs from an earlier one but in the last blocks of the earlier one. -/
def Agrees (node : History) (depth : Nat) : Prop :=
  ∀ s t, s ≤ t → ∀ height : UInt64, height.toNat + depth ≤ (node s).length →
    (node s).blockAt? height = (node t).blockAt? height

/-- A height has been reached by some chain so far. -/
def Reached (node : History) (now : Nat) (height : UInt64) : Prop :=
  ∃ t ≤ now, height.toNat ≤ (node t).length

/-- A block is held from now on. -/
def Settled (node : History) (now : Nat) (block : Block) : Prop :=
  ∀ t, now ≤ t → block ∈ (node t).blocks

/-- A tip is that of a block that is held from now on. -/
def SettledTip (node : History) (now : Nat) (tip : Tip) : Prop :=
  ∃ block, node.Settled now block ∧ block.tip = tip

/-- A tip stands where its number says, from now on. -/
def Stands (node : History) (now : Nat) (tip : Tip) : Prop :=
  ∀ t, now ≤ t → (node t).At tip.point tip.number.toNat

theorem Reached.mono {now' : Nat} (h : node.Reached now best) (hle : now ≤ now') :
    node.Reached now' best := by
  obtain ⟨t, ht, hbest⟩ := h
  exact ⟨t, ht.trans hle, hbest⟩

theorem Settled.mono {now' : Nat} (h : node.Settled now block) (hle : now ≤ now') :
    node.Settled now' block :=
  fun t ht => h t (hle.trans ht)

theorem SettledTip.mono {now' : Nat} (h : node.SettledTip now tip) (hle : now ≤ now') :
    node.SettledTip now' tip := by
  obtain ⟨block, hsettled, htip⟩ := h
  exact ⟨block, hsettled.mono hle, htip⟩

theorem Stands.mono {now' : Nat} (h : node.Stands now tip) (hle : now ≤ now') :
    node.Stands now' tip :=
  fun t ht => h t (hle.trans ht)

theorem SettledTip.stands (h : node.SettledTip now tip) : node.Stands now tip := by
  obtain ⟨block, hsettled, rfl⟩ := h
  intro t ht
  exact .inr ⟨block, hsettled t ht, rfl, rfl⟩

/-- The origin is the beginning of every chain. -/
theorem stands_of_origin (horigin : tip.point.isOrigin = true) (hzero : tip.number = 0) :
    node.Stands now tip := by
  intro t _
  refine .inl ⟨horigin, ?_⟩
  rw [hzero]
  rfl

/-- Settled blocks of the same point are the same. -/
theorem Settled.eq_of_point_eq {block' : Block} (h : node.Settled now block)
    (h' : node.Settled now block') (heq : block.tip.point = block'.tip.point) : block = block' :=
  Chain.eq_of_point_eq (h now le_rfl) (h' now le_rfl) heq

/-- A block that is deep enough below a height that has been reached is settled. -/
theorem settled_of_mem (hagrees : node.Agrees depth) (hreached : node.Reached now best)
    (hdeep : block.height.toNat + depth ≤ best.toNat) (ht : now ≤ t)
    (hmem : block ∈ (node t).blocks) : node.Settled now block := by
  obtain ⟨s, hs, hbest⟩ := hreached
  -- both the chain that holds the block and any later one agree with the one that has been so long
  have heq : (node s).blockAt? block.height = some block := by
    rw [hagrees s t (hs.trans ht) block.height (hdeep.trans hbest)]
    exact Chain.blockAt?_eq_some_iff.mpr ⟨hmem, rfl⟩
  intro t' ht'
  rw [hagrees s t' (hs.trans ht') block.height (hdeep.trans hbest)] at heq
  exact (Chain.blockAt?_eq_some_iff.mp heq).1

/-! ## Following the node -/

/-- A reader who stands at a point passes tips until now. Each is that of the next block on the chain
that the node holds at that time. -/
inductive Passes (node : History) (now : Nat) : Nat → Point → List Tip → Prop
  | nil (since : Nat) (point : Point) : Passes node now since point []
  | cons {since t n : Nat} {point : Point} {block : Block} {tips : List Tip} (hsince : since ≤ t)
      (hnow : t ≤ now) (hat : (node t).At point n) (hmem : block ∈ (node t).blocks)
      (hnext : block.height.toNat = n + 1) (h : Passes node now t block.tip.point tips) :
      Passes node now since point (block.tip :: tips)

/-- The tips that a reader passes who is placed at a point after a time: none if the node does not know
the point. -/
def Follows (node : History) (since now : Nat) (start : Point) (tips : List Tip) : Prop :=
  tips = [] ∨ ∃ t point, since ≤ t ∧ t ≤ now ∧ (node t).Resumes start point ∧
    node.Passes now t point tips

/-- Whoever passes blocks that are deep enough, one after the other, passes settled blocks. -/
theorem Passes.settled {n : Nat} (hagrees : node.Agrees depth) (hreached : node.Reached now best)
    (hstands : ∀ t, now ≤ t → (node t).At point n) (hdeep : n + tips.length + depth ≤ best.toNat)
    {stop : Nat} (hnow : now ≤ since) (h : node.Passes stop since point tips) :
    ∀ tip ∈ tips, node.SettledTip now tip := by
  induction h generalizing n with
  | nil => simp
  | @cons since t m point block tips hsince hstop hat hmem hnext h ih =>
    have ht : now ≤ t := hnow.trans hsince
    obtain rfl : m = n := hat.unique (hstands t ht)
    simp only [List.length_cons] at hdeep
    have hsettled : node.Settled now block :=
      settled_of_mem hagrees hreached (by omega) ht hmem
    intro tip htip
    rcases List.mem_cons.mp htip with rfl | htip
    · exact ⟨block, hsettled, rfl⟩
    · -- the reader goes on from this block, which stays where it is
      apply ih (n := m + 1) _ (by omega) ht tip htip
      intro t' ht'
      exact .inr ⟨block, hsettled t' ht', rfl, hnext⟩

/-- Whoever follows the node from a tip that stays where it is, and not too far, passes settled
blocks. -/
theorem Follows.settled (hagrees : node.Agrees depth) (hreached : node.Reached since best)
    (hstands : node.Stands since tip)
    (hdeep : tip.number.toNat + tips.length + depth ≤ best.toNat)
    (h : node.Follows since now tip.point tips) : ∀ passed ∈ tips, node.SettledTip since passed := by
  rcases h with rfl | ⟨t, point, hsince, _, hresumes, hpasses⟩
  · simp
  · obtain rfl := hresumes.2 ⟨_, hstands t hsince⟩
    exact hpasses.settled hagrees hreached hstands hdeep hsince

end History

end BlockFeed
