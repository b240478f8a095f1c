import BlockFeed.Proofs.Feed.Accordance
import BlockFeed.Proofs.Simulation.Drive

/-!
# The scripted node tells the truth

A scripted node whose script is over answers calls from the chain it holds. What it says is true of a
history of which this chain is a part (`tells_of_answers`), so rehearsals are runs like any others.
-/

namespace BlockFeed

namespace Chain

variable {c : Chain} {before rest : List Block} {block : Block}

/-- The height of a block is the number of blocks up to it. -/
theorem height_of_append (h : c.blocks = before ++ block :: rest) :
    block.height.toNat = before.length + 1 := by
  have hnumbered := c.numbered
  rw [h] at hnumbered
  have hat := congrArg (fun heights => heights[before.length]?) hnumbered
  simp only [List.map_append, List.map_cons, List.length_append, List.length_cons] at hat
  rw [List.getElem?_append_right (by simp), List.length_map, Nat.sub_self,
    List.getElem?_range' (by omega)] at hat
  simp only [List.getElem?_cons_zero, Option.some.injEq] at hat
  omega

/-- The number of the last tip is the number of all blocks. -/
theorem number_lastTip (c : Chain) :
    (Simulation.ScriptedNode.lastTip { chain := c.blocks }).number.toNat = c.length := by
  unfold Simulation.ScriptedNode.lastTip Simulation.ScriptedNode.tips length
  rcases List.eq_nil_or_concat c.blocks with hnil | ⟨before, block, happend⟩
  · simp [hnil]
  · have hblocks : c.blocks = before ++ block :: [] := by simpa using happend
    have hheight := height_of_append hblocks
    simpa [happend, Block.height] using hheight

end Chain

namespace History

open Simulation (ScriptedNode World)

variable {node : History} {now since t : Nat} {rest : List Block} {point : Point}

/-- Whoever stands at a point of a chain may pass the blocks after it, as many as he likes. -/
theorem passes_take (before : List Block) (hblocks : (node t).blocks = before ++ rest)
    (hat : (node t).At point before.length) (hnow : t ≤ now) (n : Nat) :
    node.Passes now t point ((rest.map Block.tip).take n) := by
  induction rest generalizing before point n with
  | nil =>
    simp only [List.map_nil, List.take_nil]
    exact .nil t point
  | cons block rest ih =>
    cases n with
    | zero => exact .nil t point
    | succ n =>
      have hheight := Chain.height_of_append hblocks
      have hmem : block ∈ (node t).blocks := by simp [hblocks]
      refine .cons le_rfl hnow hat hmem hheight ?_
      apply ih (before ++ [block])
      · simpa using hblocks
      · exact .inr ⟨block, hmem, rfl, by simpa using hheight⟩

/-- The node walks along its chain. -/
theorem follows_tipsAfter (hsince : since ≤ t) (hnow : t ≤ now) (start : Point) (n : Nat) :
    node.Follows since now start
      ((ScriptedNode.tipsAfter { chain := (node t).blocks } start).take n) := by
  unfold ScriptedNode.tipsAfter
  by_cases horigin : start.isOrigin = true
  · rw [if_pos horigin]
    have hat : (node t).At start 0 := .inl ⟨horigin, rfl⟩
    exact .inr ⟨t, start, hsince, hnow, ⟨⟨0, hat⟩, fun _ => rfl⟩,
      passes_take [] rfl hat hnow n⟩
  · rw [if_neg horigin]
    have hdrop : (ScriptedNode.tips { chain := (node t).blocks }).dropWhile (·.point ≠ start)
        = ((node t).blocks.dropWhile (·.tip.point ≠ start)).map Block.tip := List.dropWhile_map
    rw [hdrop]
    -- the walk begins after the block at the point, if there is one
    cases hrest : (node t).blocks.dropWhile (·.tip.point ≠ start) with
    | nil =>
      left
      simp
    | cons block rest =>
      have hsplit := List.takeWhile_append_dropWhile (p := (·.tip.point ≠ start))
        (l := (node t).blocks)
      rw [hrest] at hsplit
      have hpoint : block.tip.point = start := by
        have hhead := List.head?_dropWhile_not (·.tip.point ≠ start) (node t).blocks
        rw [hrest] at hhead
        simpa using hhead
      have hheight := Chain.height_of_append hsplit.symm
      have hat : (node t).At start block.height.toNat :=
        .inr ⟨block, by rw [← hsplit]; simp, hpoint, rfl⟩
      right
      refine ⟨t, start, hsince, hnow, ⟨⟨_, hat⟩, fun _ => rfl⟩, ?_⟩
      apply passes_take ((node t).blocks.takeWhile (·.tip.point ≠ start) ++ [block])
      · simpa using hsplit.symm
      · simpa [hheight] using hat
      · exact hnow

/-- A world with a node that holds a chain and has no script left. -/
def Mirrors (w : World) (c : Chain) : Prop := w.node.script = [] ∧ w.node.chain = c.blocks

/-- Without a script the node answers on its own account, and stays as it is. -/
theorem fromNode_of_mirrors {α : Type} {w : World} {c : Chain} (h : Mirrors w c)
    (replace : Simulation.ScriptEntry → Option α)
    (default : ScriptedNode → Except NodeError α) (hreplace : replace {} = none) :
    w.fromNode replace default = (some (default w.node), w) := by
  unfold World.fromNode ScriptedNode.respond ScriptedNode.takeEntry
  rw [h.1]
  simp only [hreplace]
  rfl

/-- The first reaction to a question leaves the node as it is. -/
theorem react_node (w : World) (query : Surroundings.Query) : (w.react query).2.node = w.node := by
  unfold World.react
  split
  · rfl
  · split
    · rfl
    · rfl
    · cases query <;> rfl

/-- What the node answers is true of the chain that it holds. -/
theorem tells_of_finishCall {w w' : World} {query : Surroundings.Query} {answer : query.Answer}
    (h : Mirrors w (node t)) (hsince : since ≤ t) (hnow : t ≤ now)
    (hfinish : w.finishCall query = (some answer, w')) :
    node.Tells since now query answer ∧ Mirrors w' (node t) := by
  cases query with
  | tipHeader =>
    have hown := fromNode_of_mirrors h (fun e => e.header.map ScriptedNode.headerOf)
      (fun n => .ok (ScriptedNode.headerOf n.lastTip)) rfl
    cases hown.symm.trans hfinish
    refine ⟨?_, h⟩
    rintro header heq
    cases heq
    refine ⟨t, hsince, hnow, ?_⟩
    rw [← Chain.number_lastTip, ← h.2]
    rfl
  | fetchBlock point =>
    have hown := fromNode_of_mirrors h (fun _ => none) (fun n => n.body point) rfl
    cases hown.symm.trans hfinish
    refine ⟨?_, h⟩
    rintro body heq
    unfold ScriptedNode.body at heq
    split at heq
    · rename_i block hfound
      cases heq
      refine ⟨t, hsince, hnow, block, ?_, by simpa using List.find?_some hfound, rfl⟩
      rw [← h.2]
      exact List.mem_of_find?_eq_some hfound
    · cases heq
  | pointsAfter start limit =>
    have hown := fromNode_of_mirrors h (·.next) (fun n => .ok (n.nextPoints start limit)) rfl
    cases hown.symm.trans hfinish
    refine ⟨?_, h⟩
    rintro next heq
    cases heq
    -- the node gives no more tips than it was asked for
    refine ⟨List.length_take_le _ _, ?_⟩
    have hfollows : node.Follows since now start
        ((ScriptedNode.tipsAfter { chain := (node t).blocks } start).take limit.toNat) :=
      follows_tipsAfter hsince hnow start limit.toNat
    rw [← h.2] at hfollows
    exact hfollows
  | findIntersect point =>
    have hown := fromNode_of_mirrors h
      (fun e => e.found.map fun point => Intersection.found point w.node.lastTip)
      (fun n => .ok (n.intersection point)) rfl
    cases hown.symm.trans hfinish
    exact ⟨trivial, h⟩
  | _ => cases hfinish

/-- Whatever a world answers is true of the chain that its node holds. -/
theorem tells_of_answers {w w' : World} {query : Surroundings.Query} {answer : query.Answer}
    (h : Mirrors w (node t)) (hsince : since ≤ t) (hnow : t ≤ now)
    (hanswers : w.Answers query answer w') :
    node.Tells since now query answer ∧ Mirrors w' (node t) := by
  have hnode := react_node w query
  cases hanswers with
  | react hreact =>
    rw [hreact] at hnode
    refine ⟨?_, by unfold Mirrors; rw [hnode]; exact h⟩
    cases query with
    | tipHeader => cases hreact
    | fetchBlock => cases hreact
    | pointsAfter => cases hreact
    | _ => trivial
  | @call called hreact hfinish =>
    rw [hreact] at hnode
    exact tells_of_finishCall (by unfold Mirrors; rw [hnode]; exact h) hsince hnow hfinish

end History

end BlockFeed
