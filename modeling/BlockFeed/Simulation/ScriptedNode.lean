import BlockFeed.Simulation.SampleTip
import BlockFeed.Surroundings

/-!
# A scripted node

For rehearsals a node is made up: it holds a chain of blocks and answers calls about it. A script may
say how the next calls go instead: one entry for each call, which makes it fail, leaves it without
an answer for ever, or replaces the answer of the call it fits.
-/

namespace BlockFeed.Simulation

/-- How one call goes. -/
structure ScriptEntry where
  /-- The call is never answered. -/
  hang : Bool := false
  error : Option NodeError := none
  /-- The last tip, for the header of it. -/
  header : Option Tip := none
  /-- The next points. -/
  next : Option NextPoints := none
  /-- The common point. -/
  found : Option Point := none
  deriving Inhabited

/-- A node that is made up. -/
structure ScriptedNode where
  chain : List Block := []
  script : List ScriptEntry := []
  /-- The time a call takes, in milliseconds. -/
  latency : Nat := 0
  deriving Inhabited

namespace ScriptedNode

/-- The tips of the blocks. -/
def tips (n : ScriptedNode) : List Tip := n.chain.map Block.tip

/-- The tip of the chain. -/
def lastTip (n : ScriptedNode) : Tip := n.tips.getLast?.getD ⟨.origin, 0⟩

/-- A chain of sample blocks from height one on. -/
def sampleChain (height : UInt64) : List Block :=
  (List.range height.toNat).map fun i => Block.sample (Tip.sample (UInt64.ofNat (i + 1)) 0)

/-- A block, or the sample block of another fork if it is above a height. -/
def forkedBlock (height : UInt64) (fork : UInt8) (b : Block) : Block :=
  if height < b.height then Block.sample (Tip.sample b.height fork) else b

/-- The sample blocks of another fork replace all blocks above a height. -/
def forkAbove (height : UInt64) (fork : UInt8) (n : ScriptedNode) : ScriptedNode :=
  { n with chain := n.chain.map (forkedBlock height fork) }

/-- The header of a block whose tip is all that is known. -/
def headerOf (t : Tip) : Header := ⟨t.point.hash, t.number, none, t.point.slot⟩

/-- The body of the block at a point. -/
def body (n : ScriptedNode) (p : Point) : Except NodeError Bytes :=
  match n.chain.find? (·.tip.point = p) with
  | some block => .ok block.body
  | none => .error (.notFound (.block p))

/-- The tips after a point. -/
def tipsAfter (n : ScriptedNode) (start : Point) : List Tip :=
  if start.isOrigin then n.tips else (n.tips.dropWhile (·.point ≠ start)).drop 1

/-- The next points after a point. -/
def nextPoints (n : ScriptedNode) (start : Point) (limit : UInt64) : NextPoints :=
  { tips := (n.tipsAfter start).take limit.toNat }

/-- Whether a point is on the chain. -/
def intersection (n : ScriptedNode) (p : Point) : Intersection :=
  if p.isOrigin || n.tips.any (·.point = p) then .found p n.lastTip else .notFound n.lastTip

end ScriptedNode

/-- The entry of the script for the next call. -/
def ScriptedNode.takeEntry (n : ScriptedNode) : ScriptEntry × ScriptedNode :=
  match n.script with
  | [] => ({}, n)
  | entry :: rest => (entry, { n with script := rest })

/-- The answer of a call: that of the script, or the default; `none` if there never is one. -/
def ScriptedNode.respond {α : Type} (n : ScriptedNode) (replace : ScriptEntry → Option α)
    (default : ScriptedNode → Except NodeError α) : Option (Except NodeError α) × ScriptedNode :=
  let (entry, n) := n.takeEntry
  if entry.hang then (none, n)
  else
    match entry.error with
    | some e => (some (.error e), n)
    | none =>
      match replace entry with
      | some a => (some (.ok a), n)
      | none => (some (default n), n)

end BlockFeed.Simulation
