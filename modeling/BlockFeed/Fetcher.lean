import BlockFeed.Config
import BlockFeed.Outbox
import BlockFeed.Surroundings
import BlockFeed.Window

/-!
# The fetcher

The fetcher turns cached points into a stream of blocks in strictly ascending order of height. Each
iteration plans a window of heights above what is buffered, reads the tips of all of them from the
cache, fetches the blocks it wants and hands them on as one batch.

Heights in the bypass ranges are never wanted. A hint service may also tell which heights hold
nothing of interest; it is asked only when the window ends at least its own size below the latest
height, and its word counts only up to the height it has confirmed. Heights that a data source
selects by a modulus are wanted whatever the service says.
-/

namespace BlockFeed

/-- Why an iteration has failed. -/
inductive FetchError where
  /-- The walker has not cached a height yet. -/
  | cacheMiss (height : UInt64)
  | node (height : UInt64) (error : NodeError)
  | cache (error : CacheError)
  | dispatch (error : DispatchError)
  deriving DecidableEq

/-- The wording of a fetch error. -/
def FetchError.message : FetchError → Option String
  | .cacheMiss height => some ("height " ++ Numeral.ofNat height.toNat ++ " is not cached yet")
  | .node height e =>
    e.message.map fun m => "failed to fetch block " ++ Numeral.ofNat height.toNat ++ ": " ++ m
  | .cache e => some ("point cache failure: " ++ e.message)
  | .dispatch e => some ("dispatcher rejected batch: " ++ e.message)

namespace Fetcher

/-- What an iteration has led to. -/
inductive Outcome where
  | dispatched (window : Window) (fetched : Nat) (buffered : UInt64)
  /-- The queue to the consumer has no room. -/
  | backpressure
  /-- The next height is above the latest one. -/
  | aheadOfTip (start latest : UInt64)
  deriving DecidableEq, Repr

/-- What is fetched and how. -/
structure Plan where
  settings : FetchSettings
  /-- The heights to add to hints; `none` if there is no hint service. -/
  hinting : Option ModuloSelection := none
  deriving DecidableEq, Repr, Inhabited

/-- Work of the fetcher, which remembers the bypass ranges that lie ahead. -/
abbrev Task (α : Type) : Type := Work BypassRanges FetchError α

/-- Takes down that heights were passed over. -/
def noteSkipped (reason : String) (count : UInt64) : Task Unit :=
  if count = 0 then return () else Work.note (.heightsSkipped reason count)

/-- The heights outside the bypass ranges. -/
def stripBypass (heights : List UInt64) : Task (List UInt64) := do
  let kept := (← Routine.current).strip heights
  noteSkipped "bypass" (UInt64.ofNat (heights.length - kept.length))
  return kept

/-- The cached tip of a height, which must be there. -/
def requireTip (height : UInt64) : Task Tip := do
  match ← Work.tipAt .cache height with
  | some tip => return tip
  | none => Work.fail (.cacheMiss height)

/-- The cached tips of heights. -/
def requireTips : List UInt64 → Task (List Tip)
  | [] => return []
  | height :: rest => do
    let tip ← requireTip height
    let tips ← requireTips rest
    return tip :: tips

/-- The heights of a window but for its last one. -/
def innerHeights (window : Window) : List UInt64 :=
  (List.range (window.size.toNat - 1)).map fun i => window.start + UInt64.ofNat i

/-- The tips of a window, all read before any block is fetched. The last one is read first, because
it is the last one that the walker writes. -/
def windowTips (window : Window) : Task (List Tip) := do
  let last ← Work.checked window.last
  let lastTip ← requireTip last
  let tips ← requireTips (innerHeights window)
  return tips ++ [lastTip]

/-- The heights that a hint leaves, and the height up to which it counts. -/
structure Hint where
  heights : List UInt64
  bound : UInt64
  deriving DecidableEq, Repr

/-- The hint that a reply amounts to for a window that ends at a height. -/
def hintOf (selection : ModuloSelection) (window : Window) (last : UInt64) (reply : HintReply) :
    Option Hint :=
  if reply.lastConfirmed < window.start then none
  else
    let bound := min last reply.lastConfirmed
    let heights := (reply.matched ++ selection.heights window.start bound).filter fun height =>
      window.start ≤ height && height ≤ bound
    some ⟨ModuloSelection.sortDedup heights, bound⟩

/-- Asks the hint service about a window; `none` means that the whole window is wanted. -/
def consultHints (plan : Plan) (window : Window) (latest : UInt64) : Task (Option Hint) := do
  match plan.hinting with
  | none => return none
  | some selection =>
    let last ← Work.checked window.last
    let distance ← Work.checked (Word.sub latest last)
    if distance < window.size then return none
    else
      let reply ← Routine.ask (I := Surroundings) (.hints window.start last)
      match reply with
      | none =>
        Work.note .hintFallback
        return none
      | some reply => return hintOf selection window last reply

/-- The tip of a height among the tips of a window. -/
def tipFor? (window : Window) (tips : List Tip) (height : UInt64) : Option Tip :=
  if height < window.start then none else tips[(height - window.start).toNat]?

/-- Fetches the blocks of heights one after the other. -/
def fetchHeights (window : Window) (tips : List Tip) : List UInt64 → Task (List Block)
  | [] => return []
  | height :: rest => do
    match tipFor? window tips height with
    | none => Work.fail (.cacheMiss height)
    | some tip =>
      let answer ← Routine.ask (I := Surroundings) (.fetchBlock tip.point)
      let body ← Work.ofAnswer (.node height) answer
      let blocks ← fetchHeights window tips rest
      return ⟨tip, body⟩ :: blocks

/-- Fetches what a hint leaves of a window. -/
def fetchHinted (window : Window) (tips : List Tip) (hint : Hint) : Task (List Block) := do
  let candidates := UInt64.ofNat hint.heights.length
  let heights ← stripBypass hint.heights
  let considered ← Work.checked do Word.add (← Word.sub hint.bound window.start) 1
  let skipped ← Work.checked (Word.sub considered candidates)
  noteSkipped "hint" skipped
  fetchHeights window tips heights

/-- Fetches a whole window. -/
def fetchWindow (window : Window) (tips : List Tip) : Task (List Block) := do
  let last ← Work.checked window.last
  let heights ← stripBypass (Window.heightsBetween window.start last)
  fetchHeights window tips heights

/-- Lets blocks enter the queue one after the other. -/
def sendAll : List Block → Task Unit
  | [] => return ()
  | block :: rest => do
    let taken ← Routine.ask (I := Surroundings) (.send block)
    match taken with
    | true => sendAll rest
    | false => Work.fail (.dispatch .consumerGone)

/-- Hands a batch on. -/
def enqueue (blocks : List Block) (height : UInt64) : Task Unit := do
  let previous ← Routine.ask (I := Surroundings) .buffered
  Work.ofAnswer .dispatch (Outbox.checkBatch previous blocks height)
  sendAll blocks
  Routine.ask (I := Surroundings) (.commit height)

/-- The first height that has not been handed on. -/
def nextHeight (plan : Plan) : Task UInt64 := do
  let buffered ← Routine.ask (I := Surroundings) .buffered
  match buffered with
  | some height => Work.checked (Word.add height 1)
  | none => return plan.settings.initialHeight

/-- Fetches the blocks that are wanted of a window; the second value is the height up to which that
settles everything. -/
def fetchPlanned (window : Window) (tips : List Tip) : Option Hint → Task (List Block × UInt64)
  | some hint => do
    let blocks ← fetchHinted window tips hint
    return (blocks, hint.bound)
  | none => do
    let blocks ← fetchWindow window tips
    let last ← Work.checked window.last
    return (blocks, last)

/-- The seconds between two times. -/
def secondsBetween (start stop : Nat) : Float := Float.ofNat (stop - start) / 1000

/-- Fetches the blocks of a window and hands them on. -/
def dispatch (plan : Plan) (window : Window) (latest : UInt64) : Task Outcome := do
  let tips ← windowTips window
  let started ← Routine.ask (I := Surroundings) .now
  let hint ← consultHints plan window latest
  let (blocks, height) ← fetchPlanned window tips hint
  enqueue blocks height
  Routine.remember fun bypass => bypass.consumeThrough height
  Work.note (.blocksFetched (UInt64.ofNat blocks.length))
  Work.note (.bufferedHeight height)
  let ended ← Routine.ask (I := Surroundings) .now
  Work.note (.batchFetchTime (secondsBetween started ended))
  return .dispatched window blocks.length height

/-- Plans one batch, fetches it and hands it on. -/
def iterate (plan : Plan) : Task Outcome := do
  let start ← nextHeight plan
  let free ← Routine.ask (I := Surroundings) .freeSlots
  let capacity := min (UInt64.ofNat free) plan.settings.maxBatchSize
  if capacity = 0 then return .backpressure
  else
    let latest ← Work.latestHeight plan.settings.useFinalized
    match ← Work.checked ((⟨start, capacity⟩ : Window).clamp latest) with
    | none => return .aheadOfTip start latest
    | some window => dispatch plan window latest

end Fetcher

end BlockFeed
