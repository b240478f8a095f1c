import BlockFeed.Chain.Header

/-!
# The outbox

Blocks are handed to one consumer through a queue of limited capacity. A batch comes with the height
up to which everything has been handled, fetched or skipped. A batch is only admitted if that height
moves on and its blocks are in strictly ascending order between the old height and the new one.

The blocks of an admitted batch enter the queue one by one, each when there is room; the height
moves once all of them have.
-/

namespace BlockFeed

/-- Why a batch is refused. -/
inductive DispatchError where
  /-- The height does not move on. -/
  | notAdvancing (height previous : UInt64)
  /-- A block is not above the last one, or above the height of the batch. -/
  | outOfOrder (block : UInt64) (last : Option UInt64) (height : UInt64)
  /-- Nobody takes blocks any more. -/
  | consumerGone
  deriving DecidableEq, Repr

/-- A height that may be missing, in messages. -/
def DispatchError.heightText : Option UInt64 → String
  | some h => "Some(" ++ Numeral.ofNat h.toNat ++ ")"
  | none => "None"

/-- The wording of a dispatch error. -/
def DispatchError.message : DispatchError → String
  | .notAdvancing height previous =>
    "buffered height " ++ Numeral.ofNat height.toNat ++ " does not advance past "
      ++ Numeral.ofNat previous.toNat
  | .outOfOrder block last height =>
    "block " ++ Numeral.ofNat block.toNat ++ " is out of order (last " ++ heightText last
      ++ ", buffered " ++ Numeral.ofNat height.toNat ++ ")"
  | .consumerGone => "block consumer has shut down"

/-- The queue to the consumer. -/
structure Outbox where
  capacity : Nat
  queue : List Block := []
  /-- The consumer is there. -/
  connected : Bool := true
  /-- The height up to which everything has been handed on. -/
  buffered : Option UInt64 := none
  deriving DecidableEq

namespace Outbox

/-- An empty queue, with room for one block at least. -/
def new (capacity : Nat) : Outbox := { capacity := max 1 capacity }

instance : Inhabited Outbox := ⟨new 1⟩

/-- The number of blocks that can enter without waiting. It is meant between batches: while a block waits to
enter, the next place that becomes free is kept for it, and is not free to others. -/
def freeSlots (o : Outbox) : Nat := o.capacity - o.queue.length

/-- Blocks are in ascending order after a height and up to another. -/
def checkOrder (height : UInt64) : (last : Option UInt64) → List Block → Except DispatchError Unit
  | _, [] => .ok ()
  | last, block :: rest =>
    if last.any (block.height ≤ ·) || height < block.height then
      .error (.outOfOrder block.height last height)
    else checkOrder height (some block.height) rest

/-- Whether a batch may be handed on after the height handed on before. -/
def checkBatch (previous : Option UInt64) (blocks : List Block) (height : UInt64) :
    Except DispatchError Unit :=
  match previous with
  | some p => if height ≤ p then .error (.notAdvancing height p) else checkOrder height previous blocks
  | none => checkOrder height previous blocks

/-- The queue after a block has entered. There must be room for it. -/
def push (o : Outbox) (block : Block) : Outbox := { o with queue := o.queue ++ [block] }

/-- Everything up to a height has been handed on. -/
def commit (o : Outbox) (height : UInt64) : Outbox := { o with buffered := some height }

/-- How far a batch has come. -/
inductive Offer where
  /-- All blocks have entered and the height has moved. -/
  | accepted
  /-- There is no room; these blocks still have to enter. -/
  | full (rest : List Block)
  | refused (error : DispatchError)

/-- Lets blocks of an admitted batch enter as far as there is room. -/
def fill (height : UInt64) : List Block → Outbox → Offer × Outbox
  | [], o => (.accepted, o.commit height)
  | block :: rest, o =>
    if !o.connected then (.refused .consumerGone, o)
    else if o.freeSlots = 0 then (.full (block :: rest), o)
    else fill height rest (o.push block)

/-- Hands a batch on as far as there is room. -/
def enqueue (o : Outbox) (blocks : List Block) (height : UInt64) : Offer × Outbox :=
  match checkBatch o.buffered blocks height with
  | .error e => (.refused e, o)
  | .ok _ => fill height blocks o

/-- The consumer takes blocks, up to a number of them. -/
def receive (o : Outbox) (limit : Option Nat) : List Block × Outbox :=
  let n := limit.getD o.queue.length
  (o.queue.take n, { o with queue := o.queue.drop n })

/-- The consumer goes away; what is queued is lost. -/
def disconnect (o : Outbox) : Outbox := { o with queue := [], connected := false }

end Outbox

end BlockFeed
