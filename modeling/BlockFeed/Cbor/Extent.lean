import BlockFeed.Cbor.Reader

/-!
# The extent of an item

How far the first CBOR item of a byte string reaches, without interpreting it. The input is taken
apart into tokens: complete leaves, heads that announce further items, tags, and stop bytes. A
`Pending` value counts the items still owed. Arrays and maps of definite length only raise the
count; one of open length inside a counted one sets the count aside on a stack.

`itemLength?` is what reassembly of messages uses: the length of the first item, `none` while the
input is a proper beginning of one, and a fault when it can be no such beginning.
-/

namespace BlockFeed.Cbor

/-- A token of the input. -/
inductive Token where
  /-- A complete item: an integer, a string, a simple value or a float. -/
  | leaf
  /-- The head of an array or a map with the number of items in it, unless that is left open. -/
  | opening (items : Option Nat)
  /-- A tag, which belongs to the item after it. -/
  | tag
  /-- The stop byte. -/
  | stop
  deriving DecidableEq, Repr

/-- What stands in the place of a chunk is none. A negative integer with its argument in further bytes
is told from other items by the second of these, without which the input is cut short. -/
def notAChunk : Reader Fault Unit := fun input =>
  match input with
  | b :: rest => .error (if 0x38 ≤ b && b ≤ 0x3B && rest.length < 2 then .truncated else .malformed)
  | [] => .error .truncated

/-- Skips the chunks of a string of open length, up to the stop byte. -/
def chunks (major : Nat) (accept : Bytes → Bool) : Nat → Reader Fault Unit
  | 0 => Reader.fail .truncated
  | fuel + 1 => do
    let b ← peek
    if b = stopByte then
      let _ ← byte
      return ()
    else if b.toNat / 32 ≠ major then notAChunk
    else
      let piece ← content major
      if accept piece then chunks major accept fuel else Reader.fail .malformed

/-- Skips a byte or text string; every piece of it must be acceptable. -/
def skipString (major : Nat) (accept : Bytes → Bool) : Reader Fault Unit := do
  let b ← peek
  if b.toNat % 32 = 31 then
    let _ ← byte
    fun input => chunks major accept (input.length + 1) input
  else
    let piece ← content major
    if accept piece then pure () else Reader.fail .malformed

/-- A byte string that is well-formed UTF-8. -/
def isText (content : Bytes) : Bool := (Bytes.toText? content).isSome

/-- The next token. -/
def token : Reader Fault Token := do
  let b ← peek
  let major := b.toNat / 32
  let info := b.toNat % 32
  if major = 2 then
    skipString 2 (fun _ => true)
    return .leaf
  else if major = 3 then
    skipString 3 isText
    return .leaf
  else
    let _ ← byte
    if major = 4 then
      if info = 31 then return .opening none
      else
        let n ← argument info
        return .opening (some n.toNat)
    else if major = 5 then
      if info = 31 then return .opening none
      else
        let n ← argument info
        return .opening (some (2 * n.toNat))
    else if major = 6 then
      let _ ← argument info
      return .tag
    else if major = 7 && info = 31 then return .stop
    else
      let _ ← argument info
      return .leaf

/-- What is still to come of an item. -/
structure Pending where
  /-- Items owed at the current level. -/
  items : Nat
  /-- Items of open length at the current level that have not been stopped. -/
  unstopped : Nat
  /-- Levels set aside: items owed, or `none` for one of open length. -/
  outer : List (Option Nat)
  deriving DecidableEq, Repr

namespace Pending

/-- One whole item. -/
def one : Pending := ⟨1, 0, []⟩

/-- Nothing is owed at the current level. -/
def levelDone (p : Pending) : Bool := p.items = 0 && p.unstopped = 0

/-- Drops the levels set aside that owe nothing, and charges the item just completed to the
innermost one left. No level left means that the whole item is complete. -/
def settleOuter (outer : List (Option Nat)) : Option Pending :=
  match outer.dropWhile (· = some 0) with
  | [] => none
  | some n :: rest => some ⟨0, 0, some (n - 1) :: rest⟩
  | none :: rest => some ⟨0, 0, none :: rest⟩

/-- An item has been dealt with at the current level. The result is `none` once nothing is left. -/
def settle (p : Pending) : Option Pending :=
  if p.levelDone then settleOuter p.outer
  else
    let next : Pending := { p with items := p.items - 1 }
    if next.levelDone && next.outer.isEmpty then none else some next

/-- The head of an array or map has been met. -/
def enter (p : Pending) : Option Nat → Pending
  | some 0 => p
  | some n =>
    if p.levelDone then { p with outer := some n :: p.outer } else { p with items := p.items + n }
  | none =>
    if p.levelDone then { p with outer := none :: p.outer }
    else if p.items < 2 then { p with unstopped := p.unstopped + 1 }
    else ⟨0, 0, none :: some (p.items - 1) :: (List.replicate p.unstopped none ++ p.outer)⟩

/-- A stop byte has been met. -/
def leave (p : Pending) : Pending :=
  if p.levelDone then
    match p.outer with
    | none :: rest => { p with outer := rest }
    | _ => p
  else { p with unstopped := p.unstopped - 1 }

/-- What is still to come after a token; `none` once the item is complete. -/
def after (p : Pending) : Token → Option Pending
  | .leaf => p.settle
  | .opening items => (p.enter items).settle
  | .tag => some p
  | .stop => p.leave.settle

end Pending

/-- Skips what is pending. Every token takes a byte at least, so the length of the input bounds
their number. -/
def skipPending : (fuel : Nat) → Pending → Reader Fault Unit
  | 0, _ => Reader.fail .truncated
  | fuel + 1, p => do
    match p.after (← token) with
    | none => return ()
    | some next => skipPending fuel next

/-- Skips one item. -/
def skipItem : Reader Fault Unit := fun input => skipPending (input.length + 1) .one input

/-- The bytes of one item, uninterpreted. -/
def rawItem : Reader Fault Bytes := fun input =>
  match skipItem input with
  | .ok (_, rest) => .ok (input.take (input.length - rest.length), rest)
  | .error e => .error e

/-- The length of the first item of the input, or `none` if the input only begins one. -/
def itemLength? (input : Bytes) : Except Fault (Option Nat) :=
  match skipItem input with
  | .ok (_, rest) => .ok (some (input.length - rest.length))
  | .error .truncated => .ok none
  | .error .malformed => .error .malformed

end BlockFeed.Cbor
