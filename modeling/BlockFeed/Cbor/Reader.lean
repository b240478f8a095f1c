import BlockFeed.Bytes

/-!
# Reading CBOR

A reader takes what it needs from the front of a byte string and hands on the rest. Integers,
lengths and tags may be written in any width; byte and text strings must have a definite length.

Only two faults are told apart: the input ends inside an item, or it holds something else than
what is asked for.
-/

namespace BlockFeed.Cbor

/-- Why an item could not be read. -/
inductive Fault where
  /-- The input ends before the item does. -/
  | truncated
  /-- The input holds another kind of item, or none at all. -/
  | malformed
  deriving DecidableEq, Repr, Inhabited

/-- A fault of the format itself is only marked in messages. -/
def Fault.message (_ : Fault) : String := "<cbor>"

/-- Takes a value from the front of a byte string, or fails with a cause `ε`. -/
def Reader (ε α : Type) : Type := Bytes → Except ε (α × Bytes)

namespace Reader

variable {ε ε' α β : Type}

/-- Reads from a byte string; the value is returned with the bytes that follow it. -/
def run (r : Reader ε α) (input : Bytes) : Except ε (α × Bytes) := r input

/-- Reads from a byte string; what follows the value is ignored. -/
def value (r : Reader ε α) (input : Bytes) : Except ε α := (r input).map Prod.fst

protected def pure (a : α) : Reader ε α := fun input => .ok (a, input)

protected def bind (r : Reader ε α) (f : α → Reader ε β) : Reader ε β := fun input =>
  match r input with
  | .ok (a, rest) => f a rest
  | .error e => .error e

instance : Monad (Reader ε) where
  pure := Reader.pure
  bind := Reader.bind

/-- Fails with a cause. -/
def fail (e : ε) : Reader ε α := fun _ => .error e

/-- Reports a failure under another cause. -/
def mapError (f : ε → ε') (r : Reader ε α) : Reader ε' α := fun input => (r input).mapError f

@[simp] theorem run_pure (a : α) (input : Bytes) :
    (pure a : Reader ε α).run input = .ok (a, input) := rfl

@[simp] theorem run_bind (r : Reader ε α) (f : α → Reader ε β) (input : Bytes) :
    (r >>= f).run input = match r.run input with
      | .ok (a, rest) => (f a).run rest
      | .error e => .error e := rfl

@[simp] theorem run_map (r : Reader ε α) (f : α → β) (input : Bytes) :
    (f <$> r).run input = match r.run input with
      | .ok (a, rest) => .ok (f a, rest)
      | .error e => .error e := rfl

@[simp] theorem run_fail (e : ε) (input : Bytes) :
    (fail e : Reader ε α).run input = .error e := rfl

@[simp] theorem run_mapError (f : ε → ε') (r : Reader ε α) (input : Bytes) :
    (r.mapError f).run input = (r.run input).mapError f := rfl

/-- The same reader a number of times. -/
def times (r : Reader ε α) : Nat → Reader ε (List α)
  | 0 => pure []
  | n + 1 => do
    let a ← r
    let as ← times r n
    return a :: as

end Reader

/-- A byte string split after its first byte. -/
def byte : Reader Fault UInt8
  | [] => .error .truncated
  | b :: rest => .ok (b, rest)

/-- The first bytes of the input, as many as asked for. -/
def take (n : Nat) : Reader Fault Bytes := fun input =>
  if n ≤ input.length then .ok (input.take n, input.drop n) else .error .truncated

/-- A big-endian word of a number of bytes. -/
def word (width : Nat) : Reader Fault UInt64 := do
  let content ← take width
  return UInt64.ofNat (Bytes.ofBigEndian content)

/-- The argument that the low five bits of an initial byte announce. -/
def argument (info : Nat) : Reader Fault UInt64 :=
  if info < 24 then pure (UInt64.ofNat info)
  else if info = 24 then word 1
  else if info = 25 then word 2
  else if info = 26 then word 4
  else if info = 27 then word 8
  else Reader.fail .malformed

/-- The low five bits of an initial byte of the given major type. -/
def initial (major : Nat) : Reader Fault Nat := do
  let b ← byte
  if b.toNat / 32 = major then pure (b.toNat % 32) else Reader.fail .malformed

/-- An unsigned integer of any width. -/
def readUInt : Reader Fault UInt64 := do
  argument (← initial 0)

/-- An unsigned integer below 256, of any width. -/
def readUInt8 : Reader Fault UInt8 := do
  let n ← readUInt
  if n.toNat < 256 then pure n.toUInt8 else Reader.fail .malformed

/-- A length that may be left open. -/
def lengthOf (major : Nat) : Reader Fault (Option UInt64) := do
  let info ← initial major
  if info = 31 then pure none else some <$> argument info

/-- The head of an array: its length, unless that is left open. -/
def readArray : Reader Fault (Option UInt64) := lengthOf 4

/-- The head of a map: its number of entries, unless that is left open. -/
def readMap : Reader Fault (Option UInt64) := lengthOf 5

/-- The content of a byte or text string of definite length. -/
def content (major : Nat) : Reader Fault Bytes := do
  let n ← argument (← initial major)
  take n.toNat

/-- A byte string. -/
def readBytes : Reader Fault Bytes := content 2

/-- A text string, which must be well-formed UTF-8. -/
def readText : Reader Fault String := do
  let utf8 ← content 3
  match Bytes.toText? utf8 with
  | some s => pure s
  | none => Reader.fail .malformed

/-- The number of a tag. -/
def readTag : Reader Fault UInt64 := do
  argument (← initial 6)

/-- A truth value. -/
def readBool : Reader Fault Bool := do
  let b ← byte
  if b = 0xF4 then pure false
  else if b = 0xF5 then pure true
  else Reader.fail .malformed

/-- The next byte of the input, which is left where it is. -/
def peek : Reader Fault UInt8
  | [] => .error .truncated
  | b :: rest => .ok (b, b :: rest)

/-- The byte that closes an item of open length. -/
def stopByte : UInt8 := 0xFF

/-- Elements up to a stop byte. Every element takes a byte at least, so the length of the input
bounds their number. -/
def untilStop {ε α : Type} (lift : Fault → ε) (element : Reader ε α) : Nat → Reader ε (List α)
  | 0 => Reader.fail (lift .truncated)
  | fuel + 1 => do
    let b ← peek.mapError lift
    if b = stopByte then
      let _ ← byte.mapError lift
      return []
    else
      let a ← element
      let as ← untilStop lift element fuel
      return a :: as

/-- The elements of an array, of definite or open length. -/
def elements {ε α : Type} (lift : Fault → ε) (element : Reader ε α) : Reader ε (List α) := do
  match ← readArray.mapError lift with
  | some n => element.times n.toNat
  | none => fun input => untilStop lift element (input.length + 1) input

end BlockFeed.Cbor
