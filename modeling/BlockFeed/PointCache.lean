import BlockFeed.Chain.TipText
import BlockFeed.Text.Duration
import BlockFeed.Word

/-!
# The point cache

Walker and fetcher share a store of texts under keys. An entry may have a lifetime, after which it
reads as absent. Expired entries are dropped when they are read, when entries are counted, and by a
sweep on writing at most every `sweepInterval`. The store never looks into what it keeps, which may be
values of any type.

The clock counts its seconds in a signed word, so there is a last time it can tell. A lifetime that is
over only after that time cannot be kept: `set` finds out the end of a lifetime before anything else, and
fails with `Overflow` then.

The tip of a block is kept under a key of its height, the resume cursor under a key of its own.
-/

namespace BlockFeed

/-- Why a cached tip cannot be read or written. -/
inductive CacheError where
  /-- The text under a key is not that of a tip. -/
  | malformed (key : String)
  /-- The store failed; its own words are kept. -/
  | store (text : String)
  deriving DecidableEq, Repr

/-- The wording of a cache error. The fault of a malformed text is only marked. -/
def CacheError.message : CacheError → String
  | .malformed key => "malformed cache entry " ++ key ++ ": <json>"
  | .store text => text

/-- The key under which the tip of a height is cached. -/
def heightKey (height : UInt64) : String := "block-" ++ Numeral.ofNat height.toNat

/-- The key under which the resume cursor is cached. -/
def cursorKey : String := "start-point"

/-- The tip that a cached text stands for. -/
def decodeCached (key : String) : Option String → Except CacheError (Option Tip)
  | none => .ok none
  | some text =>
    match Tip.ofCacheText? text with
    | some tip => .ok (some tip)
    | none => .error (.malformed key)

/-- A value, by default a text, with the time from which on it is no longer valid. -/
structure CacheEntry (V : Type := String) where
  text : V
  expiresAt : Option Nat
  deriving DecidableEq, Repr, Inhabited

/-- The entry is valid at a time. -/
def CacheEntry.isLive {V : Type} (now : Nat) (e : CacheEntry V) : Bool :=
  match e.expiresAt with
  | none => true
  | some time => now < time

/-- A store of values, by default texts. Times are milliseconds since it was made. -/
structure PointCache (V : Type := String) where
  entries : List (String × CacheEntry V) := []
  lastSweep : Nat := 0
  /-- The last time that can be told. It is this one where the clock has begun with the store, and an
  earlier one where the clock has been going for a while. -/
  horizon : Nat := 0x8000000000000000 * 1000 - 1
  deriving DecidableEq, Repr, Inhabited

namespace PointCache

section
variable {V : Type}

/-- The least time between two sweeps, in milliseconds. -/
def sweepInterval : Nat := 60000

/-- Drops every expired entry. -/
def sweep (now : Nat) (c : PointCache V) : PointCache V :=
  { c with entries := c.entries.filter (·.2.isLive now), lastSweep := now }

/-- Forgets a key. -/
def remove (key : String) (c : PointCache V) : PointCache V :=
  { c with entries := c.entries.filter (·.1 ≠ key) }

/-- Reads a key; an expired entry is dropped. -/
def get (now : Nat) (key : String) (c : PointCache V) : Option V × PointCache V :=
  match c.entries.lookup key with
  | none => (none, c)
  | some entry => if entry.isLive now then (some entry.text, c) else (none, c.remove key)

/-- Sweeps if the last sweep is long enough ago. -/
def sweepIfDue (now : Nat) (c : PointCache V) : PointCache V :=
  if sweepInterval ≤ now - c.lastSweep then c.sweep now else c

/-- The time at which a lifetime that begins now is over, if the clock can tell it. -/
def expiry (now : Nat) (c : PointCache V) : Option Duration → Except Overflow (Option Nat)
  | none => .ok none
  | some lifetime =>
    if now + lifetime.millis ≤ c.horizon then .ok (some (now + lifetime.millis)) else .error .overflow

/-- Keeps a text under a key until a time, or for good. -/
def insert (now : Nat) (key : String) (text : V) (expiresAt : Option Nat) (c : PointCache V) :
    PointCache V :=
  let kept := (c.sweepIfDue now).remove key
  { kept with entries := (key, ⟨text, expiresAt⟩) :: kept.entries }

/-- Writes a key, for a lifetime or for good. Nothing is written if the end of the lifetime cannot be
told. -/
def set (now : Nat) (key : String) (text : V) (lifetime : Option Duration) (c : PointCache V) :
    Except Overflow (PointCache V) := do
  let expiresAt ← c.expiry now lifetime
  return c.insert now key text expiresAt

/-- The number of valid entries; the others are dropped. -/
def size (now : Nat) (c : PointCache V) : Nat × PointCache V :=
  let swept := c.sweep now
  (swept.entries.length, swept)

end

/-- Reads the tip of a height. -/
def getTip (now : Nat) (height : UInt64) (c : PointCache) :
    Except CacheError (Option Tip) × PointCache :=
  let (text, c) := c.get now (heightKey height)
  (decodeCached (heightKey height) text, c)

/-- Reads the resume cursor. -/
def getCursor (now : Nat) (c : PointCache) : Except CacheError (Option Tip) × PointCache :=
  let (text, c) := c.get now cursorKey
  (decodeCached cursorKey text, c)

/-- Writes a tip under its height. -/
def setTip (now : Nat) (tip : Tip) (lifetime : Duration) (c : PointCache) : Except Overflow PointCache :=
  c.set now (heightKey tip.number) tip.toCacheText (some lifetime)

/-- Writes the resume cursor. -/
def setCursor (now : Nat) (tip : Tip) (lifetime : Duration) (c : PointCache) :
    Except Overflow PointCache :=
  c.set now cursorKey tip.toCacheText (some lifetime)

end PointCache

end BlockFeed
