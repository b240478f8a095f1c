import BlockFeed.Text.Numeral

/-!
# Durations

Timeouts, delays and lifetimes are whole numbers of milliseconds. Waits between attempts are counted in
nanoseconds, since they can be any span; a timer waits for whole milliseconds, and no less. In messages a duration is shown
in seconds once it reaches one, with as many decimals as it needs, and in milliseconds below that;
no time at all is shown as `0ns`.
-/

namespace BlockFeed

/-- A span of time, in milliseconds. -/
structure Duration where
  millis : Nat
  deriving DecidableEq, Repr, Inhabited

namespace Duration

/-- A span given in milliseconds. -/
def ofMillis (n : UInt64) : Duration := ⟨n.toNat⟩

/-- A span given in seconds. -/
def ofSeconds (n : UInt64) : Duration := ⟨n.toNat * 1000⟩

/-- The nanoseconds in a millisecond. -/
def nanosPerMilli : Nat := 1000000

/-- A span in nanoseconds. -/
def nanos (d : Duration) : Nat := d.millis * nanosPerMilli

/-- The whole milliseconds in a number of nanoseconds. -/
def ofNanos (nanos : Nat) : Duration := ⟨nanos / nanosPerMilli⟩

/-- The whole milliseconds that a timer waits to let a number of nanoseconds pass. -/
def covering (nanos : Nat) : Duration := ofNanos (nanos + (nanosPerMilli - 1))

/-- Three decimals of a second without trailing zeros. -/
def decimals (millis : Nat) : List Char :=
  let three := [millis / 100 % 10, millis / 10 % 10, millis % 10]
  (three.reverse.dropWhile (· = 0)).reverse.map Nat.digitChar

/-- The text of a duration in messages. -/
def toText (d : Duration) : String :=
  let seconds := d.millis / 1000
  let rest := d.millis % 1000
  if d.millis = 0 then "0ns"
  else if seconds = 0 then Numeral.ofNat rest ++ "ms"
  else if rest = 0 then Numeral.ofNat seconds ++ "s"
  else Numeral.ofNat seconds ++ "." ++ String.ofList (decimals rest) ++ "s"

end Duration

end BlockFeed
