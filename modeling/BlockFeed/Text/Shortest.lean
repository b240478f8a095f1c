import BlockFeed.Text.Numeral

/-!
# Shortest decimals

A 64-bit float is `m · 2^q` for whole numbers `m` and `q`. Its shortest decimal is the one with the
fewest significant digits among those that read back as the same float, and the nearest of these.

`Shortest.digits?` searches the decimal grids from coarse to fine: on the grid with `k` digits it
looks at the two neighbours of the value and keeps those inside the interval of reals that round
to the float. The first grid with a hit wins.
-/

namespace BlockFeed.Shortest

/-- A positive binary value `mantissa · 2^exponent` with the half-distances to its neighbours. -/
structure Binary where
  mantissa : Nat
  exponent : Int
  /-- The lower neighbour is half as far as the upper one. -/
  narrowBelow : Bool

/-- A decimal `coefficient · 10^exponent`. -/
structure Decimal where
  coefficient : Nat
  exponent : Int
  deriving DecidableEq, Repr

/-- The magnitude of a finite float other than zero. -/
def Binary.ofBits (bits : UInt64) : Binary :=
  let fraction : Nat := bits.toNat % 0x10000000000000
  let biased : Nat := bits.toNat / 0x10000000000000 % 0x800
  if biased = 0 then ⟨fraction, -1074, false⟩
  else ⟨0x10000000000000 + fraction, biased - 1075, fraction = 0 && biased > 1⟩

/-- Four times the value, its lower and its upper rounding bound, as whole multiples of a common
unit, together with the unit of the decimal grid `10^grid` on the same scale. -/
structure Scaled where
  value : Nat
  lower : Nat
  upper : Nat
  unit : Nat

/-- Brings the value, its bounds and the grid to whole numbers. -/
def Binary.scale (b : Binary) (grid : Int) : Scaled :=
  let twos := (b.exponent - 2).toNat
  let halves := (2 - b.exponent).toNat
  let tens := grid.toNat
  let tenths := (-grid).toNat
  let lift := Nat.pow 2 twos * Nat.pow 10 tenths
  ⟨4 * b.mantissa * lift,
   (4 * b.mantissa - (if b.narrowBelow then 1 else 2)) * lift,
   (4 * b.mantissa + 2) * lift,
   Nat.pow 10 tens * Nat.pow 2 halves⟩

/-- A point of the grid reads back as the float: it lies between the bounds, which themselves
count when the mantissa is even. -/
def Scaled.readsBack (s : Scaled) (even : Bool) (point : Nat) : Bool :=
  let p := point * s.unit
  if even then s.lower ≤ p && p ≤ s.upper else s.lower < p && p < s.upper

/-- The nearest point of the grid that reads back, if there is one. -/
def Scaled.best? (s : Scaled) (even : Bool) : Option Nat :=
  let below := s.value / s.unit
  let above := below + 1
  match s.readsBack even below, s.readsBack even above with
  | true, true =>
    let down := s.value - below * s.unit
    let up := above * s.unit - s.value
    if down < up || (down = up && below % 2 = 0) then some below else some above
  | true, false => some below
  | false, true => some above
  | false, false => none

/-- The number of decimal digits of a natural number. -/
def length (n : Nat) : Nat := (Numeral.digits n).length

/-- The power of ten of the first significant digit of a positive value, possibly one too low. -/
def Binary.magnitude (b : Binary) : Int :=
  if 0 ≤ b.exponent then (length (b.mantissa * Nat.pow 2 b.exponent.toNat) : Int) - 1
  else
    let whole := b.mantissa / Nat.pow 2 (-b.exponent).toNat
    if whole ≠ 0 then (length whole : Int) - 1
    else (length (b.mantissa * Nat.pow 10 400 / Nat.pow 2 (-b.exponent).toNat) : Int) - 401

/-- Searches the grids from the `digits`-th on for the first with a hit. -/
def search (b : Binary) (magnitude : Int) : (remaining digits : Nat) → Decimal
  | 0, _ => ⟨0, 0⟩
  | remaining + 1, digits =>
    let grid := magnitude + 1 - digits
    match (b.scale grid).best? (b.mantissa % 2 = 0) with
    | some point => ⟨point, grid⟩
    | none => search b magnitude remaining (digits + 1)

/-- The shortest decimal of the magnitude with these bits. -/
def Decimal.ofBits (bits : UInt64) : Decimal :=
  let b := Binary.ofBits bits
  search b b.magnitude 20 1

/-- A decimal in positional notation: no exponent, and a point only where there are decimals. -/
def Decimal.positional (d : Decimal) : String :=
  let digits := Numeral.digits d.coefficient
  if 0 ≤ d.exponent then String.ofList (digits ++ List.replicate d.exponent.toNat '0')
  else
    let places := (-d.exponent).toNat
    let padded := List.replicate (places + 1 - digits.length) '0' ++ digits
    let whole := padded.take (padded.length - places)
    let fraction := ((padded.drop (padded.length - places)).reverse.dropWhile (· = '0')).reverse
    if fraction.isEmpty then String.ofList whole
    else String.ofList (whole ++ '.' :: fraction)

/-- A float as the shortest decimal that reads back, in positional notation. -/
def ofFloat (x : Float) : String :=
  let bits := x.toBits
  let sign := if bits.toNat / 0x8000000000000000 = 1 then "-" else ""
  if x.isNaN then "NaN"
  else if x.isInf then sign ++ "inf"
  else if bits.toNat % 0x8000000000000000 = 0 then sign ++ "0"
  else sign ++ (Decimal.ofBits bits).positional

end BlockFeed.Shortest
