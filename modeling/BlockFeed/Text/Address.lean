import BlockFeed.Text.Numeral

/-!
# IP addresses

An address is four bytes in dotted decimal, or eight groups of sixteen bits in hexadecimal, where
one run of zero groups may be left out and the last two groups may be dotted decimal. The canonical
text leaves out the longest run of at least two zero groups, the first of several.
-/

namespace BlockFeed

/-- An IP address. -/
inductive Address where
  | v4 (octets : List Nat)
  | v6 (groups : List Nat)
  deriving DecidableEq, Repr, Inhabited

namespace Address

/-- The address of the local host. -/
def localhost : Address := .v4 [127, 0, 0, 1]

/-- An octet in decimal, at most three digits without leading zero, with the input after it. -/
def octet? (cs : List Char) : Option (Nat × List Char) :=
  let ds := cs.takeWhile Numeral.isDigit
  let n := Nat.ofDigitChars 10 ds 0
  if ds.isEmpty || ds.length > 3 || (ds.length > 1 && ds.head? = some '0') || n > 255 then none
  else some (n, cs.drop ds.length)

/-- The character expected next. -/
def expect (c : Char) : List Char → Option (List Char)
  | d :: rest => if c = d then some rest else none
  | [] => none

/-- Four octets divided by points, with the input after them. -/
def dotted? (cs : List Char) : Option (List Nat × List Char) := do
  let (a, cs) ← octet? cs
  let (b, cs) ← octet? (← expect '.' cs)
  let (c, cs) ← octet? (← expect '.' cs)
  let (d, cs) ← octet? (← expect '.' cs)
  return ([a, b, c, d], cs)

/-- A group of one to four hexadecimal digits, with the input after it. -/
def group? (cs : List Char) : Option (Nat × List Char) :=
  let ds := cs.takeWhile fun c => (Numeral.hexDigit? c).isSome
  if ds.length > 4 then none
  else (Numeral.inBase? 16 ds).map (·, cs.drop ds.length)

/-- The colon before every group but the first. -/
def separator? (first : Bool) (cs : List Char) : Option (List Char) :=
  if first then some cs else expect ':' cs

/-- As many groups as the input has, up to a limit; says whether they end in dotted decimal. -/
def groups : (limit : Nat) → (first : Bool) → List Char → List Nat × Bool × List Char
  | 0, _, cs => ([], false, cs)
  | limit + 1, first, cs =>
    let dotted := if limit = 0 then none else do dotted? (← separator? first cs)
    match dotted with
    | some ([a, b, c, d], rest) => ([a * 256 + b, c * 256 + d], true, rest)
    | _ =>
      match (do group? (← separator? first cs)) with
      | none => ([], false, cs)
      | some (g, rest) =>
        let (gs, dotted, rest) := groups limit false rest
        (g :: gs, dotted, rest)

/-- The eight groups of an address. -/
def v6? (cs : List Char) : Option (List Nat) := do
  let (head, dotted, rest) := groups 8 true cs
  if head.length = 8 then (if rest.isEmpty then some head else none)
  else if dotted then none
  else
    let rest ← expect ':' (← expect ':' rest)
    let (tail, _, rest) := groups (7 - head.length) true rest
    if rest.isEmpty then
      some (head ++ List.replicate (8 - head.length - tail.length) 0 ++ tail)
    else none

/-- Reads an address. -/
def ofText? (text : String) : Option Address :=
  let cs := text.toList
  match dotted? cs with
  | some (octets, []) => some (.v4 octets)
  | _ => (v6? cs).map .v6

/-- Octets in dotted decimal. -/
def dottedText (octets : List Nat) : String :=
  ".".intercalate (octets.map Numeral.ofNat)

/-- Groups in hexadecimal, divided by colons. -/
def groupsText (groups : List Nat) : String :=
  ":".intercalate (groups.map fun g => String.ofList (Nat.toDigits 16 g))

/-- The length of the run of zeros that begins a list. -/
def zeroRun (groups : List Nat) : Nat := (groups.takeWhile (· = 0)).length

/-- The start and length of the longest run of zero groups, the first of several. -/
def longestZeroRun (groups : List Nat) : Nat × Nat :=
  (List.range groups.length).foldl
    (fun best i =>
      let n := zeroRun (groups.drop i)
      if n > best.2 then (i, n) else best)
    (0, 0)

/-- The canonical text of an address. -/
def toText : Address → String
  | .v4 octets => dottedText octets
  | .v6 [0, 0, 0, 0, 0, 0xFFFF, a, b] =>
    "::ffff:" ++ dottedText [a / 256, a % 256, b / 256, b % 256]
  | .v6 groups =>
    let (start, length) := longestZeroRun groups
    if length < 2 then groupsText groups
    else groupsText (groups.take start) ++ "::" ++ groupsText (groups.drop (start + length))

end Address

end BlockFeed
