import BlockFeed.Text.Address

/-!
# Endpoints

An endpoint is a host and a port, divided by the last colon. A host is an address or a name. An IPv4
address may be written loosely: each part is decimal, octal after a leading zero or hexadecimal after
`0x`, and the last of fewer than four parts stands for all the octets that are left.
-/

namespace BlockFeed

/-- A host of the network. -/
inductive Host where
  | address (address : Address)
  | name (text : String)
  deriving DecidableEq, Repr, Inhabited

/-- A port of a host. -/
structure Endpoint where
  host : Host
  port : UInt16
  deriving DecidableEq, Repr, Inhabited

namespace Host

/-- A part of a loosely written address. -/
def part? : List Char → Option Nat
  | '0' :: 'x' :: digits => Numeral.inBase? 16 digits
  | '0' :: 'X' :: digits => Numeral.inBase? 16 digits
  | '0' :: digits => Numeral.inBase? 8 ('0' :: digits)
  | digits => Numeral.natural? digits

/-- The parts of a text that its points divide. -/
def parts (cs : List Char) : List (List Char) :=
  cs.foldr
    (fun c parts =>
      match c, parts with
      | '.', parts => [] :: parts
      | c, part :: parts => (c :: part) :: parts
      | c, [] => [[c]])
    [[]]

/-- The octets of a number, the highest first. -/
def octets (count : Nat) (number : Nat) : List Nat :=
  ((List.range count).map fun i => number / Nat.pow 256 i % 256).reverse

/-- The octets of a loosely written address. -/
def looseOctets? (cs : List Char) : Option (List Nat) := do
  let numbers ← (parts cs).mapM part?
  let high := numbers.dropLast
  let low ← numbers.getLast?
  let left := 4 - high.length
  if high.length < 4 && high.all (· < 256) && low < Nat.pow 256 left then
    return high ++ octets left low
  else none

/-- The text between square brackets. -/
def bracketed? (cs : List Char) : Option (List Char) :=
  match cs with
  | '[' :: rest => if rest.getLast? = some ']' then some rest.dropLast else none
  | _ => none

/-- Reads a host. An IPv6 address may stand in square brackets. -/
def ofChars (cs : List Char) : Host :=
  match looseOctets? cs with
  | some octets => .address (.v4 octets)
  | none =>
    match Address.v6? ((bracketed? cs).getD cs) with
    | some groups => .address (.v6 groups)
    | none => .name (String.ofList cs)

/-- A text by which the host can be looked up. -/
def toText : Host → String
  | .address a => a.toText
  | .name text => text

/-- The host has an IPv4 address without being looked up elsewhere. -/
def isLocalOrV4 : Host → Bool
  | .address (.v4 _) => true
  | .address (.v6 _) => false
  | .name text => text = "localhost"

end Host

/-- Reads an endpoint. -/
def Endpoint.ofText? (text : String) : Option Endpoint := do
  let (port, host) := text.toList.reverse.span (· ≠ ':')
  match host with
  | _ :: host => return ⟨Host.ofChars host.reverse, ← Numeral.word16? port.reverse⟩
  | [] => none

end BlockFeed
