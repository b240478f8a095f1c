/-!
# Numerals

Heights, slots and settings are written in decimal. A numeral is read with an optional plus sign
and any number of leading zeros, and must fit the word it is read into. Digits of another base, up to
sixteen, are read by `inBase?`.

`word?_ofNat` says that what is written is read back.
-/

namespace BlockFeed.Numeral

/-- The decimal digits of a number, without leading zeros. -/
def digits (n : Nat) : List Char :=
  Nat.toDigits 10 n

/-- A number in decimal. -/
def ofNat (n : Nat) : String :=
  String.ofList (digits n)

/-- An ASCII decimal digit. -/
def isDigit (c : Char) : Bool :=
  '0' ≤ c && c ≤ '9'

/-- The number that a non-empty run of digits denotes. -/
def natural? (cs : List Char) : Option Nat :=
  if cs.isEmpty || !cs.all isDigit then none else some (Nat.ofDigitChars 10 cs 0)

/-- The value of a hexadecimal digit, in either letter case. -/
def hexDigit? (c : Char) : Option Nat :=
  if isDigit c then some (c.toNat - 48)
  else if 'a' ≤ c && c ≤ 'f' then some (c.toNat - 87)
  else if 'A' ≤ c && c ≤ 'F' then some (c.toNat - 55)
  else none

/-- The number that a non-empty run of digits in a base up to sixteen denotes. -/
def inBase? (base : Nat) (cs : List Char) : Option Nat :=
  if cs.isEmpty then none
  else do
    let values ← cs.mapM fun c => (hexDigit? c).filter (· < base)
    return values.foldl (fun acc d => acc * base + d) 0

/-- A numeral below the bound, after one optional plus sign. -/
def below? (bound : Nat) (cs : List Char) : Option Nat :=
  let unsigned := match cs with
    | '+' :: rest => rest
    | _ => cs
  (natural? unsigned).filter (· < bound)

/-- A numeral that fits a 64-bit word. -/
def word? (cs : List Char) : Option UInt64 :=
  (below? UInt64.size cs).map UInt64.ofNat

/-- A numeral that fits a 16-bit word. -/
def word16? (cs : List Char) : Option UInt16 :=
  (below? UInt16.size cs).map UInt16.ofNat

theorem isDigit_of_mem_digits {n : Nat} {c : Char} (h : c ∈ digits n) : isDigit c = true := by
  have := Nat.isDigit_of_mem_toDigits (by decide) (by decide) h
  simp only [Char.isDigit, Bool.and_eq_true, decide_eq_true_eq] at this
  simp only [isDigit, Bool.and_eq_true, decide_eq_true_eq]
  exact this

theorem digits_ne_nil (n : Nat) : digits n ≠ [] := Nat.toDigits_ne_nil

theorem natural?_digits (n : Nat) : natural? (digits n) = some n := by
  have hall : (digits n).all isDigit = true :=
    List.all_eq_true.2 fun _ h => isDigit_of_mem_digits h
  rw [natural?, hall]
  simp [digits]

/-- A written word is read back. -/
theorem word?_ofNat (n : UInt64) : word? (ofNat n.toNat).toList = some n := by
  have hplus : ∀ rest, digits n.toNat ≠ '+' :: rest := by
    intro rest h
    have := isDigit_of_mem_digits (n := n.toNat) (c := '+') (by simp [h])
    simp [isDigit] at this
  have hlt := n.toNat_lt
  unfold word? below? ofNat
  rw [String.toList_ofList]
  split
  · exact absurd ‹_› (hplus _)
  · simp [natural?_digits, Option.filter, UInt64.size, hlt]

end BlockFeed.Numeral
