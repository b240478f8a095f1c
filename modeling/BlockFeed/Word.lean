/-!
# Arithmetic on 64-bit words

Heights, slots and counts are 64-bit words. Where they may run out of range one of two rules holds:
the result stays at the bound (saturating), or there is no result and the computation fails with
`Overflow` (checked).
-/

namespace BlockFeed

/-- A height or count left the 64-bit range. -/
inductive Overflow where
  | overflow
  deriving DecidableEq, Repr

namespace Word

/-- The largest word. -/
def max : UInt64 := 0xFFFFFFFFFFFFFFFF

/-- The next word; the largest stays where it is. -/
def satSucc (n : UInt64) : UInt64 := if n = max then max else n + 1

/-- The difference, or zero. -/
def satSub (a b : UInt64) : UInt64 := if a < b then 0 else a - b

/-- The product, or the largest word. -/
def satMul (a b : UInt64) : UInt64 :=
  if a.toNat * b.toNat < UInt64.size then a * b else max

/-- The sum, if it is a word. -/
def add (a b : UInt64) : Except Overflow UInt64 :=
  if a.toNat + b.toNat < UInt64.size then .ok (a + b) else .error .overflow

/-- The difference, if it is a word. -/
def sub (a b : UInt64) : Except Overflow UInt64 :=
  if b ≤ a then .ok (a - b) else .error .overflow

theorem toNat_satSucc (n : UInt64) : (satSucc n).toNat = min (n.toNat + 1) 0xFFFFFFFFFFFFFFFF := by
  unfold satSucc max
  split
  · subst_vars; rfl
  · have h := n.toNat_lt
    rename_i hne
    have hne' : n.toNat ≠ 18446744073709551615 := fun e => hne (UInt64.toNat_inj.mp e)
    rw [UInt64.toNat_add]
    simp only [UInt64.toNat_one]
    omega

end Word

end BlockFeed
