import BlockFeed.PointCache
import BlockFeed.Proofs.Chain.HashText
import BlockFeed.Proofs.Json.RoundTrip

/-!
# Cached tips

The text under which a tip is cached is read back as the tip (`Tip.ofCacheText?_toCacheText`), and the
keys of the cache tell heights from one another and from the resume cursor (`heightKey_inj`,
`heightKey_ne_cursorKey`).
-/

namespace BlockFeed

namespace Tip

theorem isWhole_ofWord (n : UInt64) : Json.IsWhole (.ofWord n) := ⟨n.toNat, rfl⟩

theorem toWord?_ofWord (n : UInt64) : (Json.ofWord n).toWord? = some n := by
  have hword := Numeral.word?_ofNat n
  have hsign : ∀ cs, (Numeral.ofNat n.toNat).toList ≠ '+' :: cs := by
    intro cs hplus
    rw [Numeral.ofNat, String.toList_ofList, ← List.append_nil (Numeral.digits _)] at hplus
    exact Json.digits_append_ne_cons rfl n.toNat [] cs hplus
  unfold Json.ofWord Json.toWord?
  split
  · rename_i literal heq
    cases heq
    split
    · rename_i cs hplus
      exact absurd hplus (hsign cs)
    · exact hword
  · rename_i hother
    exact absurd rfl (hother _)

theorem pointOfJson?_pointToJson (p : Point) : pointOfJson? (pointToJson p) = some p := by
  have hstructure : (pointToJson p).structure? ["slot", "hash"]
      = some [.ofWord p.slot, .string p.hash.toText] := rfl
  unfold pointOfJson?
  rw [hstructure]
  simp only [Option.bind_eq_bind, Option.bind_some, toWord?_ofWord, Json.toText?,
    BlockHash.ofText_toText]
  rfl

theorem ofJson?_toJson (t : Tip) : ofJson? t.toJson = some t := by
  have hstructure : t.toJson.structure? ["point", "blockNumber"]
      = some [pointToJson t.point, .ofWord t.number] := rfl
  unfold ofJson?
  rw [hstructure]
  simp only [Option.bind_eq_bind, Option.bind_some, toWord?_ofWord, pointOfJson?_pointToJson]
  rfl

/-- A cached tip is read back. -/
theorem ofCacheText?_toCacheText (t : Tip) : ofCacheText? t.toCacheText = some t := by
  have hwhole : Json.IsWhole t.toJson :=
    ⟨⟨isWhole_ofWord _, trivial, trivial⟩, isWhole_ofWord _, trivial⟩
  rw [ofCacheText?, toCacheText, Json.parse?_render hwhole]
  exact ofJson?_toJson t

end Tip

/-- Heights have keys of their own. -/
theorem heightKey_inj {h h' : UInt64} : heightKey h = heightKey h' ↔ h = h' := by
  constructor
  · intro heq
    have htext : Numeral.ofNat h.toNat = Numeral.ofNat h'.toNat := by
      rw [heightKey, heightKey, ← String.toList_inj, String.toList_append, String.toList_append] at heq
      exact String.toList_inj.mp (List.append_cancel_left heq)
    have hword := Numeral.word?_ofNat h
    rw [htext, Numeral.word?_ofNat h'] at hword
    exact (Option.some.inj hword).symm
  · rintro rfl
    rfl

/-- The key of a height is not that of the resume cursor. -/
theorem heightKey_ne_cursorKey (h : UInt64) : heightKey h ≠ cursorKey := by
  intro heq
  rw [heightKey, ← String.toList_inj, String.toList_append] at heq
  have hblock : "block-".toList = ['b', 'l', 'o', 'c', 'k', '-'] := rfl
  have hcursor : cursorKey.toList = ['s', 't', 'a', 'r', 't', '-', 'p', 'o', 'i', 'n', 't'] := rfl
  rw [hblock, hcursor, List.cons_append] at heq
  injection heq with hhead _
  cases hhead

end BlockFeed
