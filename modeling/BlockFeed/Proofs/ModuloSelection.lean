import BlockFeed.DataSource
import BlockFeed.Proofs.Window

/-!
# What a modulo selection selects

Sorting and dropping repetitions leaves the same heights in strictly ascending order
(`mem_sortDedup`, `pairwise_sortDedup`). A selection misses nothing: between two heights it has every
one that the modulus of an active source divides (`mem_heights_of_dvd`). The candidates are the
multiples of the modulus, and neither the bound on their number nor the end of the range of words cuts
one of them off.

Nothing else is selected (`heights_selected`), with one exception. Where the next multiple is out of range the
first candidate is the largest height, which nobody has asked for (`selects_largest_undivided`).
-/

namespace BlockFeed

namespace ModuloSelection

/-! ## Sorting -/

theorem mem_dropRepeats {h : UInt64} {heights : List UInt64} :
    h ∈ dropRepeats heights ↔ h ∈ heights := by
  fun_induction dropRepeats heights with
  | case1 b rest ih => rw [ih]; simp
  | case2 a b rest hne ih => rw [List.mem_cons, ih, List.mem_cons (a := h) (b := a)]
  | case3 => exact Iff.rfl

theorem pairwise_dropRepeats {heights : List UInt64} (hsorted : heights.Pairwise (· ≤ ·)) :
    (dropRepeats heights).Pairwise (· < ·) := by
  fun_induction dropRepeats heights with
  | case1 b rest ih => exact ih hsorted.tail
  | case2 a b rest hne ih =>
    refine List.pairwise_cons.mpr ⟨fun h hmem => ?_, ih hsorted.tail⟩
    obtain ⟨hfirst, hrest⟩ := List.pairwise_cons.mp hsorted
    have hab : a < b := UInt64.lt_of_le_of_ne (hfirst b List.mem_cons_self) hne
    rw [mem_dropRepeats] at hmem
    rcases List.mem_cons.mp hmem with rfl | hmem
    · exact hab
    · exact UInt64.lt_of_lt_of_le hab ((List.pairwise_cons.mp hrest).1 h hmem)
  | case3 heights hshort =>
    match heights, hshort with
    | [], _ => exact .nil
    | [a], _ => exact List.pairwise_singleton _ _
    | a :: b :: rest, hshort => exact absurd rfl (hshort a b rest)

theorem mem_sortDedup {h : UInt64} {heights : List UInt64} :
    h ∈ sortDedup heights ↔ h ∈ heights := by
  rw [sortDedup, mem_dropRepeats, List.mem_mergeSort]

theorem pairwise_sortDedup (heights : List UInt64) : (sortDedup heights).Pairwise (· < ·) := by
  refine pairwise_dropRepeats ?_
  have hsorted : (heights.mergeSort (· ≤ ·)).Pairwise fun a b => decide (a ≤ b) = true :=
    List.pairwise_mergeSort
      (fun a b c hab hbc => by
        rw [decide_eq_true_eq] at hab hbc ⊢
        exact UInt64.le_trans hab hbc)
      (fun a b => by
        rw [Bool.or_eq_true, decide_eq_true_eq, decide_eq_true_eq]
        exact UInt64.le_total a b) heights
  exact hsorted.imp of_decide_eq_true

/-! ## Candidates -/

/-- Enough candidates reach every height that lies a number of steps above the first one. -/
theorem mem_candidates {modulus last h height : UInt64} {steps rounds : Nat}
    (hrounds : steps < rounds) (hsteps : h.toNat = height.toNat + steps * modulus.toNat)
    (hlast : h ≤ last) : h ∈ candidates modulus last rounds height := by
  induction steps generalizing rounds height with
  | zero =>
    obtain ⟨rounds, rfl⟩ : ∃ n, rounds = n + 1 := ⟨rounds - 1, by omega⟩
    have hsame : h = height := UInt64.toNat_inj.mp (by omega)
    subst hsame
    rw [candidates, if_neg (UInt64.not_lt.mpr hlast)]
    exact List.mem_cons_self
  | succ steps ih =>
    obtain ⟨rounds, rfl⟩ : ∃ n, rounds = n + 1 := ⟨rounds - 1, by omega⟩
    have hbound := h.toNat_lt
    rw [Nat.succ_mul] at hsteps
    -- the next candidate is still at or below the height sought, so it does not overflow
    have hnext : (height + modulus).toNat = height.toNat + modulus.toNat := by
      rw [UInt64.toNat_add]
      omega
    have hbelow : height ≤ last := by
      rw [UInt64.le_iff_toNat_le] at hlast ⊢
      omega
    rw [candidates, if_neg (UInt64.not_lt.mpr hbelow), Word.add_eq_ok_iff.mpr hnext]
    exact List.mem_cons_of_mem _ (ih (by omega) (by omega))

/-- The first candidate is the first multiple of the modulus that is not below the start, or the largest word if
that multiple is out of range. -/
theorem exists_firstMultiple {modulus : UInt64} (hpos : 0 < modulus.toNat) (start : UInt64) :
    ∃ count, (firstCandidate modulus start).toNat = min (count * modulus.toNat) Word.max.toNat
      ∧ start.toNat ≤ count * modulus.toNat ∧ ∀ q, start.toNat ≤ q * modulus.toNat → count ≤ q := by
  have hdiv := Nat.div_add_mod' start.toNat modulus.toNat
  have hsmall := Nat.mod_lt start.toNat hpos
  have hbound := start.toNat_lt
  have hzero : start % modulus = 0 ↔ start.toNat % modulus.toNat = 0 := by
    rw [← UInt64.toNat_inj, UInt64.toNat_mod, UInt64.toNat_zero]
  refine ⟨(start / modulus + if start % modulus = 0 then 0 else 1).toNat, Word.toNat_satMul _ _, ?_⟩
  split
  · rename_i hmod
    rw [hzero] at hmod
    rw [UInt64.add_zero, UInt64.toNat_div]
    exact ⟨by omega, fun q hq => Nat.le_of_mul_le_mul_right (by omega) hpos⟩
  · rename_i hmod
    rw [hzero] at hmod
    have hquotient : start.toNat / modulus.toNat ≤ start.toNat / modulus.toNat * modulus.toNat :=
      Nat.le_mul_of_pos_right _ hpos
    have hcount : (start / modulus + 1).toNat = start.toNat / modulus.toNat + 1 := by
      rw [UInt64.toNat_add, UInt64.toNat_div, UInt64.toNat_one, Nat.mod_eq_of_lt (by omega)]
    rw [hcount, Nat.succ_mul]
    refine ⟨by omega, fun q hq => ?_⟩
    exact Nat.lt_of_mul_lt_mul_right (a := modulus.toNat) (by omega)

/-- The first candidate is at or below every multiple of the modulus from the start on, and a number
of steps away from it. -/
theorem toNat_firstCandidate {modulus start h : UInt64} (hpos : 0 < modulus.toNat)
    (hdvd : modulus.toNat ∣ h.toNat) (hstart : start ≤ h) :
    ∃ steps, h.toNat = (firstCandidate modulus start).toNat + steps * modulus.toNat := by
  obtain ⟨q, hq⟩ := hdvd
  rw [Nat.mul_comm] at hq
  rw [UInt64.le_iff_toNat_le] at hstart
  obtain ⟨count, hfirst, -, hleast⟩ := exists_firstMultiple hpos start
  have hcount := hleast q (by omega)
  have hle : count * modulus.toNat ≤ q * modulus.toNat := Nat.mul_le_mul_right _ hcount
  have hlargest := UInt64.le_iff_toNat_le.mp (Word.le_largest h)
  refine ⟨q - count, ?_⟩
  rw [hfirst, Nat.min_eq_left (by omega), hq, ← Nat.add_mul]
  congr 1
  omega

/-- The first candidate is a multiple of the modulus, or it is the largest height and there is no multiple from
the start on. -/
theorem dvd_firstCandidate_or {modulus : UInt64} (hpos : 0 < modulus.toNat) (start : UInt64) :
    start ≤ firstCandidate modulus start ∧
      (modulus.toNat ∣ (firstCandidate modulus start).toNat
        ∨ firstCandidate modulus start = Word.max ∧ ∀ k, start ≤ k → ¬modulus.toNat ∣ k.toNat) := by
  obtain ⟨count, hfirst, hstart, hleast⟩ := exists_firstMultiple hpos start
  have hlargest := UInt64.le_iff_toNat_le.mp (Word.le_largest start)
  refine ⟨by rw [UInt64.le_iff_toNat_le]; omega, ?_⟩
  by_cases hfits : count * modulus.toNat ≤ Word.max.toNat
  · exact .inl ⟨count, by rw [hfirst, Nat.min_eq_left hfits, Nat.mul_comm]⟩
  · refine .inr ⟨UInt64.toNat_inj.mp (by omega), ?_⟩
    rintro k hk ⟨q, hq⟩
    rw [Nat.mul_comm] at hq
    rw [UInt64.le_iff_toNat_le] at hk
    have hle : count * modulus.toNat ≤ q * modulus.toNat := Nat.mul_le_mul_right _ (hleast q (by omega))
    have hword := UInt64.le_iff_toNat_le.mp (Word.le_largest k)
    omega

/-- The candidates that are passed from a height on, one modulus after the other, until one is beyond the last
height or there is no word for the next one. -/
inductive Passes (modulus last : UInt64) : UInt64 → List UInt64 → Prop
  | beyond {height : UInt64} (hlast : last < height) : Passes modulus last height []
  | largest {height : UInt64} {e : Overflow} (hlast : height ≤ last)
      (hnext : Word.add height modulus = .error e) : Passes modulus last height [height]
  | step {height next : UInt64} {rest : List UInt64} (hlast : height ≤ last)
      (hnext : Word.add height modulus = .ok next) (hrest : Passes modulus last next rest) :
      Passes modulus last height (height :: rest)

/-- The bound on the number of candidates is never what ends them. -/
theorem passes_candidates {modulus last height : UInt64} {rounds : Nat} (hpos : 0 < modulus.toNat)
    (hrounds : (last.toNat - height.toNat) / modulus.toNat < rounds ∨ last < height) :
    Passes modulus last height (candidates modulus last rounds height) := by
  induction rounds generalizing height with
  | zero => exact .beyond (hrounds.resolve_left (Nat.not_lt_zero _))
  | succ rounds ih =>
    rw [candidates]
    split
    · rename_i hbeyond
      exact .beyond hbeyond
    · rename_i hlast
      have hrounds := hrounds.resolve_right hlast
      cases hnext : Word.add height modulus with
      | error e => exact .largest (UInt64.not_lt.mp hlast) hnext
      | ok next =>
        refine .step (UInt64.not_lt.mp hlast) hnext (ih ?_)
        rw [Word.add_eq_ok_iff] at hnext
        by_cases hbeyond : last < next
        · exact .inr hbeyond
        · -- there is a step from the height to the next one, so one round less is enough
          rw [UInt64.lt_iff_toNat_lt] at hbeyond
          have hsteps : last.toNat - height.toNat = last.toNat - next.toNat + modulus.toNat := by omega
          rw [hsteps, Nat.add_div_right _ hpos] at hrounds
          exact .inl (Nat.lt_of_succ_lt_succ hrounds)

/-- What is passed lies between the two heights, a number of steps away from the first one. -/
theorem Passes.exists_steps {modulus last height h : UInt64} {passed : List UInt64}
    (hpasses : Passes modulus last height passed) (hmem : h ∈ passed) :
    h ≤ last ∧ ∃ steps, h.toNat = height.toNat + steps * modulus.toNat := by
  induction hpasses with
  | beyond => exact nomatch hmem
  | largest hlast =>
    obtain rfl := List.mem_singleton.mp hmem
    exact ⟨hlast, 0, by omega⟩
  | step hlast hnext _ ih =>
    rcases List.mem_cons.mp hmem with rfl | hmem
    · exact ⟨hlast, 0, by omega⟩
    · obtain ⟨hbelow, steps, hsteps⟩ := ih hmem
      rw [Word.add_eq_ok_iff] at hnext
      refine ⟨hbelow, steps + 1, ?_⟩
      rw [Nat.succ_mul]
      omega

/-! ## Selected heights -/

theorem pos_of_modulus? {source : DataSource} {modulus : UInt64} (h : source.modulus? = some modulus) :
    0 < modulus.toNat := by
  have hpos := (Option.filter_eq_some_iff.mp h).2
  simpa [UInt64.lt_iff_toNat_lt] using hpos

/-- The candidates of a source are passed until their end, and those in its period are selected. -/
theorem exists_passes {source : DataSource} {modulus : UInt64} (hmodulus : source.modulus? = some modulus)
    (start last : UInt64) :
    ∃ passed, Passes modulus last (firstCandidate modulus start) passed
      ∧ selectedBy source start last = passed.filter source.isActiveAt := by
  rw [selectedBy, hmodulus]
  exact ⟨_, passes_candidates (pos_of_modulus? hmodulus) (.inl (Nat.lt_succ_self _)), rfl⟩

/-- A source selects every height of its period that its modulus divides. -/
theorem mem_selectedBy_of_dvd {source : DataSource} {modulus start last h : UInt64}
    (hmodulus : source.modulus? = some modulus) (hactive : source.isActiveAt h = true)
    (hdvd : modulus.toNat ∣ h.toNat) (hstart : start ≤ h) (hlast : h ≤ last) :
    h ∈ selectedBy source start last := by
  have hpos := pos_of_modulus? hmodulus
  obtain ⟨steps, hsteps⟩ := toNat_firstCandidate hpos hdvd hstart
  have hrounds : steps < (last.toNat - (firstCandidate modulus start).toNat) / modulus.toNat + 1 := by
    rw [Nat.lt_succ_iff, Nat.le_div_iff_mul_le hpos]
    rw [UInt64.le_iff_toNat_le] at hlast
    omega
  rw [selectedBy, hmodulus]
  exact List.mem_filter.mpr ⟨mem_candidates hrounds hsteps hlast, hactive⟩

/-- The heights that a source selects are those of its period that its modulus divides, and the largest height
if the modulus divides none from the start on. -/
theorem mem_selectedBy_iff {source : DataSource} {modulus start last h : UInt64}
    (hmodulus : source.modulus? = some modulus) :
    h ∈ selectedBy source start last ↔ start ≤ h ∧ h ≤ last ∧ source.isActiveAt h = true ∧
      (modulus.toNat ∣ h.toNat ∨ h = Word.max ∧ ∀ k, start ≤ k → ¬modulus.toNat ∣ k.toNat) := by
  have hpos := pos_of_modulus? hmodulus
  obtain ⟨hstart, hfirst⟩ := dvd_firstCandidate_or hpos start
  constructor
  · intro hmem
    obtain ⟨passed, hpasses, hselected⟩ := exists_passes hmodulus start last
    rw [hselected, List.mem_filter] at hmem
    obtain ⟨hlast, steps, hsteps⟩ := hpasses.exists_steps hmem.1
    have hbeyond : firstCandidate modulus start ≤ h := by
      rw [UInt64.le_iff_toNat_le]
      omega
    refine ⟨UInt64.le_trans hstart hbeyond, hlast, hmem.2, ?_⟩
    rcases hfirst with hdvd | ⟨hlargest, hnone⟩
    · rw [hsteps]
      exact .inl (Nat.dvd_add hdvd (Nat.dvd_mul_left _ _))
    · rw [hlargest] at hbeyond
      exact .inr ⟨UInt64.le_antisymm (Word.le_largest h) hbeyond, hnone⟩
  · rintro ⟨hstart, hlast, hactive, hdvd | ⟨rfl, hnone⟩⟩
    · exact mem_selectedBy_of_dvd hmodulus hactive hdvd hstart hlast
    · -- the first candidate cannot be a multiple then, so it is the largest height itself
      have hlargest : firstCandidate modulus start = Word.max := by
        rcases hfirst with hdvd | hlargest
        · exact absurd hdvd (hnone _ ‹_›)
        · exact hlargest.1
      have hsteps : Word.max.toNat = (firstCandidate modulus start).toNat + 0 * modulus.toNat := by
        rw [hlargest]
        omega
      rw [selectedBy, hmodulus]
      exact List.mem_filter.mpr ⟨mem_candidates (Nat.succ_pos _) hsteps hlast, hactive⟩

/-- Every height that the modulus of an active source divides is selected. -/
theorem mem_heights_of_dvd {s : ModuloSelection} {source : DataSource} {modulus start last h : UInt64}
    (hsource : source ∈ s.sources) (hmodulus : source.modulus? = some modulus)
    (hactive : source.isActiveAt h = true) (hdvd : modulus.toNat ∣ h.toNat) (hstart : start ≤ h)
    (hlast : h ≤ last) : h ∈ s.heights start last := by
  rw [heights, mem_sortDedup, List.mem_flatMap]
  exact ⟨source, hsource, mem_selectedBy_of_dvd hmodulus hactive hdvd hstart hlast⟩

end ModuloSelection

/-- A data source selects a height: it is active there, and its modulus divides the height. -/
def DataSource.Selects (source : DataSource) (h : UInt64) : Prop :=
  source.isActiveAt h = true ∧ ∃ modulus, source.blockModulo = some modulus ∧ 0 < modulus
    ∧ modulus.toNat ∣ h.toNat

/-- A data source has a modulus of which no height from one on is a multiple. -/
def DataSource.RunsOut (source : DataSource) (start : UInt64) : Prop :=
  ∃ modulus, source.blockModulo = some modulus ∧ 0 < modulus ∧ ∀ k, start ≤ k → ¬modulus.toNat ∣ k.toNat

theorem DataSource.modulus?_eq_some_iff {source : DataSource} {modulus : UInt64} :
    source.modulus? = some modulus ↔ source.blockModulo = some modulus ∧ 0 < modulus := by
  rw [modulus?, Option.filter_eq_some_iff, decide_eq_true_eq]

namespace ModuloSelection

/-- What data sources select between two heights is selected by one of them. -/
theorem mem_heights_iff {sources : List DataSource} {start last h : UInt64} :
    h ∈ (ofSources sources).heights start last ↔ ∃ source ∈ sources, ∃ modulus,
      source.modulus? = some modulus ∧ h ∈ selectedBy source start last := by
  rw [heights, mem_sortDedup, List.mem_flatMap]
  constructor
  · rintro ⟨source, hsource, hmem⟩
    obtain ⟨hsource, hsome⟩ := List.mem_filter.mp hsource
    obtain ⟨modulus, hmodulus⟩ := Option.isSome_iff_exists.mp hsome
    exact ⟨source, hsource, modulus, hmodulus, hmem⟩
  · rintro ⟨source, hsource, modulus, hmodulus, hmem⟩
    exact ⟨source, List.mem_filter.mpr ⟨hsource, Option.isSome_iff_exists.mpr ⟨modulus, hmodulus⟩⟩, hmem⟩

/-- Between two heights, data sources select in strictly ascending order the heights that one of them selects,
and besides these only the largest height of all: if a source is active there whose modulus divides no height
from the start on. The candidates of every source that has a modulus come to an end. -/
theorem heights_selected (sources : List DataSource) (start last : UInt64) :
    (∀ source ∈ sources, ∀ modulus, source.modulus? = some modulus →
      ∃ passed, Passes modulus last (firstCandidate modulus start) passed
        ∧ selectedBy source start last = passed.filter source.isActiveAt)
    ∧ ((ofSources sources).heights start last).Pairwise (· < ·)
    ∧ ∀ h, h ∈ (ofSources sources).heights start last ↔ start ≤ h ∧ h ≤ last ∧ ∃ source ∈ sources,
      source.Selects h ∨ h = Word.max ∧ source.isActiveAt h = true ∧ source.RunsOut start := by
  refine ⟨fun _ _ _ hmodulus => exists_passes hmodulus start last, pairwise_sortDedup _, fun h => ?_⟩
  rw [mem_heights_iff]
  constructor
  · rintro ⟨source, hsource, modulus, hmodulus, hmem⟩
    obtain ⟨hstart, hlast, hactive, hreason⟩ := (mem_selectedBy_iff hmodulus).mp hmem
    obtain ⟨hmodulo, hpos⟩ := DataSource.modulus?_eq_some_iff.mp hmodulus
    refine ⟨hstart, hlast, source, hsource, ?_⟩
    rcases hreason with hdvd | ⟨hlargest, hnone⟩
    · exact .inl ⟨hactive, modulus, hmodulo, hpos, hdvd⟩
    · exact .inr ⟨hlargest, hactive, modulus, hmodulo, hpos, hnone⟩
  · rintro ⟨hstart, hlast, source, hsource, hreason⟩
    rcases hreason with ⟨hactive, modulus, hmodulo, hpos, hdvd⟩
      | ⟨hlargest, hactive, modulus, hmodulo, hpos, hnone⟩
    all_goals
      have hmodulus := DataSource.modulus?_eq_some_iff.mpr ⟨hmodulo, hpos⟩
      refine ⟨source, hsource, modulus, hmodulus, (mem_selectedBy_iff hmodulus).mpr ⟨hstart, hlast, hactive, ?_⟩⟩
    · exact .inl hdvd
    · exact .inr ⟨hlargest, hnone⟩

/-- The largest height may be selected although no modulus divides it: there is no multiple of two from there on,
and the first candidate stays where words end. -/
theorem selects_largest_undivided :
    ¬∀ (sources : List DataSource) (start last : UInt64),
      ((ofSources sources).heights start last).Pairwise (· < ·)
        ∧ ∀ h, h ∈ (ofSources sources).heights start last ↔
          start ≤ h ∧ h ≤ last ∧ ∃ source ∈ sources, source.Selects h := by
  intro hclaim
  have hselected : (ofSources [⟨0, none, some 2⟩]).heights Word.max Word.max = [Word.max] := by cbv
  obtain ⟨-, hheights⟩ := hclaim [⟨0, none, some 2⟩] Word.max Word.max
  obtain ⟨-, -, source, hsource, -, modulus, hmodulo, -, hdvd⟩ :=
    (hheights Word.max).mp (by rw [hselected]; exact List.mem_cons_self)
  obtain rfl := List.mem_singleton.mp hsource
  cases hmodulo
  exact absurd hdvd (by decide)

end ModuloSelection

end BlockFeed
