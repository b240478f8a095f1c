import BlockFeed.PointCache

/-!
# Entries of the point cache

Reading never adds an entry to the cache, and writing adds the one that is written; sweeps and expiry
only take entries away. So whatever holds of every text that is written holds of every text that is
read (`exists_mem_of_get`, `mem_insert`).

What there is to know of a write: it keeps its text until the end of the lifetime if the clock can tell that
time, and otherwise there is no write at all (`set_some`). The laws below are those of `insert`.

As long as nothing expires, the cache is told by the list of all that has been written: a key reads as the
text that has been written under it last (`Shows.get`, `Shows.insert`).

What reading and sweeping drop has expired, and is not missed later. Caches in which every key reads the
same from a time on (`Alike`), under clocks that tell the same times, remain so when one of them is read
(`Alike.get_left`) or the same is written to both (`Alike.insert`).
-/

namespace BlockFeed.PointCache

variable {V : Type}

theorem entries_remove_subset (key : String) (c : PointCache V) :
    (c.remove key).entries ⊆ c.entries :=
  List.filter_sublist.subset

theorem entries_sweepIfDue_subset (now : Nat) (c : PointCache V) :
    (c.sweepIfDue now).entries ⊆ c.entries := by
  unfold sweepIfDue
  split
  · exact List.filter_sublist.subset
  · exact List.Subset.refl _

theorem entries_get_subset (now : Nat) (key : String) (c : PointCache V) :
    (c.get now key).2.entries ⊆ c.entries := by
  unfold get
  split
  · exact List.Subset.refl _
  · split
    · exact List.Subset.refl _
    · exact entries_remove_subset key c

/-- What is found under a key is there. -/
theorem mem_of_lookup {key : String} {entry : CacheEntry V} {entries : List (String × CacheEntry V)}
    (h : entries.lookup key = some entry) : (key, entry) ∈ entries := by
  obtain ⟨before, after, rfl, -⟩ := List.lookup_eq_some_iff.mp h
  exact List.mem_append_right before List.mem_cons_self

/-- A text that is read is that of an entry. -/
theorem exists_mem_of_get {now : Nat} {key : String} {text : V} {c : PointCache V}
    (h : (c.get now key).1 = some text) : ∃ entry, (key, entry) ∈ c.entries ∧ entry.text = text := by
  unfold get at h
  split at h
  · cases h
  · rename_i entry hlookup
    split at h
    · cases h
      exact ⟨entry, mem_of_lookup hlookup, rfl⟩
    · cases h

/-- The entries after writing are the one that is written and earlier ones. -/
theorem mem_insert {now : Nat} {key : String} {text : V} {expiresAt : Option Nat} {c : PointCache V}
    {entry : String × CacheEntry V} (h : entry ∈ (c.insert now key text expiresAt).entries) :
    (entry.1 = key ∧ entry.2.text = text) ∨ entry ∈ c.entries := by
  rcases List.mem_cons.mp h with rfl | h
  · exact .inl ⟨rfl, rfl⟩
  · exact .inr (entries_sweepIfDue_subset now c (entries_remove_subset key _ h))

/-! ## What can be written -/

/-- A text is kept until the end of its lifetime, if that can be told. -/
theorem set_some (now : Nat) (key : String) (text : V) (lifetime : Duration) (c : PointCache V) :
    c.set now key text (some lifetime)
      = if now + lifetime.millis ≤ c.horizon then
          .ok (c.insert now key text (some (now + lifetime.millis)))
        else .error .overflow := by
  rw [set, expiry]
  split <;> rfl

theorem horizon_sweepIfDue (now : Nat) (c : PointCache V) : (c.sweepIfDue now).horizon = c.horizon := by
  unfold sweepIfDue
  split <;> rfl

theorem horizon_get (now : Nat) (key : String) (c : PointCache V) :
    (c.get now key).2.horizon = c.horizon := by
  unfold get
  split
  · rfl
  · split <;> rfl

theorem horizon_insert (now : Nat) (key : String) (text : V) (expiresAt : Option Nat) (c : PointCache V) :
    (c.insert now key text expiresAt).horizon = c.horizon :=
  horizon_sweepIfDue now c

/-- Keeps the tip of a block until a time. -/
def insertTip (now : Nat) (tip : Tip) (expiresAt : Nat) (c : PointCache) : PointCache :=
  c.insert now (heightKey tip.number) tip.toCacheText (some expiresAt)

/-! ## While nothing expires -/

/-- No entry has expired at a time. -/
def Lasts (c : PointCache V) (now : Nat) : Prop := ∀ entry ∈ c.entries, entry.2.isLive now = true

/-- Under every key there is the text that has been written last; writes are listed latest first. -/
def Shows (c : PointCache V) (written : List (String × V)) : Prop :=
  ∀ key, (c.entries.lookup key).map CacheEntry.text = written.lookup key

theorem lookup_remove (key other : String) (c : PointCache V) :
    (c.remove key).entries.lookup other = if other = key then none else c.entries.lookup other := by
  unfold remove
  induction c.entries with
  | nil => simp
  | cons entry rest ih =>
    obtain ⟨name, entry⟩ := entry
    by_cases hkey : name = key
    · subst hkey
      rw [List.filter_cons_of_neg (by simp), ih, List.lookup_cons]
      by_cases hother : other = name
      · simp [hother]
      · simp [hother, beq_false_of_ne hother]
    · rw [List.filter_cons_of_pos (by simpa using hkey), List.lookup_cons, List.lookup_cons]
      by_cases hother : other = name
      · simp [hother, hkey]
      · rw [beq_false_of_ne hother]
        exact ih

theorem Lasts.sweepIfDue {c : PointCache V} {now : Nat} (h : c.Lasts now) :
    (c.sweepIfDue now).entries = c.entries := by
  unfold PointCache.sweepIfDue
  split
  · exact List.filter_eq_self.mpr h
  · rfl

/-- While nothing expires, reading finds what has been written last. -/
theorem Shows.get {c : PointCache V} {now : Nat} {written : List (String × V)}
    (h : c.Shows written) (hlasts : c.Lasts now) (key : String) :
    c.get now key = (written.lookup key, c) := by
  rw [← h key]
  unfold PointCache.get
  cases hlookup : c.entries.lookup key with
  | none => rfl
  | some entry =>
    have hlive : entry.isLive now = true := hlasts _ (mem_of_lookup hlookup)
    simp [hlive]

/-- While nothing expires, writing replaces what is under a key and nothing else. -/
theorem Shows.insert {c : PointCache V} {now : Nat} {written : List (String × V)}
    (h : c.Shows written) (hlasts : c.Lasts now) (key : String) (text : V) (expiresAt : Option Nat) :
    (c.insert now key text expiresAt).Shows ((key, text) :: written) := by
  intro other
  have hentries : (c.insert now key text expiresAt).entries
      = (key, ⟨text, expiresAt⟩) :: (c.remove key).entries := by
    show (_, _) :: ((c.sweepIfDue now).remove key).entries = _
    rw [remove, hlasts.sweepIfDue]
    rfl
  rw [hentries, List.lookup_cons, List.lookup_cons, lookup_remove, ← h other]
  by_cases hother : other = key
  · simp [hother]
  · simp [hother, beq_false_of_ne hother]

/-! ## Caches that read the same -/

/-- No key is listed twice. -/
def Distinct (c : PointCache V) : Prop := (c.entries.map Prod.fst).Nodup

instance (c : PointCache V) : Decidable c.Distinct :=
  inferInstanceAs (Decidable (c.entries.map Prod.fst).Nodup)

/-- Every key reads the same in two caches from a time on, and the same can be written to them. -/
structure Alike (now : Nat) (c d : PointCache V) : Prop where
  left : c.Distinct
  right : d.Distinct
  horizon : c.horizon = d.horizon
  reads : ∀ later, now ≤ later → ∀ key, (c.get later key).1 = (d.get later key).1

/-- What is expired remains so. -/
theorem isLive_eq_false_of_le {now later : Nat} (h : now ≤ later) {entry : CacheEntry V}
    (hdead : entry.isLive now = false) : entry.isLive later = false := by
  unfold CacheEntry.isLive at hdead ⊢
  split at hdead
  · cases hdead
  · simp only [decide_eq_false_iff_not] at hdead ⊢
    omega

/-- A key reads as the text of its entry, as long as that is valid. -/
theorem get_fst (now : Nat) (key : String) (c : PointCache V) :
    (c.get now key).1
      = ((c.entries.lookup key).filter (CacheEntry.isLive now)).map CacheEntry.text := by
  unfold get
  cases c.entries.lookup key with
  | none => rfl
  | some entry =>
    rw [Option.filter_some]
    cases hlive : entry.isLive now <;> simp [hlive]

theorem lookup_eq_none_of_not_mem {key : String} {entries : List (String × CacheEntry V)}
    (h : key ∉ entries.map Prod.fst) : entries.lookup key = none :=
  List.lookup_eq_none_iff.mpr fun entry hentry => by
    rw [bne_iff_ne]
    rintro rfl
    exact h (List.mem_map_of_mem hentry)

/-- Of a key that is listed once, a filter keeps the entry or not. -/
theorem lookup_filter {p : CacheEntry V → Bool} {entries : List (String × CacheEntry V)}
    (h : (entries.map Prod.fst).Nodup) (key : String) :
    (entries.filter fun entry => p entry.2).lookup key = (entries.lookup key).filter p := by
  induction entries with
  | nil => rfl
  | cons entry rest ih =>
    obtain ⟨name, entry⟩ := entry
    rw [List.map_cons, List.nodup_cons] at h
    rw [List.filter_cons]
    by_cases hname : key = name
    · subst hname
      have habsent : (rest.filter fun entry => p entry.2).lookup key = none :=
        lookup_eq_none_of_not_mem fun hmem => h.1 ((List.filter_sublist.map _).subset hmem)
      rw [List.lookup_cons_self, Option.filter_some]
      split
      · exact List.lookup_cons_self
      · exact habsent
    · rw [List.lookup_cons, beq_false_of_ne hname, ← ih h.2]
      split
      · rw [List.lookup_cons, beq_false_of_ne hname]
      · rfl

theorem Distinct.of_filter {p : String × CacheEntry V → Bool} {c : PointCache V} (h : c.Distinct)
    (lastSweep horizon : Nat) : Distinct ⟨c.entries.filter p, lastSweep, horizon⟩ :=
  List.Nodup.sublist (List.filter_sublist.map _) h

theorem Distinct.get {c : PointCache V} (h : c.Distinct) (now : Nat) (key : String) :
    (c.get now key).2.Distinct := by
  unfold PointCache.get
  split
  · exact h
  · split
    · exact h
    · exact h.of_filter _ _

theorem Distinct.sweep {c : PointCache V} (h : c.Distinct) (now : Nat) : (c.sweep now).Distinct :=
  h.of_filter now _

theorem Distinct.sweepIfDue {c : PointCache V} (h : c.Distinct) (now : Nat) :
    (c.sweepIfDue now).Distinct := by
  unfold PointCache.sweepIfDue
  split
  · exact h.sweep now
  · exact h

theorem Distinct.insert {c : PointCache V} (h : c.Distinct) (now : Nat) (key : String) (text : V)
    (expiresAt : Option Nat) : (c.insert now key text expiresAt).Distinct := by
  refine List.nodup_cons.mpr ⟨fun hmem => ?_, (h.sweepIfDue now).of_filter _ _⟩
  obtain ⟨entry, hentry, hkey⟩ := List.mem_map.mp hmem
  have hother := (List.mem_filter.mp hentry).2
  simp [hkey] at hother

/-- What is dropped when a key is read is not missed later. -/
theorem get_get_fst {now later : Nat} (h : now ≤ later) (c : PointCache V) (key other : String) :
    ((c.get now key).2.get later other).1 = (c.get later other).1 := by
  cases hlookup : c.entries.lookup key with
  | none =>
    have hread : (c.get now key).2 = c := by rw [get, hlookup]
    rw [hread]
  | some entry =>
    cases hlive : entry.isLive now with
    | true =>
      have hread : (c.get now key).2 = c := by rw [get, hlookup]; simp [hlive]
      rw [hread]
    | false =>
      have hread : (c.get now key).2 = c.remove key := by rw [get, hlookup]; simp [hlive]
      rw [hread, get_fst, get_fst, lookup_remove]
      split
      · rename_i hother
        rw [hother, hlookup, Option.filter_some, isLive_eq_false_of_le h hlive]
        rfl
      · rfl

/-- What is dropped by a sweep is not missed later. -/
theorem get_sweep_fst {now later : Nat} (h : now ≤ later) {c : PointCache V} (hc : c.Distinct)
    (key : String) : ((c.sweep now).get later key).1 = (c.get later key).1 := by
  rw [get_fst, get_fst, sweep, lookup_filter hc]
  cases c.entries.lookup key with
  | none => rfl
  | some entry =>
    rw [Option.filter_some]
    cases hlive : entry.isLive now with
    | true => rfl
    | false =>
      rw [if_neg Bool.false_ne_true, Option.filter_some, isLive_eq_false_of_le h hlive]
      rfl

theorem get_sweepIfDue_fst {now later : Nat} (h : now ≤ later) {c : PointCache V} (hc : c.Distinct)
    (key : String) : ((c.sweepIfDue now).get later key).1 = (c.get later key).1 := by
  unfold sweepIfDue
  split
  · exact get_sweep_fst h hc key
  · rfl

/-- A sweep leaves the keys that can be read. -/
theorem mem_keys_sweep {now : Nat} {key : String} {c : PointCache V} (hc : c.Distinct) :
    key ∈ (c.sweep now).entries.map Prod.fst ↔ (c.get now key).1.isSome := by
  rw [get_fst, Option.isSome_map, ← lookup_filter hc, List.lookup_isSome_iff, List.mem_map]
  exact exists_congr fun entry => and_congr_right fun _ => eq_comm.trans beq_iff_eq.symm

/-- What is read after something has been written. -/
theorem get_insert_fst {now later : Nat} (h : now ≤ later) {c : PointCache V} (hc : c.Distinct)
    (key : String) (text : V) (expiresAt : Option Nat) (other : String) :
    ((c.insert now key text expiresAt).get later other).1
      = if other = key then
          ((some (CacheEntry.mk text expiresAt)).filter (CacheEntry.isLive later)).map CacheEntry.text
        else (c.get later other).1 := by
  rw [get_fst, insert, List.lookup_cons]
  split
  · rename_i hother
    rw [if_pos (beq_iff_eq.mp hother)]
  · rename_i hother
    have hne : other ≠ key := fun heq => by simp [heq] at hother
    rw [if_neg hne, lookup_remove, if_neg hne, ← get_fst, get_sweepIfDue_fst h hc]

namespace Alike

variable {now : Nat} {c d : PointCache V}

theorem refl (h : c.Distinct) : Alike now c c := ⟨h, h, rfl, fun _ _ _ => rfl⟩

theorem symm (h : Alike now c d) : Alike now d c :=
  ⟨h.right, h.left, h.horizon.symm, fun later hlater key => (h.reads later hlater key).symm⟩

theorem later (h : Alike now c d) {time : Nat} (hle : now ≤ time) : Alike time c d :=
  ⟨h.left, h.right, h.horizon, fun later hlater => h.reads later (Nat.le_trans hle hlater)⟩

/-- One of two caches may be read. -/
theorem get_left (h : Alike now c d) (key : String) : Alike now (c.get now key).2 d where
  left := h.left.get now key
  right := h.right
  horizon := (horizon_get now key c).trans h.horizon
  reads later hlater other := by rw [get_get_fst hlater, h.reads later hlater]

/-- The same may be written to both. -/
theorem insert (h : Alike now c d) (key : String) (text : V) (expiresAt : Option Nat) :
    Alike now (c.insert now key text expiresAt) (d.insert now key text expiresAt) where
  left := h.left.insert now key text expiresAt
  right := h.right.insert now key text expiresAt
  horizon := by rw [horizon_insert, horizon_insert, h.horizon]
  reads later hlater other := by
    rw [get_insert_fst hlater h.left, get_insert_fst hlater h.right, h.reads later hlater]

end Alike

end BlockFeed.PointCache
