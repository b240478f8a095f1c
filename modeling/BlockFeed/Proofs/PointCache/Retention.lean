import BlockFeed.Proofs.PointCache.Journal

/-!
# How long expired entries are held

An entry that has expired is no longer read, but it takes up memory until it is dropped. Sweeps see to that:
one is made before a write as soon as the last one lies `sweepInterval` back. So right after a write nothing is
held that expired `sweepInterval` ago or earlier, and nothing is missing that can be read
(`retained_of_writes`).

What carries this over any requests is that whatever is held expires no earlier than the last sweep (`Kept`):
a sweep leaves nothing else, and what is written later expires later still.
-/

namespace BlockFeed

/-- The entry is for good, or it expires at a time or later. -/
def CacheEntry.Outlasts {V : Type} (time : Nat) (e : CacheEntry V) : Prop :=
  ∀ expiry, e.expiresAt = some expiry → time ≤ expiry

/-- What is valid at a time expires later. -/
theorem CacheEntry.outlasts_of_isLive {V : Type} {now : Nat} {e : CacheEntry V} (h : e.isLive now = true) :
    e.Outlasts now := by
  intro expiry hexpiry
  rw [isLive, hexpiry] at h
  exact Nat.le_of_lt (of_decide_eq_true h)

namespace PointCache

variable {V : Type} {now : Nat} {c : PointCache V}

/-- The last sweep has been made, and what is held expires no earlier. -/
structure Kept (now : Nat) (c : PointCache V) : Prop where
  swept : c.lastSweep ≤ now
  outlasts : ∀ entry ∈ c.entries, entry.2.Outlasts c.lastSweep

namespace Kept

theorem empty (horizon now : Nat) : Kept now ({ horizon } : PointCache V) where
  swept := Nat.zero_le now
  outlasts := List.forall_mem_nil _

theorem later (h : Kept now c) {time : Nat} (hle : now ≤ time) : Kept time c :=
  ⟨Nat.le_trans h.swept hle, h.outlasts⟩

/-- A sweep leaves what is valid. -/
theorem sweep (now : Nat) (c : PointCache V) : Kept now (c.sweep now) where
  swept := Nat.le_refl now
  outlasts _ hentry := CacheEntry.outlasts_of_isLive (List.mem_filter.mp hentry).2

theorem sweepIfDue (h : Kept now c) : Kept now (c.sweepIfDue now) := by
  unfold PointCache.sweepIfDue
  split
  · exact .sweep now c
  · exact h

theorem remove (h : Kept now c) (key : String) : Kept now (c.remove key) where
  swept := h.swept
  outlasts entry hentry := h.outlasts entry (entries_remove_subset key c hentry)

theorem get (h : Kept now c) (key : String) : Kept now (c.get now key).2 := by
  unfold PointCache.get
  split
  · exact h
  · split
    · exact h
    · exact h.remove key

theorem insert (h : Kept now c) (key : String) (value : V) (lifetime : Option Duration) :
    Kept now (c.insert now key value (endOf now lifetime)) := by
  have hkept := h.sweepIfDue.remove key
  refine ⟨hkept.swept, List.forall_mem_cons.mpr ⟨fun expiry hexpiry => ?_, hkept.outlasts⟩⟩
  -- the lifetime of the new entry begins now, after the last sweep
  obtain ⟨length, -, rfl⟩ := Option.map_eq_some_iff.mp hexpiry
  exact Nat.le_trans hkept.swept (Nat.le_add_right now length.millis)

theorem serve (h : Kept now c) (request : Request V) : Kept now (c.serve now request).2 := by
  cases request with
  | read key => exact h.get key
  | write key value lifetime =>
    rw [serve_write]
    split
    · exact h.insert key value lifetime
    · exact h
  | count => exact .sweep now c

/-- Any number of requests at times that do not go back keep it so. -/
theorem replies (h : Kept now c) {requests : List (Nat × Request V)} {last : Nat}
    (htimes : (now :: requests.map Prod.fst ++ [last]).Pairwise (· ≤ ·)) :
    Kept last (PointCache.replies PointCache.serve requests c).2 := by
  induction requests generalizing now c with
  | nil =>
    have hle : now ≤ last := List.rel_of_pairwise_cons htimes (List.mem_singleton.mpr rfl)
    exact h.later hle
  | cons first rest ih =>
    obtain ⟨time, request⟩ := first
    have hle : now ≤ time := List.rel_of_pairwise_cons htimes List.mem_cons_self
    exact ih ((h.later hle).serve request) htimes.of_cons

end Kept

/-- A sweep that is due has been made by the time something is written. -/
theorem lt_lastSweep_insert (now : Nat) (key : String) (value : V) (expiresAt : Option Nat)
    (c : PointCache V) : now < (c.insert now key value expiresAt).lastSweep + sweepInterval := by
  show now < (c.sweepIfDue now).lastSweep + sweepInterval
  have hpos : 0 < sweepInterval := by decide
  unfold sweepIfDue
  split
  · exact Nat.lt_add_of_pos_right hpos
  · omega

/-- The cache after requests is that after the last of them, which finds what those before have left. -/
theorem replies_concat_snd (requests : List (Nat × Request V)) (now : Nat) (request : Request V)
    (c : PointCache V) :
    (replies serve (requests ++ [(now, request)]) c).2 = ((replies serve requests c).2.serve now request).2 := by
  induction requests generalizing c with
  | nil => rfl
  | cons first rest ih => exact ih _

/-- What a write leaves that has gone through. -/
theorem serve_write_snd {key : String} {value : V} {lifetime : Option Duration}
    (h : (c.serve now (.write key value lifetime)).1 = .written) :
    (c.serve now (.write key value lifetime)).2 = c.insert now key value (endOf now lifetime) := by
  rw [serve_write] at h ⊢
  split at h
  · rw [if_pos ‹_›]
  · cases h

/-- Whatever is asked of a new cache at times that do not go back: right after each write that goes through, all
that is held, be it expired or not, is for good or expires later than the time of the write less `sweepInterval`,
and the last sweep lies less than `sweepInterval` back. Nothing is missing that can be read. -/
theorem retained_of_writes (horizon : Nat) (requests : List (Nat × Request V))
    (htimes : (requests.map Prod.fst).Pairwise (· ≤ ·)) (before : List (Nat × Request V)) (now : Nat)
    (key : String) (value : V) (lifetime : Option Duration)
    (hwrite : before ++ [(now, .write key value lifetime)] <+: requests)
    (hwritten : ((replies serve before ({ horizon } : PointCache V)).2.serve now
      (.write key value lifetime)).1 = .written) :
    let asked := before ++ [(now, .write key value lifetime)]
    let c := (replies serve asked ({ horizon } : PointCache V)).2
    (∀ entry ∈ c.entries, entry.2.expiresAt = none ∨
        ∃ expiry, entry.2.expiresAt = some expiry ∧ now < expiry + sweepInterval) ∧
      c.lastSweep ≤ now ∧ now < c.lastSweep + sweepInterval ∧
      ∀ later, now ≤ later → ∀ other,
        (c.get later other).1 = (replies (Journal.serveUntil horizon) asked []).2.read later other := by
  intro asked c
  have hasked : (asked.map Prod.fst).Pairwise (· ≤ ·) := htimes.sublist (hwrite.map Prod.fst).sublist
  have hpast : (before.map Prod.fst ++ [now]).Pairwise (· ≤ ·) := by
    rwa [List.map_append] at hasked
  have hlast : ∀ time ∈ asked.map Prod.fst, time ≤ now := by
    rw [List.map_append, List.forall_mem_append]
    exact ⟨fun time htime => (List.pairwise_append.mp hpast).2.2 time htime now List.mem_cons_self,
      List.forall_mem_singleton.mpr (Nat.le_refl now)⟩
  have hafter : c = (replies serve before ({ horizon } : PointCache V)).2.insert now key value
      (endOf now lifetime) := (replies_concat_snd before now _ _).trans (serve_write_snd hwritten)
  have hbefore : Kept now (replies serve before ({ horizon } : PointCache V)).2 :=
    (Kept.empty horizon 0).replies (List.pairwise_cons.mpr ⟨fun time _ => Nat.zero_le time, hpast⟩)
  have hkept : Kept now c := hafter ▸ hbefore.insert key value lifetime
  have hswept : now < c.lastSweep + sweepInterval := hafter ▸ lt_lastSweep_insert now key value _ _
  have hfollows : Follows now c (replies (Journal.serveUntil horizon) asked []).2 :=
    ((Follows.empty horizon 0).replies (fun time _ => Nat.zero_le time) hasked).2 now (Nat.zero_le now) hlast
  refine ⟨fun entry hentry => ?_, hkept.swept, hswept, hfollows.reads⟩
  cases hexpiry : entry.2.expiresAt with
  | none => exact .inl rfl
  | some expiry =>
    have hle := hkept.outlasts entry hentry expiry hexpiry
    exact .inr ⟨expiry, rfl, Nat.lt_of_lt_of_le hswept (Nat.add_le_add_right hle _)⟩

/-- Two entries expire unread. A write that comes just before the sweep is due leaves the first one, and the
next write sweeps both of them away. -/
def Request.expiring : List (Nat × Request String) := [
  (0, .write "a" "first" (some ⟨10⟩)), (59999, .write "b" "second" (some ⟨1⟩)),
  (60003, .write "c" "third" (some ⟨0⟩)), (60003, .count)]

theorem retained_of_writes_sample :
    let before : List (Nat × Request String) := [(0, .write "a" "first" (some ⟨10⟩))]
    let asked := before ++ [(59999, .write "b" "second" (some ⟨1⟩))]
    let c := (replies serve asked ({} : PointCache String)).2
    (Request.expiring.map Prod.fst).Pairwise (· ≤ ·) ∧ asked <+: Request.expiring
      ∧ ((replies serve before ({} : PointCache String)).2.serve 59999
          (.write "b" "second" (some ⟨1⟩))).1 = .written
      ∧ c.entries = [("b", ⟨"second", some 60000⟩), ("a", ⟨"first", some 10⟩)]
      ∧ (replies serve (Request.expiring.take 3) ({} : PointCache String)).2.entries.map Prod.fst = ["c"]
      ∧ (∀ entry ∈ c.entries, entry.2.expiresAt = none ∨
          ∃ expiry, entry.2.expiresAt = some expiry ∧ 59999 < expiry + sweepInterval)
      ∧ c.lastSweep ≤ 59999 ∧ 59999 < c.lastSweep + sweepInterval
      ∧ ∀ later, 59999 ≤ later → ∀ other, (c.get later other).1
          = (replies (Journal.serveUntil (0x8000000000000000 * 1000 - 1)) asked []).2.read later other := by
  intro before asked c
  have htimes : (Request.expiring.map Prod.fst).Pairwise (· ≤ ·) := by decide
  have hwrite : asked <+: Request.expiring := ⟨_, rfl⟩
  have hwritten : ((replies serve before ({} : PointCache String)).2.serve 59999
      (.write "b" "second" (some ⟨1⟩))).1 = .written := by decide
  exact ⟨htimes, hwrite, hwritten, by decide, by decide,
    retained_of_writes _ Request.expiring htimes before 59999 "b" "second" (some ⟨1⟩) hwrite hwritten⟩

end PointCache

end BlockFeed
