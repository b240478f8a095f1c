import BlockFeed.Proofs.PointCache
import Mathlib.Data.Finset.Dedup

/-!
# The cache as a journal of what has been written

The cache takes entries away when they are read, when they are counted, and in sweeps. None of this can be
seen from outside. Its replies are those of a journal of all that has been written, from which nothing is
ever taken away: a key reads as the value written last under it, as long as that is valid, and the count is
that of the keys which can be read (`replies_eq_journal`).

There is one exception. A value whose lifetime is over only after the last time that can be told is not kept
at all, and the write breaks off (`unkept_beyond_horizon`). So the journal for the cache takes no such writes
(`Journal.serveUntil`); where all lifetimes end in time, it is the plain one (`Journal.serve`).

A cache follows a journal (`Follows`) if every key reads the same in both from a time on. Each request keeps
this (`Follows.serve`), and so do any number of them at times that do not go back (`Follows.replies`).
-/

namespace BlockFeed.PointCache

variable {V : Type}

/-! ## Requests -/

/-- What can be asked of a cache. -/
inductive Request (V : Type) where
  /-- The value under a key. -/
  | read (key : String)
  /-- To keep a value under a key, for a lifetime or for good. -/
  | write (key : String) (value : V) (lifetime : Option Duration)
  /-- The number of keys that can be read. -/
  | count
  deriving DecidableEq, Repr

/-- What a cache replies. -/
inductive Reply (V : Type) where
  | value (found : Option V)
  | written
  /-- The end of the lifetime cannot be told. -/
  | overflow
  | keys (number : Nat)
  deriving DecidableEq, Repr

/-- The request writes the key. -/
def Request.Writes (request : Request V) (key : String) : Prop :=
  ∃ value lifetime, request = .write key value lifetime

/-- A lifetime that begins with the request is over by a time. -/
def Request.EndsBy (horizon now : Nat) : Request V → Prop
  | .write _ _ (some lifetime) => now + lifetime.millis ≤ horizon
  | _ => True

instance (horizon now : Nat) (request : Request V) : Decidable (request.EndsBy horizon now) :=
  match request with
  | .write _ _ (some lifetime) => inferInstanceAs (Decidable (now + lifetime.millis ≤ horizon))
  | .write _ _ none | .read _ | .count => inferInstanceAs (Decidable True)

/-- The reply of the cache to a request at a time. -/
def serve (now : Nat) : Request V → PointCache V → Reply V × PointCache V
  | .read key, c =>
    let (found, c) := c.get now key
    (.value found, c)
  | .write key value lifetime, c =>
    match c.set now key value lifetime with
    | .ok c => (.written, c)
    | .error _ => (.overflow, c)
  | .count, c =>
    let (number, c) := c.size now
    (.keys number, c)

/-- All replies of what serves requests, each at its time, and what is left afterwards. -/
def replies {C : Type} (serve : Nat → Request V → C → Reply V × C) :
    List (Nat × Request V) → C → List (Reply V) × C
  | [], c => ([], c)
  | (now, request) :: rest, c =>
    let (reply, c) := serve now request c
    let (more, c) := replies serve rest c
    (reply :: more, c)

/-! ## The journal -/

/-- A value that has been written, with its time. -/
structure Write (V : Type) where
  time : Nat
  key : String
  value : V
  lifetime : Option Duration
  deriving DecidableEq, Repr

/-- The value was written for good, or its lifetime is not over. -/
def Write.isValid (now : Nat) (w : Write V) : Bool :=
  match w.lifetime with
  | none => true
  | some length => now < w.time + length.millis

/-- All that has been written, latest first. -/
abbrev Journal (V : Type) : Type := List (Write V)

namespace Journal

/-- The value written last under a key, if it is still valid. -/
def read (now : Nat) (key : String) (journal : Journal V) : Option V :=
  match journal.find? (·.key = key) with
  | none => none
  | some last => if last.isValid now then some last.value else none

/-- The keys that can be read, each once. -/
def keys (now : Nat) (journal : Journal V) : List String :=
  (journal.map Write.key).dedup.filter fun key => (journal.read now key).isSome

/-- The reply of the journal to a request at a time. -/
def serve (now : Nat) : Request V → Journal V → Reply V × Journal V
  | .read key, journal => (.value (journal.read now key), journal)
  | .write key value lifetime, journal => (.written, ⟨now, key, value, lifetime⟩ :: journal)
  | .count, journal => (.keys (journal.keys now).length, journal)

/-- The reply of the journal to a request whose lifetime has to be over by a time. -/
def serveUntil (horizon now : Nat) (request : Request V) (journal : Journal V) : Reply V × Journal V :=
  if request.EndsBy horizon now then journal.serve now request else (.overflow, journal)

theorem read_cons (now : Nat) (key : String) (w : Write V) (journal : Journal V) :
    read now key (w :: journal)
      = if key = w.key then (if w.isValid now then some w.value else none) else journal.read now key := by
  unfold read
  by_cases hkey : key = w.key
  · rw [if_pos hkey, List.find?_cons_of_pos (by simpa using hkey.symm)]
  · rw [if_neg hkey, List.find?_cons_of_neg (by simpa using Ne.symm hkey)]

theorem mem_of_isSome_read {now : Nat} {key : String} {journal : Journal V}
    (h : (journal.read now key).isSome) : key ∈ journal.map Write.key := by
  unfold read at h
  split at h
  · cases h
  · rename_i last hlast
    have hkey : last.key = key := by simpa using List.find?_some hlast
    exact List.mem_map.mpr ⟨last, List.mem_of_find?_eq_some hlast, hkey⟩

theorem mem_keys_iff {now : Nat} {key : String} {journal : Journal V} :
    key ∈ journal.keys now ↔ (journal.read now key).isSome := by
  rw [keys, List.mem_filter, List.mem_dedup]
  exact and_iff_right_of_imp mem_of_isSome_read

theorem nodup_keys (now : Nat) (journal : Journal V) : (journal.keys now).Nodup :=
  (List.nodup_dedup _).sublist List.filter_sublist

end Journal

/-! ## A cache and its journal -/

/-- Every key reads the same in the cache and in the journal from a time on. -/
structure Follows (now : Nat) (c : PointCache V) (journal : Journal V) : Prop where
  distinct : c.Distinct
  reads : ∀ later, now ≤ later → ∀ key, (c.get later key).1 = journal.read later key

/-- When a lifetime is over, for a clock that tells every time. -/
def endOf (now : Nat) (lifetime : Option Duration) : Option Nat := lifetime.map fun l => now + l.millis

/-- A value is kept until the end of its lifetime, if that can be told. -/
theorem set_eq (now : Nat) (key : String) (value : V) (lifetime : Option Duration) (c : PointCache V) :
    c.set now key value lifetime
      = if (Request.write key value lifetime).EndsBy c.horizon now then
          .ok (c.insert now key value (endOf now lifetime))
        else .error .overflow := by
  cases lifetime with
  | none => rfl
  | some lifetime => exact set_some now key value lifetime c

theorem serve_write (now : Nat) (key : String) (value : V) (lifetime : Option Duration)
    (c : PointCache V) :
    c.serve now (.write key value lifetime)
      = if (Request.write key value lifetime).EndsBy c.horizon now then
          (.written, c.insert now key value (endOf now lifetime))
        else (.overflow, c) := by
  by_cases hends : (Request.write key value lifetime).EndsBy c.horizon now
  · rw [if_pos hends, serve, set_eq, if_pos hends]
  · rw [if_neg hends, serve, set_eq, if_neg hends]

theorem horizon_serve (now : Nat) (request : Request V) (c : PointCache V) :
    (c.serve now request).2.horizon = c.horizon := by
  cases request with
  | read key => exact horizon_get now key c
  | write key value lifetime =>
    rw [serve_write]
    split
    · exact horizon_insert now key value _ c
    · rfl
  | count => rfl

/-- No request takes the value away from a key that it does not write. -/
theorem get_serve_fst {now later : Nat} (h : now ≤ later) {c : PointCache V} (hc : c.Distinct)
    {request : Request V} {key : String} (hkey : ¬ request.Writes key) :
    ((c.serve now request).2.get later key).1 = (c.get later key).1 := by
  cases request with
  | read other => exact get_get_fst h c other key
  | write other value lifetime =>
    have hne : key ≠ other := fun heq => hkey ⟨value, lifetime, by rw [heq]⟩
    rw [serve_write]
    split
    · exact (get_insert_fst h hc other value _ key).trans (if_neg hne)
    · rfl
  | count => exact get_sweep_fst h hc key

namespace Follows

variable {now : Nat} {c : PointCache V} {journal : Journal V}

theorem empty (horizon now : Nat) : Follows now ({ horizon } : PointCache V) [] where
  distinct := List.nodup_nil
  reads _ _ _ := rfl

theorem later (h : Follows now c journal) {time : Nat} (hle : now ≤ time) : Follows time c journal :=
  ⟨h.distinct, fun later hlater => h.reads later (Nat.le_trans hle hlater)⟩

/-- As many entries are left by a sweep as there are keys in the journal that can be read. -/
theorem length_sweep (h : Follows now c journal) :
    (c.sweep now).entries.length = (journal.keys now).length := by
  have hmem : ∀ key, key ∈ (c.sweep now).entries.map Prod.fst ↔ key ∈ journal.keys now := fun key => by
    rw [mem_keys_sweep h.distinct, Journal.mem_keys_iff, h.reads now (Nat.le_refl now)]
  have hperm : ((c.sweep now).entries.map Prod.fst).Perm (journal.keys now) :=
    (List.perm_ext_iff_of_nodup (h.distinct.sweep now) (journal.nodup_keys now)).mpr hmem
  rw [← hperm.length_eq, List.length_map]

/-- What is kept in the cache is entered in the journal. -/
theorem insert (h : Follows now c journal) (key : String) (value : V) (lifetime : Option Duration) :
    Follows now (c.insert now key value (endOf now lifetime)) (⟨now, key, value, lifetime⟩ :: journal) where
  distinct := h.distinct.insert now key value _
  reads later hlater other := by
    rw [get_insert_fst hlater h.distinct, Journal.read_cons, h.reads later hlater]
    congr 1
    cases lifetime with
    | none => rfl
    | some length =>
      rw [endOf, Option.map_some, Option.filter_some, apply_ite (Option.map CacheEntry.text)]
      rfl

/-- A request is replied to alike, and the cache goes on to follow the journal. -/
theorem serve (h : Follows now c journal) (request : Request V) :
    (c.serve now request).1 = (journal.serveUntil c.horizon now request).1
      ∧ Follows now (c.serve now request).2 (journal.serveUntil c.horizon now request).2 := by
  cases request with
  | read key =>
    have hends : (Request.read key : Request V).EndsBy c.horizon now := trivial
    rw [Journal.serveUntil, if_pos hends]
    refine ⟨congrArg Reply.value (h.reads now (Nat.le_refl now) key), h.distinct.get now key, ?_⟩
    intro later hlater other
    exact (get_get_fst hlater c key other).trans (h.reads later hlater other)
  | write key value lifetime =>
    rw [serve_write, Journal.serveUntil]
    split
    · exact ⟨rfl, h.insert key value lifetime⟩
    · exact ⟨rfl, h⟩
  | count =>
    have hends : (Request.count : Request V).EndsBy c.horizon now := trivial
    rw [Journal.serveUntil, if_pos hends]
    refine ⟨congrArg Reply.keys h.length_sweep, h.distinct.sweep now, fun later hlater other => ?_⟩
    exact (get_sweep_fst hlater h.distinct other).trans (h.reads later hlater other)

/-- Requests at times that do not go back are replied to alike. -/
theorem replies (h : Follows now c journal) {requests : List (Nat × Request V)}
    (hstart : ∀ time ∈ requests.map Prod.fst, now ≤ time)
    (htimes : (requests.map Prod.fst).Pairwise (· ≤ ·)) :
    (PointCache.replies PointCache.serve requests c).1
        = (PointCache.replies (Journal.serveUntil c.horizon) requests journal).1
      ∧ ∀ later, now ≤ later → (∀ time ∈ requests.map Prod.fst, time ≤ later) →
        Follows later (PointCache.replies PointCache.serve requests c).2
          (PointCache.replies (Journal.serveUntil c.horizon) requests journal).2 := by
  induction requests generalizing now c journal with
  | nil => exact ⟨rfl, fun later hlater _ => h.later hlater⟩
  | cons first rest ih =>
    obtain ⟨time, request⟩ := first
    rw [List.map_cons, List.pairwise_cons] at htimes
    have hserved := (h.later (hstart time List.mem_cons_self)).serve request
    have hrest := ih hserved.2 htimes.1 htimes.2
    rw [horizon_serve] at hrest
    refine ⟨congrArg₂ List.cons hserved.1 hrest.1, fun later _ hlast => ?_⟩
    exact hrest.2 later (hlast time List.mem_cons_self)
      fun after hafter => hlast after (List.mem_cons_of_mem time hafter)

end Follows

/-- Where all lifetimes end in time, the journal for the cache is the plain one. -/
theorem replies_serveUntil {horizon : Nat} {requests : List (Nat × Request V)}
    (hends : ∀ request ∈ requests, request.2.EndsBy horizon request.1) (journal : Journal V) :
    replies (Journal.serveUntil horizon) requests journal = replies Journal.serve requests journal := by
  induction requests generalizing journal with
  | nil => rfl
  | cons first rest ih =>
    obtain ⟨hfirst, hrest⟩ := List.forall_mem_cons.mp hends
    rw [replies, replies, Journal.serveUntil, if_pos hfirst]
    dsimp only
    rw [ih hrest]

/-- Whatever is asked of a new cache at times that do not go back, it replies as the journal does, which never
forgets, but for the writes whose lifetime is over only after the last time that can be told: they break off
and leave nothing behind. Without such writes the replies are those of a journal that takes every write. A
further request has no effect on what is read later under any key that it does not write. -/
theorem replies_eq_journal (horizon : Nat) (requests : List (Nat × Request V))
    (htimes : (requests.map Prod.fst).Pairwise (· ≤ ·)) :
    let c : PointCache V := { horizon }
    (replies serve requests c).1 = (replies (Journal.serveUntil horizon) requests []).1
      ∧ ((∀ request ∈ requests, request.2.EndsBy horizon request.1) →
          (replies serve requests c).1 = (replies Journal.serve requests []).1)
      ∧ ∀ now, (∀ time ∈ requests.map Prod.fst, time ≤ now) →
        ∀ (request : Request V) key, ¬ request.Writes key → ∀ later, now ≤ later →
          (((replies serve requests c).2.serve now request).2.get later key).1
            = ((replies serve requests c).2.get later key).1 := by
  intro c
  have hstart : ∀ time ∈ requests.map Prod.fst, 0 ≤ time := fun time _ => Nat.zero_le time
  obtain ⟨hreplies, hfollows⟩ := (Follows.empty horizon 0).replies hstart htimes
  refine ⟨hreplies, fun hends => ?_, fun now hnow request key hkey later hlater => ?_⟩
  · rw [← replies_serveUntil hends []]
    exact hreplies
  · exact get_serve_fst hlater (hfollows now (Nat.zero_le now) hnow).distinct hkey

/-- A key is read until and at the end of its lifetime and written anew once it is over; others expire
unread, before a sweep and a count. -/
def Request.sample : List (Nat × Request String) := [
  (0, .write "a" "first" (some ⟨10⟩)), (9, .read "a"), (10, .read "a"), (10, .write "a" "second" none),
  (20, .write "b" "third" (some ⟨50⟩)), (60000, .write "c" "fourth" (some ⟨1⟩)), (60000, .count),
  (60001, .read "c"), (60001, .count), (60001, .read "a"), (60001, .read "b")]

theorem replies_eq_journal_sample :
    let c : PointCache String := { horizon := 60001 }
    (Request.sample.map Prod.fst).Pairwise (· ≤ ·)
      ∧ (∀ request ∈ Request.sample, request.2.EndsBy 60001 request.1)
      ∧ (replies serve Request.sample c).1 = (replies (Journal.serveUntil 60001) Request.sample []).1
      ∧ (replies serve Request.sample c).1 = (replies Journal.serve Request.sample []).1
      ∧ (replies Journal.serve Request.sample []).1
          = [.written, .value (some "first"), .value none, .written, .written, .written, .keys 2,
            .value none, .keys 1, .value (some "second"), .value none]
      ∧ (((replies serve Request.sample c).2.serve 120001 (.write "d" "fifth" none)).2.get 120002 "a").1
          = ((replies serve Request.sample c).2.get 120002 "a").1 := by
  intro c
  have htimes : (Request.sample.map Prod.fst).Pairwise (· ≤ ·) := by decide
  have hends : ∀ request ∈ Request.sample, request.2.EndsBy 60001 request.1 := by decide
  have hlast : ∀ time ∈ Request.sample.map Prod.fst, time ≤ 120001 := by decide
  have hother : ¬ (Request.write "d" "fifth" none).Writes "a" := by
    rintro ⟨value, lifetime, h⟩
    simp at h
  obtain ⟨hreplies, hplain, hkept⟩ := replies_eq_journal 60001 Request.sample htimes
  exact ⟨htimes, hends, hreplies, hplain hends, by decide, hkept 120001 hlast _ "a" hother 120002 (by decide)⟩

/-- A value with the longest lifetime that a count of seconds allows is never kept, though that lifetime is
far from over when it is read. -/
theorem unkept_beyond_horizon :
    let requests : List (Nat × Request String) :=
      [(0, .write "block-1" "tip" (some ⟨1000 * 0xFFFFFFFFFFFFFFFF⟩)), (1, .read "block-1")]
    (requests.map Prod.fst).Pairwise (· ≤ ·)
      ∧ (replies serve requests ({} : PointCache String)).1 = [.overflow, .value none]
      ∧ (replies Journal.serve requests []).1 = [.written, .value (some "tip")] := by
  decide

end BlockFeed.PointCache
