import Mathlib.Data.List.Induction
import BlockFeed.Proofs.Answers
import BlockFeed.Proofs.Transcript

/-!
# Work at a site

A site tells how questions about the shared values fare that are asked one after the other: when each of them
is asked, which uses of the cache fail, and what anybody else answers. What the values are after a transcript
is found by replaying it (`Site.sharedAfter`), and what the next question is answered follows from that
(`Site.behaviour`).

As long as nothing is written, every key reads as it did at first (`Site.alike_of_unwritten`), whatever has
been dropped in the meantime. So a reading is told by the first values and the number of the question
(`Site.held`, `Site.keeps_readTip`).
-/

namespace BlockFeed

open Surroundings (Query)

/-- What there is to say where nobody answers: the node cannot be reached, nothing is known, and nothing is
taken. -/
def Surroundings.Query.silence : (query : Query) → query.Answer
  | .bestHeight | .finalizedHeight => (0 : UInt64)
  | .publishBest _ | .publishFinalized _ | .commit _ | .note _ => ()
  | .readCache _ => (.ok none : Except CacheError (Option String))
  | .writeCache _ _ _ => (.ok () : Except (Abort CacheError) Unit)
  | .tipHeader => (.error (.connection .closed) : Except NodeError Header)
  | .fetchBlock _ => (.error (.connection .closed) : Except NodeError Bytes)
  | .pointsAfter _ _ => (.error (.connection .closed) : Except NodeError NextPoints)
  | .findIntersect _ => (.error (.connection .closed) : Except NodeError Intersection)
  | .hints _ _ => (none : Option HintReply)
  | .freeSlots | .now => (0 : Nat)
  | .buffered => (none : Option UInt64)
  | .send _ => false

/-- How questions fare that are asked one after the other. -/
structure Site where
  /-- What is shared at first. -/
  shared : FeedState
  /-- The time of each question. -/
  times : Nat → Nat
  mono : ∀ m n, m ≤ n → times m ≤ times n
  /-- Which uses of the cache fail, by the number of the question. What fails leaves nothing behind. -/
  faults : Nat → Option CacheError := fun _ => none
  /-- What is answered by others than those who share the values. -/
  elsewhere : (query : Query) → query.Answer := Query.silence

/-- The question writes to the cache. -/
def Surroundings.Query.isWrite : Query → Bool
  | .writeCache _ _ _ => true
  | _ => false

namespace Site

/-- The answer that tells of a failure of the cache. -/
def fault? (site : Site) (n : Nat) : (query : Query) → Option query.Answer
  | .readCache _ => (site.faults n).map Except.error
  | .writeCache _ _ _ => (site.faults n).map fun error => .error (.failed error)
  | _ => none

/-- What a question is answered that has a number, and what is shared then. -/
def reply (site : Site) (n : Nat) (s : FeedState) (query : Query) : query.Answer × FeedState :=
  match site.fault? n query with
  | some answer => (answer, s)
  | none =>
    match s.reply (site.times n) query with
    | (.answered answer, s) => (answer, s)
    | _ => (site.elsewhere query, s)

/-- What is shared after a transcript. -/
def sharedAfter (site : Site) (log : List (Interface.Event Surroundings)) : FeedState :=
  log.zipIdx.foldl (fun s event => (site.reply event.2 s event.1.1).2) site.shared

/-- What is answered to each question. -/
def behaviour (site : Site) : Behaviour Surroundings := fun log query =>
  (site.reply log.length (site.sharedAfter log) query).1

/-- A transcript with the next question. -/
def told (site : Site) (log : List (Interface.Event Surroundings)) (query : Query) :
    List (Interface.Event Surroundings) := log ++ [⟨query, site.behaviour log query⟩]

section
variable {site : Site} {log : List (Interface.Event Surroundings)} {query : Query} {key : String}

/-- The values depend on what has been asked only. -/
theorem sharedAfter_append {event : Interface.Event Surroundings} :
    site.sharedAfter (log ++ [event]) = (site.reply log.length (site.sharedAfter log) event.1).2 := by
  rw [sharedAfter, List.zipIdx_append, List.foldl_append, Nat.zero_add]
  rfl

theorem sharedAfter_told :
    site.sharedAfter (site.told log query) = (site.reply log.length (site.sharedAfter log) query).2 := by
  rw [told, sharedAfter_append]

theorem length_told : (site.told log query).length = log.length + 1 := List.length_append

theorem mem_told {event : Interface.Event Surroundings} :
    event ∈ site.told log query ↔ event ∈ log ∨ event = ⟨query, site.behaviour log query⟩ := by
  rw [told, List.mem_append, List.mem_singleton]

/-! ## The cache -/

/-- Nothing has been written to the cache. -/
def Unwritten (log : List (Interface.Event Surroundings)) : Prop :=
  ∀ event ∈ log, event.1.isWrite = false

theorem Unwritten.told (h : Unwritten log) (hquery : query.isWrite = false) :
    Unwritten (site.told log query) := by
  intro event hevent
  rcases mem_told.mp hevent with hevent | rfl
  · exact h event hevent
  · exact hquery

/-- A question leaves the shared values as they are, or serves itself from them. -/
theorem reply_snd (site : Site) (n : Nat) (s : FeedState) (query : Query) :
    (site.reply n s query).2 = s ∨ (site.reply n s query).2 = (s.reply (site.times n) query).2 := by
  unfold reply
  split
  · exact .inl rfl
  · split
    · rename_i hreply
      rw [hreply]
      exact .inr rfl
    · exact .inl rfl

/-- What does not fail is answered from the shared values, if they have an answer. -/
theorem reply_of_answered (site : Site) {n : Nat} {s s' : FeedState} {answer : query.Answer}
    (hfault : site.fault? n query = none) (h : s.reply (site.times n) query = (.answered answer, s')) :
    site.reply n s query = (answer, s') := by
  rw [reply, hfault, h]

theorem cache_send (s : FeedState) (block : Block) : (s.send block).2.cache = s.cache := by
  unfold FeedState.send
  split
  · rfl
  · split <;> rfl

/-- The clock of the cache remains the same. -/
theorem horizon_reply (site : Site) (n : Nat) (s : FeedState) (query : Query) :
    (site.reply n s query).2.cache.horizon = s.cache.horizon := by
  rcases site.reply_snd n s query with hsame | hserved
  · rw [hsame]
  · rw [hserved]
    cases query with
    | readCache key => exact PointCache.horizon_get _ key s.cache
    | writeCache key text lifetime =>
      rw [FeedState.reply_writeCache]
      split
      · exact PointCache.horizon_insert _ key text _ s.cache
      · rfl
    | send block => exact congrArg PointCache.horizon (cache_send s block)
    | _ => rfl

theorem horizon_sharedAfter (site : Site) (log : List (Interface.Event Surroundings)) :
    (site.sharedAfter log).cache.horizon = site.shared.cache.horizon := by
  induction log using List.reverseRecOn with
  | nil => rfl
  | append_singleton log event ih =>
    rw [sharedAfter_append]
    exact (site.horizon_reply _ _ _).trans ih

/-- What a question that writes nothing does to the cache is dropping what has expired. -/
theorem alike_reply {s : FeedState} {n : Nat} {d : PointCache} (h : s.cache.Alike (site.times n) d)
    (hquery : query.isWrite = false) : (site.reply n s query).2.cache.Alike (site.times n) d := by
  rcases site.reply_snd n s query with hsame | hserved
  · rw [hsame]
    exact h
  · rw [hserved]
    cases query with
    | readCache key => exact h.get_left key
    | writeCache => cases hquery
    | send block => exact (cache_send s block).symm ▸ h
    | _ => exact h

/-- As long as nothing has been written, every key reads as at first. -/
theorem alike_of_unwritten (hdistinct : site.shared.cache.Distinct) (h : Unwritten log) :
    (site.sharedAfter log).cache.Alike (site.times log.length) site.shared.cache := by
  -- from the end, since each question is answered with what all before it have left
  induction log using List.reverseRecOn with
  | nil => exact .refl hdistinct
  | append_singleton log event ih =>
    have hlog : Unwritten log := fun other hother => h other (List.mem_append_left _ hother)
    have hevent := h event (List.mem_append_right _ (List.mem_singleton.mpr rfl))
    rw [sharedAfter_append, List.length_append, List.length_singleton]
    exact (alike_reply (ih hlog) hevent).later (site.mono _ _ (Nat.le_succ _))

/-- What a reading of a key with a number is answered as long as nothing has been written. -/
def held (site : Site) (n : Nat) (key : String) : Except CacheError (Option Tip) :=
  match site.faults n with
  | some error => .error error
  | none => decodeCached key (site.shared.cache.get (site.times n) key).1

/-- What a reading tells is what the cache holds at that time. -/
theorem getTip_of_held {n : Nat} {height : UInt64} {found : Option Tip}
    (h : site.held n (heightKey height) = .ok found) :
    (site.shared.cache.getTip (site.times n) height).1 = .ok found := by
  unfold held at h
  split at h
  · cases h
  · exact h

theorem behaviour_readCache (hdistinct : site.shared.cache.Distinct) (h : Unwritten log) :
    site.behaviour log (.readCache key)
      = match site.faults log.length with
        | some error => Except.error error
        | none => Except.ok (site.shared.cache.get (site.times log.length) key).1 := by
  rw [← (alike_of_unwritten hdistinct h).reads _ (Nat.le_refl _) key]
  show (site.reply log.length (site.sharedAfter log) (.readCache key)).1 = _
  rw [reply, fault?]
  cases site.faults log.length <;> rfl

/-- What keeps a text with a lifetime from being written by the question with a number, if anything does. -/
def hindrance? (site : Site) (n : Nat) (lifetime : Duration) : Option (Abort CacheError) :=
  match site.faults n with
  | some error => some (.failed error)
  | none =>
    if site.times n + lifetime.millis ≤ site.shared.cache.horizon then none else some .overflow

variable {text : String} {lifetime : Duration}

/-- A write that is not hindered by a failure of the cache is hindered by a lifetime without an end. -/
theorem horizon_lt_of_hindrance? {n : Nat} (h : site.hindrance? n lifetime = some .overflow) :
    site.shared.cache.horizon < site.times n + lifetime.millis := by
  unfold hindrance? at h
  split at h
  · cases h
  · split at h
    · cases h
    · exact Nat.lt_of_not_le ‹_›

/-- A write is answered, and leaves behind what it has to, as nothing or something keeps it from that. -/
theorem reply_writeCache (site : Site) (log : List (Interface.Event Surroundings)) (key text : String)
    (lifetime : Duration) :
    site.reply log.length (site.sharedAfter log) (.writeCache key text lifetime)
      = match site.hindrance? log.length lifetime with
        | some abort => (.error abort, site.sharedAfter log)
        | none =>
          (.ok (), { site.sharedAfter log with
            cache := (site.sharedAfter log).cache.insert (site.times log.length) key text
              (some (site.times log.length + lifetime.millis)) }) := by
  cases hfault : site.faults log.length with
  | some error => rw [reply, fault?, hindrance?, hfault]; rfl
  | none =>
    have hclock := site.horizon_sharedAfter log
    by_cases hends : site.times log.length + lifetime.millis ≤ site.shared.cache.horizon
    · rw [hindrance?, hfault, if_pos hends]
      exact site.reply_of_answered (congrArg (Option.map _) hfault)
        ((FeedState.reply_writeCache _ _ key text lifetime).trans (if_pos (hclock ▸ hends)))
    · rw [hindrance?, hfault, if_neg hends]
      exact site.reply_of_answered (congrArg (Option.map _) hfault)
        ((FeedState.reply_writeCache _ _ key text lifetime).trans (if_neg (hclock ▸ hends)))

theorem behaviour_writeCache :
    site.behaviour log (.writeCache key text lifetime)
      = match site.hindrance? log.length lifetime with
        | some abort => Except.error abort
        | none => Except.ok () := by
  show (site.reply log.length (site.sharedAfter log) (.writeCache key text lifetime)).1 = _
  rw [reply_writeCache]
  cases site.hindrance? log.length lifetime <;> rfl

/-- The cache after a write that nothing hinders. -/
theorem cache_told_writeCache (h : site.hindrance? log.length lifetime = none) :
    (site.sharedAfter (site.told log (.writeCache key text lifetime))).cache
      = (site.sharedAfter log).cache.insert (site.times log.length) key text
          (some (site.times log.length + lifetime.millis)) := by
  rw [sharedAfter_told, reply_writeCache, h]

/-- The cache is as before after a write that something hinders. -/
theorem sharedAfter_told_writeCache {abort : Abort CacheError}
    (h : site.hindrance? log.length lifetime = some abort) :
    site.sharedAfter (site.told log (.writeCache key text lifetime)) = site.sharedAfter log := by
  rw [sharedAfter_told, reply_writeCache, h]

theorem cache_told_note {m : Measurement} :
    (site.sharedAfter (site.told log (.note m))).cache = (site.sharedAfter log).cache := by
  rw [sharedAfter_told]
  rfl

/-- A use of the cache has failed, or what has been read is not the text of a tip. -/
def isFailure : Interface.Event Surroundings → Bool
  | ⟨.readCache _, .error _⟩ => true
  | ⟨.readCache key, .ok text⟩ =>
    match decodeCached key text with
    | .ok _ => false
    | .error _ => true
  | ⟨.writeCache _ _ _, .error _⟩ => true
  | _ => false

theorem isFailure_readCache (hdistinct : site.shared.cache.Distinct) (h : Unwritten log) (key : String) :
    isFailure ⟨.readCache key, site.behaviour log (.readCache key)⟩
      = match site.held log.length key with
        | .ok _ => false
        | .error _ => true := by
  rw [behaviour_readCache hdistinct h, held]
  cases site.faults log.length <;> rfl

theorem isFailure_writeCache :
    isFailure ⟨.writeCache key text lifetime, site.behaviour log (.writeCache key text lifetime)⟩
      = (site.hindrance? log.length lifetime).isSome := by
  rw [behaviour_writeCache]
  cases site.hindrance? log.length lifetime <;> rfl

/-! ## Reading and writing tips -/

variable {σ ε : Type} {memory : σ} {rename : CacheError → ε}

/-- A tip is read as it is held. -/
theorem keeps_readTip (hdistinct : site.shared.cache.Distinct) (h : Unwritten log)
    {ok : List (Interface.Event Surroundings) → σ → Option Tip → Prop}
    {failed : List (Interface.Event Surroundings) → σ → Abort ε → Prop}
    (hheld : match site.held log.length key with
      | .ok found => ok (site.told log (.readCache key)) memory found
      | .error error => failed (site.told log (.readCache key)) memory (.failed (rename error))) :
    (Work.readTip rename key).Keeps (following site.behaviour σ) ok failed log memory := by
  refine Routine.keeps_bind.mpr (Routine.keeps_following_ask.mpr ?_)
  show Routine.Keeps _ _ _ _ (site.told log (.readCache key)) memory
  rw [behaviour_readCache hdistinct h]
  unfold held at hheld
  cases hfault : site.faults log.length with
  | some error =>
    rw [hfault] at hheld
    exact hheld
  | none =>
    rw [hfault] at hheld
    refine Routine.keeps_bind.mpr (Routine.keeps_ofExcept.mpr (Routine.keeps_ofExcept.mpr ?_))
    dsimp only at hheld ⊢
    split
    · rename_i hdecoded
      rwa [hdecoded] at hheld
    · rename_i hdecoded
      rwa [hdecoded] at hheld

/-- A tip is written unless something hinders that. -/
theorem keeps_writeTip {tip : Tip}
    {ok : List (Interface.Event Surroundings) → σ → Unit → Prop}
    {failed : List (Interface.Event Surroundings) → σ → Abort ε → Prop}
    (hends : match site.hindrance? log.length lifetime with
      | none => ok (site.told log (.writeCache key tip.toCacheText lifetime)) memory ()
      | some abort =>
        failed (site.told log (.writeCache key tip.toCacheText lifetime)) memory (abort.map rename)) :
    (Work.writeTip rename key tip lifetime).Keeps (following site.behaviour σ) ok failed log memory := by
  refine Routine.keeps_bind.mpr (Routine.keeps_following_ask.mpr ?_)
  show Routine.Keeps _ _ _ _ (site.told log (.writeCache key tip.toCacheText lifetime)) memory
  rw [behaviour_writeCache]
  cases habort : site.hindrance? log.length lifetime with
  | some abort =>
    rw [habort] at hends
    exact hends
  | none =>
    rw [habort] at hends
    exact hends

end

end Site

end BlockFeed
