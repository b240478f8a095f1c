import BlockFeed.FeedState
import BlockFeed.Proofs.PointCache
import BlockFeed.Proofs.Simulation.Drive

/-!
# Answers that may be given

What the parts of the feed share answers for itself, but that the cache may fail; the node and the hint
service may give any answer. A world for rehearsals gives such answers only
(`FeedState.Answers.of_world`).
-/

namespace BlockFeed

/-- A question is for the node or the hint service. -/
def Surroundings.Query.isElsewhere : Surroundings.Query → Bool
  | .tipHeader | .fetchBlock _ | .pointsAfter _ _ | .findIntersect _ | .hints _ _ => true
  | _ => false

namespace FeedState

/-- An answer that may be given, with what the parts of the feed share then. -/
inductive Answers (s : FeedState) : (query : Surroundings.Query) → query.Answer → FeedState → Prop
  /-- The answer comes from the shared values, at some time. -/
  | shared {query : Surroundings.Query} {answer : query.Answer} {s' : FeedState} (now : Nat)
      (h : s.reply now query = (.answered answer, s')) : Answers s query answer s'
  /-- The node and the hint service may give any answer. -/
  | elsewhere {query : Surroundings.Query} (answer : query.Answer) (h : query.isElsewhere = true) :
      Answers s query answer s
  /-- The cache may fail. -/
  | unreadable (key : String) (error : CacheError) : Answers s (.readCache key) (.error error) s
  | unwritable (key text : String) (lifetime : Duration) (error : Abort CacheError) :
      Answers s (.writeCache key text lifetime) (.error error) s

/-- A text is written until the end of its lifetime, if that can be told. -/
theorem reply_writeCache (now : Nat) (s : FeedState) (key text : String) (lifetime : Duration) :
    s.reply now (.writeCache key text lifetime)
      = if now + lifetime.millis ≤ s.cache.horizon then
          (.answered (.ok ()),
            { s with cache := s.cache.insert now key text (some (now + lifetime.millis)) })
        else (.answered (.error .overflow), s) := by
  by_cases hends : now + lifetime.millis ≤ s.cache.horizon
  · rw [if_pos hends, reply, PointCache.set_some, if_pos hends]
  · rw [if_neg hends, reply, PointCache.set_some, if_neg hends]

/-- What has been answered to a write, and what it has left behind. -/
theorem of_reply_writeCache {s s' : FeedState} {now : Nat} {key text : String} {lifetime : Duration}
    {answer : Surroundings.Query.Answer (.writeCache key text lifetime)}
    (h : s.reply now (.writeCache key text lifetime) = (.answered answer, s')) :
    answer = .ok () ∧
        s' = { s with cache := s.cache.insert now key text (some (now + lifetime.millis)) } ∨
      answer = .error .overflow ∧ s' = s := by
  rw [reply_writeCache] at h
  split at h <;> cases h
  · exact .inl ⟨rfl, rfl⟩
  · exact .inr ⟨rfl, rfl⟩

/-- A write touches nothing but the cache. -/
theorem reply_writeCache_snd (now : Nat) (s : FeedState) (key text : String) (lifetime : Duration) :
    ∃ cache, (s.reply now (.writeCache key text lifetime)).2 = { s with cache } := by
  rw [reply_writeCache]
  split
  · exact ⟨_, rfl⟩
  · exact ⟨s.cache, rfl⟩

/-- The shared values do not answer what is for somebody else. -/
theorem isElsewhere_of_reply {s s' : FeedState} {now : Nat} {query : Surroundings.Query}
    (h : s.reply now query = (.elsewhere, s')) : query.isElsewhere = true := by
  cases query with
  | send block =>
    have hsend : s.send block = (.elsewhere, s') := h
    unfold FeedState.send at hsend
    split at hsend
    · cases hsend
    · split at hsend <;> cases hsend
  | writeCache key text lifetime =>
    rw [reply_writeCache] at h
    split at h <;> cases h
  | tipHeader | fetchBlock | pointsAfter | findIntersect | hints => rfl
  | _ => cases h

/-- An entry of the cache after a reply was there before, or the question has written it. -/
theorem mem_cache_of_reply {s s' : FeedState} {now : Nat} {query : Surroundings.Query}
    {reply : Reply query} (h : s.reply now query = (reply, s')) {entry : String × CacheEntry}
    (hmem : entry ∈ s'.cache.entries) :
    entry ∈ s.cache.entries ∨ ∃ lifetime, query = .writeCache entry.1 entry.2.text lifetime := by
  cases query with
  | readCache key =>
    cases h
    exact .inl (PointCache.entries_get_subset now key _ hmem)
  | writeCache key text lifetime =>
    rw [reply_writeCache] at h
    split at h <;> cases h
    · rcases PointCache.mem_insert hmem with ⟨rfl, rfl⟩ | hmem
      · exact .inr ⟨lifetime, rfl⟩
      · exact .inl hmem
    · exact .inl hmem
  | send block =>
    have hsend : s.send block = (reply, s') := h
    unfold FeedState.send at hsend
    split at hsend
    · cases hsend
      exact .inl hmem
    · split at hsend <;> cases hsend <;> exact .inl hmem
  | _ =>
    cases h
    exact .inl hmem

/-- An entry of the cache after an answer was there before, or the question has written it. -/
theorem mem_cache_of_answers {s s' : FeedState} {query : Surroundings.Query} {answer : query.Answer}
    (h : s.Answers query answer s') {entry : String × CacheEntry} (hmem : entry ∈ s'.cache.entries) :
    entry ∈ s.cache.entries ∨ ∃ lifetime, query = .writeCache entry.1 entry.2.text lifetime := by
  cases h with
  | shared now h => exact mem_cache_of_reply h hmem
  | elsewhere | unreadable | unwritable => exact .inl hmem

/-- A text that is read is that of an entry of the cache. -/
theorem exists_mem_of_answers {s s' : FeedState} {key text : String}
    {answer : Surroundings.Query.Answer (.readCache key)} (h : s.Answers (.readCache key) answer s')
    (htext : answer = .ok (some text)) : ∃ entry, (key, entry) ∈ s.cache.entries ∧ entry.text = text := by
  cases h with
  | shared now hreply =>
    cases hreply
    exact PointCache.exists_mem_of_get (Except.ok.inj htext)
  | elsewhere _ helsewhere => cases helsewhere
  | unreadable => cases htext

/-! ## Shared values that answer the same -/

/-- From a time on, shared values give the same answers as others. Measurements are not asked for. -/
structure Alike (now : Nat) (s t : FeedState) : Prop where
  heights : s.heights = t.heights
  outbox : s.outbox = t.outbox
  cache : s.cache.Alike now t.cache

namespace Alike

variable {now : Nat} {s t : FeedState}

theorem later (h : Alike now s t) {time : Nat} (hle : now ≤ time) : Alike time s t :=
  ⟨h.heights, h.outbox, h.cache.later hle⟩

/-- The same question is answered in the same way by both, and the next one is, too. -/
theorem reply (h : Alike now s t) (query : Surroundings.Query) :
    (s.reply now query).1 = (t.reply now query).1 ∧
      Alike now (s.reply now query).2 (t.reply now query).2 := by
  obtain ⟨heights, cache, outbox, metrics⟩ := s
  obtain ⟨heights', cache', outbox', metrics'⟩ := t
  obtain ⟨rfl, rfl, hcache⟩ := h
  cases query with
  | readCache key =>
    have hread : (Except.ok (cache.get now key).1 : Except CacheError (Option String))
        = .ok (cache'.get now key).1 := by
      rw [hcache.reads now (Nat.le_refl now) key]
    exact ⟨congrArg (@Reply.answered (.readCache key)) hread, rfl, rfl,
      ((hcache.get_left key).symm.get_left key).symm⟩
  | writeCache key text lifetime =>
    rw [reply_writeCache, reply_writeCache, ← hcache.horizon]
    split
    · exact ⟨rfl, rfl, rfl, hcache.insert key text _⟩
    · exact ⟨rfl, rfl, rfl, hcache⟩
  | send block =>
    simp only [FeedState.reply, FeedState.send]
    split
    · exact ⟨rfl, rfl, rfl, hcache⟩
    · split <;> exact ⟨rfl, rfl, rfl, hcache⟩
  | _ => exact ⟨rfl, rfl, rfl, hcache⟩

/-- The consumer may take blocks of both. -/
theorem drain (h : Alike now s t) (limit : Option Nat) :
    (s.drain limit).1 = (t.drain limit).1 ∧ Alike now (s.drain limit).2 (t.drain limit).2 := by
  simp only [FeedState.drain, h.outbox]
  exact ⟨trivial, h.heights, rfl, h.cache⟩

end Alike

open Simulation (World)

/-- A provoked failure is one of the cache. -/
theorem Answers.of_fault {w : World} {query : Surroundings.Query} {answer : query.Answer}
    (h : w.fault? query = some answer) : w.toFeedState.Answers query answer w.toFeedState := by
  unfold World.fault? at h
  split at h
  · split at h
    · cases h
      exact .unreadable _ _
    · cases h
  · split at h
    · cases h
      exact .unwritable _ _ _ _
    · cases h
  · cases h

/-- Answering a call changes nothing that is shared. -/
theorem finishCall_toFeedState (w : World) (query : Surroundings.Query) :
    (w.finishCall query).2.toFeedState = w.toFeedState := by
  cases query <;> rfl

/-- What a world says at first to a question. -/
def Faithful (w : World) (query : Surroundings.Query) :
    Simulation.Response query × World → Prop
  | (.answered answer, w') => w.toFeedState.Answers query answer w'.toFeedState
  | (.called, w') => query.isElsewhere = true ∧ w'.toFeedState = w.toFeedState
  | (.noRoom, _) => True

theorem faithful_reactElsewhere (w : World) {query : Surroundings.Query}
    (h : query.isElsewhere = true) : Faithful w query (w.reactElsewhere query) := by
  cases query with
  | hints first last => exact .elsewhere _ h
  | _ => exact ⟨h, rfl⟩

theorem faithful_react (w : World) (query : Surroundings.Query) :
    Faithful w query (w.react query) := by
  unfold World.react
  split
  · rename_i hfault
    exact .of_fault hfault
  · split
    · rename_i hreply
      exact .shared _ hreply
    · trivial
    · rename_i hreply
      exact faithful_reactElsewhere w (isElsewhere_of_reply hreply)

/-- What a world answers may be answered. -/
theorem Answers.of_world {w w' : World} {query : Surroundings.Query} {answer : query.Answer}
    (h : w.Answers query answer w') : w.toFeedState.Answers query answer w'.toFeedState := by
  have hfaithful := faithful_react w query
  cases h with
  | react h =>
    rw [h] at hfaithful
    exact hfaithful
  | @call called h hfinish =>
    rw [h] at hfaithful
    obtain ⟨helsewhere, hshared⟩ := hfaithful
    have hfinished := finishCall_toFeedState called query
    rw [hfinish, hshared] at hfinished
    rw [hfinished]
    exact .elsewhere answer helsewhere

end FeedState

end BlockFeed
