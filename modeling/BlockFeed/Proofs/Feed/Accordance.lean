import BlockFeed.Proofs.Answers
import BlockFeed.Proofs.Chain.History
import BlockFeed.Proofs.Chain.TipText
import BlockFeed.Proofs.PointCache

/-!
# Accordance with the history of a chain

The parts of the feed share the observed heights and the point cache. These accord with the history of
the node's chain when the best height has been reached, every tip that is cached for a height is that
of a settled block, and the cached cursor stands on every later chain.

Answers inform of the history (`FeedState.Accords.informs`): the node tells the truth, and the shared
values accord with the history. Whoever publishes only what is so keeps accordance
(`FeedState.Accords.answers`).
-/

namespace BlockFeed

/-- A question changes the queue. -/
def Surroundings.Query.isDelivery : Surroundings.Query → Bool
  | .send _ | .commit _ => true
  | _ => false

namespace History

open Surroundings (Query)

variable {node : History} {since now now' : Nat} {key text : String} {tip : Tip} {height : UInt64}

/-- What may be in the cache under a key. -/
inductive Cacheable (node : History) (now : Nat) : String → String → Prop
  | tip {block : Block} (h : node.Settled now block) :
      Cacheable node now (heightKey block.height) block.tip.toCacheText
  | cursor {tip : Tip} (h : node.Stands now tip) : Cacheable node now cursorKey tip.toCacheText

theorem Cacheable.mono (h : node.Cacheable now key text) (hle : now ≤ now') :
    node.Cacheable now' key text := by
  cases h with
  | tip h => exact .tip (h.mono hle)
  | cursor h => exact .cursor (h.mono hle)

/-- The tip that is cached for a height is that of a settled block of this height. -/
theorem Cacheable.settled (h : node.Cacheable now key text) (hkey : key = heightKey height)
    (htip : Tip.ofCacheText? text = some tip) :
    ∃ block, node.Settled now block ∧ block.tip = tip ∧ block.height = height := by
  cases h with
  | @tip block h =>
    rw [Tip.ofCacheText?_toCacheText] at htip
    exact ⟨block, h, Option.some.inj htip, heightKey_inj.mp hkey⟩
  | cursor => exact absurd hkey.symm (heightKey_ne_cursorKey height)

/-- The cached cursor stands on every later chain. -/
theorem Cacheable.stands (h : node.Cacheable now key text) (hkey : key = cursorKey)
    (htip : Tip.ofCacheText? text = some tip) : node.Stands now tip := by
  cases h with
  | tip => exact absurd hkey (heightKey_ne_cursorKey _)
  | cursor h =>
    rw [Tip.ofCacheText?_toCacheText] at htip
    cases htip
    exact h

/-- What is asked publishes nothing but what is so. -/
def Publishes (node : History) (now : Nat) : Query → Prop
  | .publishBest height => node.Reached now height
  | .writeCache key text _ => node.Cacheable now key text
  | _ => True

theorem Publishes.mono {query : Query} (h : node.Publishes now query) (hle : now ≤ now') :
    node.Publishes now' query := by
  cases query with
  | publishBest => exact Reached.mono h hle
  | writeCache => exact Cacheable.mono h hle
  | _ => trivial

/-- The node tells the truth about a chain that it has held since it was asked. It may always fail, and
whatever it says about common points and about where it steps back to will do. -/
def Tells (node : History) (since now : Nat) : (query : Query) → query.Answer → Prop
  | .tipHeader, answer => ∀ header, answer = .ok header →
      ∃ t, since ≤ t ∧ t ≤ now ∧ header.height.toNat = (node t).length
  | .fetchBlock point, answer => ∀ body, answer = .ok body →
      ∃ t, since ≤ t ∧ t ≤ now ∧ ∃ block ∈ (node t).blocks, block.tip.point = point ∧
        block.body = body
  | .pointsAfter start limit, answer => ∀ next, answer = .ok next →
      next.tips.length ≤ limit.toNat ∧ node.Follows since now start next.tips
  | _, _ => True

/-- An answer informs of the history: the node tells the truth, and so do the shared values. -/
def Informs (node : History) (since now : Nat) : (query : Query) → query.Answer → Prop
  | .bestHeight, height => node.Reached now height
  | .readCache key, answer => ∀ text, answer = .ok (some text) → node.Cacheable now key text
  | query, answer => node.Tells since now query answer

end History

namespace FeedState

open Surroundings (Query)

variable {node : History} {since now now' : Nat} {s s' : FeedState} {query : Query}
  {answer : query.Answer}

/-- The shared values accord with the history. -/
structure Accords (node : History) (now : Nat) (s : FeedState) : Prop where
  best : node.Reached now s.heights.best
  cached : ∀ entry ∈ s.cache.entries, node.Cacheable now entry.1 entry.2.text

theorem Accords.mono (h : s.Accords node now) (hle : now ≤ now') : s.Accords node now' :=
  ⟨h.best.mono hle, fun entry hmem => (h.cached entry hmem).mono hle⟩

/-- Nothing is known at first. -/
theorem accords_of_empty (hheights : s.heights = {}) (hcache : s.cache.entries = []) : s.Accords node now := by
  refine ⟨⟨now, le_rfl, ?_⟩, ?_⟩
  · rw [hheights]
    exact Nat.zero_le _
  · rw [hcache]
    simp

/-- What the shared values answer, they answer in accordance with the history. -/
theorem Accords.informs (h : s.Accords node now) (hanswer : s.Answers query answer s')
    (htold : node.Tells since now query answer) : node.Informs since now query answer := by
  cases query with
  | bestHeight =>
    cases hanswer with
    | shared clock hreply =>
      cases hreply
      exact h.best
    | elsewhere _ helsewhere => cases helsewhere
  | readCache key =>
    intro text htext
    obtain ⟨entry, hmem, rfl⟩ := exists_mem_of_answers hanswer htext
    exact h.cached _ hmem
  | _ => exact htold

/-- Whoever publishes only what is so keeps accordance. -/
theorem Accords.answers (h : s.Accords node now) (hpublishes : node.Publishes now query)
    (hanswer : s.Answers query answer s') : s'.Accords node now := by
  cases hanswer with
  | elsewhere => exact h
  | unreadable => exact h
  | unwritable => exact h
  | shared clock hreply =>
    cases query with
    | publishBest height =>
      cases hreply
      exact ⟨hpublishes, h.cached⟩
    | readCache key =>
      cases hreply
      exact ⟨h.best, fun entry hmem =>
        h.cached entry (PointCache.entries_get_subset clock key _ hmem)⟩
    | writeCache key text lifetime =>
      obtain ⟨-, rfl⟩ | ⟨-, rfl⟩ := of_reply_writeCache hreply
      · -- an entry is the one that is written or an earlier one
        refine ⟨h.best, fun entry hmem => ?_⟩
        rcases PointCache.mem_insert hmem with ⟨hkey, htext⟩ | hmem
        · rw [hkey, htext]
          exact hpublishes
        · exact h.cached entry hmem
      · exact h
    | send block =>
      have hsend : s.send block = (.answered answer, s') := hreply
      unfold FeedState.send at hsend
      split at hsend
      · cases hsend
        exact h
      · split at hsend
        · cases hsend
        · cases hsend
          exact ⟨h.best, h.cached⟩
    | tipHeader | fetchBlock | pointsAfter | findIntersect | hints => cases hreply
    | _ =>
      cases hreply
      exact ⟨h.best, h.cached⟩

/-- Nobody else changes the queue. -/
theorem outbox_eq_of_answers (hdelivery : query.isDelivery = false)
    (hanswer : s.Answers query answer s') : s'.outbox = s.outbox := by
  cases hanswer with
  | elsewhere => rfl
  | unreadable => rfl
  | unwritable => rfl
  | shared clock hreply =>
    cases query with
    | send => cases hdelivery
    | commit => cases hdelivery
    | tipHeader | fetchBlock | pointsAfter | findIntersect | hints => cases hreply
    | writeCache => obtain ⟨-, rfl⟩ | ⟨-, rfl⟩ := of_reply_writeCache hreply <;> rfl
    | _ =>
      cases hreply
      rfl

end FeedState

end BlockFeed
