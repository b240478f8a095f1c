import BlockFeed.Proofs.Chain.TipText
import BlockFeed.Proofs.PointCache.Journal
import Mathlib.Data.List.Induction

/-!
# Tips in any store of texts

Tips are kept in whatever store of texts behaves as a map (`TextStore.BehavesAsMap`): under every key there is
the text written last, until its lifetime is over. The tips of heights and the resume cursor then do not get in
each other's way. Each of them reads as the tip that has been set last for it, until the lifetime of that is over,
and nothing that is set for another one matters (`TextStore.tips_of_behavesAsMap`).

For that it takes two things: the text of a tip is read back as that tip, and every place has a key of its own
(`Place.key_inj`). The point cache is such a store as long as the ends of lifetimes can be told
(`PointCache.behavesAsMap_store`, `PointCache.getTip_useTips`).
-/

namespace BlockFeed

/-! ## Stores of texts -/

/-- A store of texts under keys, as it is read and written at a time. Reading may change it, too. -/
structure TextStore (C : Type) where
  get : Nat → String → C → Option String × C
  set : Nat → String → String → Option Duration → C → C

namespace TextStore

/-- What can be done to a store. -/
inductive Access where
  | get (key : String)
  | set (key text : String) (lifetime : Option Duration)
  deriving DecidableEq, Repr

/-- What an access writes, if it does. -/
def Access.write? (time : Nat) : Access → Option (PointCache.Write String)
  | .get _ => none
  | .set key text lifetime => some ⟨time, key, text, lifetime⟩

/-- All that accesses write, latest first. -/
def written (accesses : List (Nat × Access)) : PointCache.Journal String :=
  accesses.reverse.filterMap fun entry => entry.2.write? entry.1

theorem written_append (accesses : List (Nat × Access)) (time : Nat) (access : Access) :
    written (accesses ++ [(time, access)]) = (access.write? time).toList ++ written accesses := by
  rw [written, List.reverse_append, List.filterMap_append, ← written]
  cases access <;> rfl

variable {C : Type} (S : TextStore C)

/-- The store after an access. -/
def perform (time : Nat) : Access → C → C
  | .get key, c => (S.get time key c).2
  | .set key text lifetime, c => S.set time key text lifetime c

/-- The store after accesses, each at its time. -/
def after (accesses : List (Nat × Access)) (c : C) : C :=
  accesses.foldl (fun c entry => S.perform entry.1 entry.2 c) c

/-- At times that do not go back, a key reads as the text written last under it, as long as that is valid. -/
def BehavesAsMap (c : C) : Prop :=
  ∀ (accesses : List (Nat × Access)) (now : Nat) (key : String),
    (accesses.map Prod.fst ++ [now]).Pairwise (· ≤ ·) →
      (S.get now key (S.after accesses c)).1 = (written accesses).read now key

end TextStore

/-! ## Places for tips -/

/-- What a tip is kept for. -/
inductive Place where
  /-- The tip of a height. -/
  | height (h : UInt64)
  /-- The resume cursor. -/
  | cursor
  deriving DecidableEq, Repr

/-- The key of a place. -/
def Place.key : Place → String
  | .height h => heightKey h
  | .cursor => cursorKey

/-- Every place has a key of its own. -/
theorem Place.key_inj {place other : Place} : place.key = other.key ↔ place = other := by
  cases place with
  | height h =>
    cases other with
    | height h' => exact heightKey_inj.trans (Place.height.injEq h h').to_iff.symm
    | cursor => exact iff_of_false (heightKey_ne_cursorKey h) nofun
  | cursor =>
    cases other with
    | height h => exact iff_of_false (heightKey_ne_cursorKey h).symm nofun
    | cursor => exact iff_of_true rfl rfl

/-- What can be done to the tips in a store. -/
inductive TipAccess where
  | get (place : Place)
  /-- A tip is kept for its own height. -/
  | setTip (tip : Tip) (lifetime : Duration)
  | setCursor (tip : Tip) (lifetime : Duration)
  deriving DecidableEq

/-- A tip that has been set at a time, for a lifetime. -/
structure Setting where
  time : Nat
  tip : Tip
  lifetime : Duration
  deriving DecidableEq

/-- The lifetime is not over. -/
def Setting.isValid (now : Nat) (s : Setting) : Bool := now < s.time + s.lifetime.millis

namespace TipAccess

/-- What it comes to for the texts of a store. -/
def access : TipAccess → TextStore.Access
  | .get place => .get place.key
  | .setTip tip lifetime => .set (heightKey tip.number) tip.toCacheText (some lifetime)
  | .setCursor tip lifetime => .set cursorKey tip.toCacheText (some lifetime)

/-- What is set for a place, if anything is. -/
def setting? (place : Place) (time : Nat) : TipAccess → Option Setting
  | .get _ => none
  | .setTip tip lifetime => if place = .height tip.number then some ⟨time, tip, lifetime⟩ else none
  | .setCursor tip lifetime => if place = .cursor then some ⟨time, tip, lifetime⟩ else none

/-- What has been set last for a place. -/
def lastSetting? (place : Place) (accesses : List (Nat × TipAccess)) : Option Setting :=
  accesses.reverse.findSome? fun entry => entry.2.setting? place entry.1

theorem lastSetting?_append (place : Place) (accesses : List (Nat × TipAccess)) (time : Nat)
    (access : TipAccess) :
    lastSetting? place (accesses ++ [(time, access)])
      = (access.setting? place time).or (lastSetting? place accesses) := by
  rw [lastSetting?, List.reverse_append, List.findSome?_append, List.reverse_singleton,
    List.findSome?_singleton, lastSetting?]

end TipAccess

/-- What is written for a place when a tip is set. -/
def Setting.write (place : Place) (s : Setting) : PointCache.Write String :=
  ⟨s.time, place.key, s.tip.toCacheText, some s.lifetime⟩

/-- Under the key of a place an access writes what it sets for the place, and otherwise something else. -/
theorem TipAccess.write?_access (place : Place) (time : Nat) (access : TipAccess) :
    (access.access.write? time).filter (·.key = place.key)
      = (access.setting? place time).map (Setting.write place) := by
  -- heights and cursor are written alike, each under the key of its place
  have hset (other : Place) (tip : Tip) (lifetime : Duration) :
      (some (PointCache.Write.mk time other.key tip.toCacheText (some lifetime))).filter
          (·.key = place.key)
        = (if place = other then some (Setting.mk time tip lifetime) else none).map
            (Setting.write place) := by
    rw [Option.filter_some]
    by_cases hplace : place = other
    · rw [if_pos hplace, hplace, if_pos (decide_eq_true rfl)]
      rfl
    · have hkey : other.key ≠ place.key := fun heq => hplace (Place.key_inj.mp heq.symm)
      rw [if_neg hplace, if_neg (by simpa using hkey)]
      rfl
  cases access with
  | get => rfl
  | setTip tip lifetime => exact hset (.height tip.number) tip lifetime
  | setCursor tip lifetime => exact hset .cursor tip lifetime

/-- The text written last under the key of a place is that of the tip set last for the place. -/
theorem find?_written (place : Place) (accesses : List (Nat × TipAccess)) :
    (TextStore.written (accesses.map fun entry => (entry.1, entry.2.access))).find?
        (·.key = place.key)
      = (TipAccess.lastSetting? place accesses).map (Setting.write place) := by
  induction accesses using List.reverseRecOn with
  | nil => rfl
  | append_singleton accesses last ih =>
    obtain ⟨time, access⟩ := last
    rw [List.map_append, List.map_singleton, TextStore.written_append, List.find?_append, ih,
      TipAccess.lastSetting?_append, Option.map_or, ← TipAccess.write?_access]
    congr 1
    cases access.access.write? time with
    | none => rfl
    | some w =>
      rw [Option.toList_some, List.find?_singleton, Option.filter_some]

/-- What a journal reads for a place is the text of the tip set last, as long as that is valid. -/
theorem read_written (now : Nat) (place : Place) (accesses : List (Nat × TipAccess)) :
    (TextStore.written (accesses.map fun entry => (entry.1, entry.2.access))).read now place.key
      = ((TipAccess.lastSetting? place accesses).filter (·.isValid now)).map (·.tip.toCacheText) := by
  rw [PointCache.Journal.read, find?_written]
  cases TipAccess.lastSetting? place accesses with
  | none => rfl
  | some s =>
    rw [Option.filter_some, apply_ite (Option.map _)]
    rfl

/-! ## Tips in a store -/

/-- A tip is read from its own text. -/
theorem decodeCached_map_toCacheText (key : String) (tip : Option Tip) :
    decodeCached key (tip.map Tip.toCacheText) = .ok tip := by
  cases tip with
  | none => rfl
  | some tip => rw [Option.map_some, decodeCached, Tip.ofCacheText?_toCacheText]

namespace TextStore

variable {C : Type}

/-- Reads the tip of a place. -/
def getTip (S : TextStore C) (now : Nat) (place : Place) (c : C) : Except CacheError (Option Tip) × C :=
  let (text, c) := S.get now place.key c
  (decodeCached place.key text, c)

/-- The store after accesses to the tips in it. -/
def afterTips (S : TextStore C) (accesses : List (Nat × TipAccess)) (c : C) : C :=
  S.after (accesses.map fun entry => (entry.1, entry.2.access)) c

/-- What is read for a place is the tip that has been set last for it, as long as that is valid. -/
theorem BehavesAsMap.getTip {S : TextStore C} {c : C} (h : S.BehavesAsMap c)
    {accesses : List (Nat × TipAccess)} {now : Nat}
    (htimes : (accesses.map Prod.fst ++ [now]).Pairwise (· ≤ ·)) (place : Place) :
    (S.getTip now place (S.afterTips accesses c)).1
      = .ok (((TipAccess.lastSetting? place accesses).filter (·.isValid now)).map (·.tip)) := by
  have hread := h (accesses.map fun entry => (entry.1, entry.2.access)) now place.key
    (by rwa [List.map_map])
  show decodeCached place.key (S.get now place.key (S.after _ c)).1 = _
  rw [hread, read_written, ← decodeCached_map_toCacheText place.key, Option.map_map]
  rfl

end TextStore

/-! ## The point cache -/

namespace PointCache

/-- The point cache as a store of texts, for a clock that tells every time. -/
def store : TextStore PointCache :=
  ⟨get, fun now key text lifetime c => c.insert now key text (endOf now lifetime)⟩

/-- An access to a cache that follows a journal. -/
theorem Follows.perform {now : Nat} {c : PointCache} {journal : Journal String} (h : Follows now c journal)
    (access : TextStore.Access) :
    Follows now (store.perform now access c) ((access.write? now).toList ++ journal) := by
  cases access with
  | get key =>
    exact ⟨h.distinct.get now key, fun later hlater other =>
      (get_get_fst hlater c key other).trans (h.reads later hlater other)⟩
  | set key text lifetime => exact h.insert key text lifetime

/-- A new point cache behaves as a map. -/
theorem behavesAsMap_store : store.BehavesAsMap {} := by
  intro accesses now key htimes
  -- the cache follows the journal from the last access on, so the induction goes from the right
  suffices hfollows : Follows now (store.after accesses {}) (TextStore.written accesses) from
    hfollows.reads now (Nat.le_refl now) key
  induction accesses using List.reverseRecOn generalizing now with
  | nil => exact Follows.empty _ now
  | append_singleton accesses last ih =>
    obtain ⟨time, access⟩ := last
    rw [List.map_append, List.append_assoc] at htimes
    have hbefore : (accesses.map Prod.fst ++ [time]).Pairwise (· ≤ ·) :=
      htimes.sublist ((List.Sublist.refl _).append (List.sublist_append_left [time] [now]))
    have hle : time ≤ now := List.pairwise_pair.mp (List.pairwise_append.mp htimes).2.1
    rw [TextStore.written_append, TextStore.after, List.foldl_append]
    exact ((ih time hbefore).perform access).later hle

/-- The cache after an access to its tips. -/
def useTip (time : Nat) : TipAccess → PointCache → Except Overflow PointCache
  | .get (.height h), c => .ok (c.getTip time h).2
  | .get .cursor, c => .ok (c.getCursor time).2
  | .setTip tip lifetime, c => c.setTip time tip lifetime
  | .setCursor tip lifetime, c => c.setCursor time tip lifetime

/-- The cache after accesses to its tips, each at its time. -/
def useTips (accesses : List (Nat × TipAccess)) (c : PointCache) : Except Overflow PointCache :=
  accesses.foldlM (fun c entry => c.useTip entry.1 entry.2) c

theorem perform_of_useTip {time : Nat} {access : TipAccess} {c after : PointCache}
    (h : c.useTip time access = .ok after) : store.perform time access.access c = after := by
  -- a tip that has been set has been kept until the end of its lifetime
  have hset (key : String) (tip : Tip) (lifetime : Duration)
      (h : c.set time key tip.toCacheText (some lifetime) = .ok after) :
      c.insert time key tip.toCacheText (endOf time (some lifetime)) = after := by
    rw [set_some] at h
    split at h
    · exact Except.ok.inj h
    · cases h
  cases access with
  | get place => cases place <;> exact Except.ok.inj h
  | setTip tip lifetime => exact hset _ tip lifetime h
  | setCursor tip lifetime => exact hset _ tip lifetime h

theorem afterTips_of_useTips {accesses : List (Nat × TipAccess)} {c after : PointCache}
    (h : useTips accesses c = .ok after) : store.afterTips accesses c = after := by
  induction accesses generalizing c with
  | nil => exact Except.ok.inj h
  | cons first rest ih =>
    rw [useTips, List.foldlM_cons] at h
    cases hfirst : c.useTip first.1 first.2 with
    | error => rw [hfirst] at h; cases h
    | ok next =>
      rw [hfirst] at h
      show store.afterTips rest (store.perform first.1 first.2.access c) = after
      rw [perform_of_useTip hfirst]
      exact ih h

/-- What a point cache holds for a height and for the cursor after accesses to its tips that have all gone
through. -/
theorem getTip_useTips {accesses : List (Nat × TipAccess)} {c : PointCache}
    (h : useTips accesses {} = .ok c) {now : Nat}
    (htimes : (accesses.map Prod.fst ++ [now]).Pairwise (· ≤ ·)) :
    (∀ height, (c.getTip now height).1
        = .ok (((TipAccess.lastSetting? (.height height) accesses).filter (·.isValid now)).map (·.tip)))
      ∧ (c.getCursor now).1
        = .ok (((TipAccess.lastSetting? .cursor accesses).filter (·.isValid now)).map (·.tip)) := by
  rw [← afterTips_of_useTips h]
  exact ⟨fun height => behavesAsMap_store.getTip htimes (.height height),
    behavesAsMap_store.getTip htimes .cursor⟩

end PointCache

/-- A tip without a hash that is not the first of a chain is set, replaced for a shorter time, and the cursor is
set to another one. -/
def TipAccess.sample : List (Nat × TipAccess) := [
  (0, .setTip ⟨⟨7, BlockHash.zero⟩, 5⟩ ⟨100⟩), (1, .setCursor ⟨⟨9, BlockHash.zero⟩, 6⟩ ⟨50⟩),
  (2, .get .cursor), (10, .setTip ⟨⟨8, BlockHash.zero⟩, 5⟩ ⟨6⟩)]

end BlockFeed
