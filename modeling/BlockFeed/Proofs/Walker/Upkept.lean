import BlockFeed.Proofs.Walker.Upkeep

/-!
# The upkeep of the cache along a course

While nothing in the cache expires, what a walker is told is as its contract has it
(`mayTell_of_answers`), and the cache shows what has been written (`Shelf.Serves.shows`). So what has been
written is in order in every state that a walker can reach (`Upkept.of_reachable`), also where a call has
been given up in its middle.
-/

namespace BlockFeed.Walker

open Surroundings (Query)

/-- The rules under which a walker goes on are those under which the terms hold. -/
structure Terms.Suits (terms : Terms) (rules : Rules) : Prop where
  lasts : ∀ cache now, rules.admits cache now → cache.Lasts now
  calls : terms.steady → ∀ memory owed call, rules.calls memory owed call → call.IsDue owed
  points : ∀ asker limit next,
    terms.fits asker.cursor →
    (terms.steady → limit ≠ 0 ∧ asker.cursor.number.toNat < terms.last) →
    rules.tells asker (.pointsAfter asker.cursor.point limit) (.ok next) →
    terms.Follows asker.cursor next
  best : ∀ asker best, terms.steady → rules.tells asker .bestHeight best →
    (Word.satSub best terms.settings.confirmationDepth).toNat ≤ terms.last

/-- The cache shows what has been written, and this is in order. -/
structure Upkept (terms : Terms) (s : Course) : Prop where
  shows : s.shared.cache.Shows s.written
  phase : match s.phase with
    | .resting memory => terms.Rests s.written memory s.owed
    | .working call began run => run.Keeps (upkeep terms call began)
        (fun written memory failure => terms.Tended call began written memory ∧
          terms.Rests written memory failure) s.written

variable {rules : Rules} {terms : Terms} {call : Call} {began memory : Walker}
  {written : List (String × String)} {shelf shelf' : Shelf} {query : Query} {answer : query.Answer}
  {s s' : Course}

/-- While nothing expires, a key is answered with what has been written there last. -/
theorem reply_readCache {shared : FeedState} {now : Nat} (hshows : shared.cache.Shows written)
    (hlasts : shared.cache.Lasts now) (key : String) :
    shared.reply now (.readCache key) = (.answered (.ok (written.lookup key)), shared) := by
  have hget := hshows.get hlasts key
  show (@FeedState.Reply.answered (.readCache key) (Except.ok (shared.cache.get now key).1),
    { shared with cache := (shared.cache.get now key).2 }) = _
  rw [hget]

/-- While nothing expires, the cache shows what has been written once a question is served. -/
theorem Shelf.Serves.shows (h : shelf.Serves rules query answer shelf')
    (hlasts : ∀ cache now, rules.admits cache now → cache.Lasts now)
    (hshows : shelf.shared.cache.Shows shelf.written) :
    shelf'.shared.cache.Shows shelf'.written := by
  obtain ⟨now, htime, h⟩ := h
  have hnow := hlasts _ _ htime
  cases query with
  | readCache key =>
    rw [reply_readCache hshows hnow key] at h
    cases h
    exact hshows
  | writeCache key text lifetime =>
    obtain ⟨rfl, rfl⟩ | ⟨rfl, rfl⟩ := FeedState.of_reply_writeCache h
    · exact hshows.insert hnow key text _
    · exact hshows
  | send block =>
    have hsend : shelf.shared.send block = (.answered answer, _) := h
    unfold FeedState.send at hsend
    split at hsend
    · cases hsend; exact hshows
    · split at hsend
      · cases hsend
      · cases hsend; exact hshows
  | tipHeader | fetchBlock | pointsAfter | findIntersect | hints => cases h
  | _ => cases h; exact hshows

/-- What a walker is told is as its contract has it. -/
theorem mayTell_of_answers (hsuits : terms.Suits rules)
    (h : shelf.Answers rules memory query answer shelf')
    (hallows : (upkeep terms call began).allows shelf.written memory query)
    (hshows : shelf.shared.cache.Shows shelf.written) :
    terms.MayTell began shelf.written query answer shelf'.written := by
  cases h with
  | served hserves htold =>
    obtain ⟨now, htime, h⟩ := hserves
    cases query with
    | readCache key =>
      rw [reply_readCache hshows (hsuits.lasts _ _ htime) key] at h
      cases h
      exact ⟨rfl, fun text htext => (Except.ok.inj htext).symm⟩
    | writeCache =>
      obtain ⟨rfl, -⟩ | ⟨rfl, -⟩ := FeedState.of_reply_writeCache h
      · exact .inl ⟨rfl, nofun⟩
      · exact .inr ⟨rfl, nofun⟩
    | bestHeight => exact ⟨rfl, fun hsteady => hsuits.best _ _ hsteady htold⟩
    | tipHeader | fetchBlock | pointsAfter | findIntersect | hints => cases h
    | _ => rfl
  | elsewhere helsewhere htold =>
    cases query with
    | pointsAfter start limit =>
      obtain ⟨htended, hbegan, rfl, hsteady⟩ := hallows
      refine ⟨rfl, fun next hnext => ?_⟩
      subst hnext
      rw [← hbegan]
      exact hsuits.points _ _ _ htended.placed.fits (fun h => (hsteady h).2) htold
    | tipHeader | fetchBlock | findIntersect | hints => rfl
    | _ => cases helsewhere
  | unreadable => exact ⟨rfl, nofun⟩
  | unwritable _ _ _ _ hleaves =>
    rcases hleaves.written with hsame | ⟨_, _, _, hquery, hlogged⟩
    · exact .inr ⟨hsame, nofun⟩
    · cases hquery
      exact .inl ⟨hlogged, nofun⟩

/-- Where a walker is given up, what has been written is in order. -/
theorem tended_of_leaves (h : shelf.Leaves rules query shelf')
    (hallows : (upkeep terms call began).allows shelf.written memory query) :
    terms.Tended call began shelf'.written memory := by
  obtain ⟨htended, hmay⟩ := hallows
  rcases h.written with hsame | ⟨key, text, lifetime, rfl, hlogged⟩
  · rw [hsame]
    exact htended
  · rw [hlogged]
    exact htended.served hmay

theorem Shelf.Leaves.shows (h : shelf.Leaves rules query shelf')
    (hlasts : ∀ cache now, rules.admits cache now → cache.Lasts now)
    (hshows : shelf.shared.cache.Shows shelf.written) :
    shelf'.shared.cache.Shows shelf'.written := by
  cases h with
  | untouched => exact hshows
  | served h => exact h.shows hlasts hshows

theorem Upkept.start {shared : FeedState} (hcache : shared.cache.entries = []) :
    Upkept terms { shared, phase := .resting (Walker.new terms.settings) } where
  shows := by
    intro key
    show (shared.cache.entries.lookup key).map _ = none
    rw [hcache]
    rfl
  phase := by
    refine ⟨⟨nofun, fun _ => .nil, terms.placed_checkpoint [], fun _ => rfl⟩, fun _ _ => ?_, nofun⟩
    rintro (hstage | hstage) <;> cases hstage

theorem Upkept.step (h : Upkept terms s) (hsuits : terms.Suits rules)
    (hstep : Course.Step rules terms.settings s s') : Upkept terms s' := by
  have hphase := h.phase
  cases hstep with
  | call call hrest hcall =>
    rw [hrest] at hphase
    exact ⟨h.shows, keeps_work hphase fun hsteady => hsuits.calls hsteady _ _ _ hcall⟩
  | answer hwait hanswer =>
    rw [hwait] at hphase
    exact ⟨hanswer.leaves.shows hsuits.lasts h.shows,
      hphase.answer (mayTell_of_answers hsuits hanswer hphase.allows h.shows)⟩
  | finish hdone =>
    rw [hdone] at hphase
    exact ⟨h.shows, hphase.2⟩
  | abandon hwait hleaves =>
    rw [hwait] at hphase
    refine ⟨hleaves.shows hsuits.lasts h.shows, (tended_of_leaves hleaves hphase.allows).toInOrder,
      fun _ => nofun, fun _ error herror => ?_⟩
    cases herror
    rfl
  | drift hcache => exact ⟨by rw [hcache]; exact h.shows, hphase⟩

/-- What has been written is in order in every state that a walker can reach. -/
theorem Upkept.of_reachable (hsuits : terms.Suits rules)
    (h : Course.Reachable rules terms.settings s) : Upkept terms s := by
  induction h with
  | start hcache => exact .start hcache
  | step _ hstep ih => exact ih.step hsuits hstep

/-- At any moment the walker remembers what is in order. -/
theorem Upkept.inOrder (h : Upkept terms s) : terms.InOrder s.written s.memory := by
  have hphase := h.phase
  unfold Course.memory
  cases hs : s.phase with
  | resting memory =>
    rw [hs] at hphase
    exact hphase.toInOrder
  | working call began run =>
    rw [hs] at hphase
    cases run with
    | done memory failure => exact hphase.1.toInOrder
    | wait memory query resume => exact hphase.allows.1.toInOrder

/-- A recovery has not raised the cursor. -/
theorem Upkept.lowered (h : Upkept terms s) {error : WalkerError} {began : Walker}
    {run : Run Surroundings Walker (Option WalkerError)}
    (hphase : s.phase = .working (.recover error) began run) :
    s.memory.cursor.number ≤ began.cursor.number := by
  have hkept := h.phase
  unfold Course.memory
  rw [hphase] at hkept ⊢
  rw [UInt64.le_iff_toNat_le]
  cases run with
  | done memory failure => exact hkept.1.lowered rfl
  | wait memory query resume => exact hkept.allows.1.lowered rfl

/-- The cache has an entry wherever a tip has been published. -/
theorem Upkept.isSome_lookup (h : Upkept terms s) {height : UInt64} (hcached : Cached s.written height) :
    (s.shared.cache.entries.lookup (heightKey height)).isSome = true := by
  have hshows := h.shows (heightKey height)
  cases hlookup : s.shared.cache.entries.lookup (heightKey height) with
  | some entry => rfl
  | none =>
    rw [hlookup] at hshows
    exact absurd hcached (h.inOrder.not_cached hshows.symm)

end BlockFeed.Walker
