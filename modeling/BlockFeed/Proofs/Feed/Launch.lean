import BlockFeed.Feed

/-!
# What a started feed relies on

The parts of a feed rely on their settings: the fetcher on the heights that are never fetched, a call to the
node on one attempt at least, the walker and the fetcher on batches that can hold something, the selection of
heights on moduli to divide by, the queue to the consumer on room for a block, and each poller on a
period.

A configuration that meets its conditions supplies all of these but the last (`Feed.IsSupplied`). The
conditions (`Config.MeetsConditions`) say nothing about the intervals of the pollers, so a feed is
started whose poller cannot run. The main result is `supplied_by_validation`.
-/

namespace BlockFeed

namespace Config

variable {c : Config}

/-- What is asked of a configuration. -/
structure MeetsConditions (c : Config) : Prop where
  attempts : c.node.maxAttempts ≠ 0
  walkerBatch : c.walker.maxBatchSize ≠ 0
  fetchBatch : c.fetch.maxBatchSize ≠ 0
  moduli : ∀ source ∈ c.dataSources, source.blockModulo ≠ some 0
  bypass : ∃ ranges, BypassRanges.ofEntries c.bypassBlocks = .ok ranges

theorem validate_eq_ok_iff : c.validate = .ok () ↔ c.MeetsConditions := by
  rw [validate]
  split
  · rename_i hattempts
    exact ⟨nofun, fun h => absurd hattempts h.attempts⟩
  · rename_i hattempts
    split
    · rename_i hbatches
      simp only [Bool.or_eq_true, decide_eq_true_eq] at hbatches
      exact ⟨nofun, fun h => absurd hbatches (not_or.mpr ⟨h.walkerBatch, h.fetchBatch⟩)⟩
    · rename_i hbatches
      simp only [Bool.or_eq_true, decide_eq_true_eq, not_or] at hbatches
      split
      · rename_i source hfound
        have hzero : source.blockModulo = some 0 := by simpa using List.find?_some hfound
        exact ⟨nofun, fun h => absurd hzero (h.moduli source (List.mem_of_find?_eq_some hfound))⟩
      · rename_i hnone
        have hmoduli : ∀ source ∈ c.dataSources, source.blockModulo ≠ some 0 := by
          simpa using hnone
        split
        · rename_i ranges hranges
          exact ⟨fun _ => ⟨hattempts, hbatches.1, hbatches.2, hmoduli, ranges, hranges⟩, fun _ => rfl⟩
        · rename_i e hrefused
          refine ⟨nofun, fun h => ?_⟩
          obtain ⟨ranges, hranges⟩ := h.bypass
          cases hrefused.symm.trans hranges

/-- The heights that are never fetched are told by a configuration that meets its conditions. -/
theorem MeetsConditions.exists_bypassRanges_eq (h : c.MeetsConditions) :
    ∃ ranges, c.bypassRanges = .ok ranges := by
  obtain ⟨configured, hconfigured⟩ := h.bypass
  rw [bypassRanges, hconfigured]
  exact ⟨_, rfl⟩

end Config

/-- What the parts of a feed rely on and have, but for the periods of the pollers. -/
structure Feed.IsSupplied (feed : Feed) (c : Config) : Prop where
  bypass : c.bypassRanges = .ok feed.bypass
  /-- A call is attempted as often as configured, which is once at least. -/
  attempts : feed.node.retryPolicy.maxAttempts = c.node.maxAttempts.toNat ∧ 0 < c.node.maxAttempts.toNat
  walkerBatch : 0 < feed.walker.maxBatchSize
  fetchBatch : 0 < feed.fetch.settings.maxBatchSize
  /-- Every modulus is divided by, and none is dropped. -/
  moduli : ∀ source ∈ c.dataSources, source.modulus? = source.blockModulo ∧
    ∀ modulus, source.blockModulo = some modulus → 0 < modulus
  queue : 0 < (Outbox.new Feed.queueCapacity).capacity

namespace Feed

variable {c : Config} {feed : Feed}

/-- A feed has its settings from the configuration, and so have its pollers. -/
theorem ofConfig_cases (h : ofConfig c = .ok feed) :
    c.bypassRanges = .ok feed.bypass ∧ feed.node = c.node ∧ feed.walker = c.walker ∧
      feed.fetch.settings = c.fetch ∧ feed.best.period = c.pollers.bestInterval ∧
      feed.finalized.period = c.pollers.finalizedInterval := by
  cases hranges : c.bypassRanges with
  | error e =>
    rw [ofConfig, hranges] at h
    cases h
  | ok ranges =>
    rw [ofConfig, hranges] at h
    cases h
    exact ⟨rfl, rfl, rfl, rfl, rfl, rfl⟩

theorem isSupplied_of_meetsConditions (h : c.MeetsConditions) (hfeed : ofConfig c = .ok feed) :
    feed.IsSupplied c := by
  obtain ⟨hbypass, hnode, hwalk, hplan, -, -⟩ := ofConfig_cases hfeed
  have hpositive : 0 < c.node.maxAttempts.toNat := by
    rw [Nat.pos_iff_ne_zero]
    exact fun hzero => h.attempts (UInt32.toNat_inj.mp hzero)
  have hmodulus {source : DataSource} (hsource : source ∈ c.dataSources) {modulus : UInt64}
      (hm : source.blockModulo = some modulus) : 0 < modulus := by
    refine UInt64.pos_iff_ne_zero.mpr ?_
    rintro rfl
    exact h.moduli source hsource hm
  refine ⟨hbypass, ⟨?_, hpositive⟩, ?_, ?_, fun source hsource => ⟨?_, fun _ => hmodulus hsource⟩,
    by decide⟩
  · rw [hnode]
    exact Nat.sub_add_cancel hpositive
  · rw [hwalk]
    exact UInt64.pos_iff_ne_zero.mpr h.walkerBatch
  · rw [hplan]
    exact UInt64.pos_iff_ne_zero.mpr h.fetchBatch
  · rw [DataSource.modulus?]
    cases hm : source.blockModulo with
    | none => rfl
    | some modulus => exact if_pos (decide_eq_true (hmodulus hsource hm))

end Feed

/-- A poller can run exactly if its interval is not zero. -/
theorem Poller.isSound_iff {p : Poller} {intervalMs : UInt64} (h : p.period = .ofMillis intervalMs) :
    p.isSound = true ↔ intervalMs ≠ 0 := by
  have hzero : intervalMs.toNat = 0 ↔ intervalMs = 0 := by
    rw [← UInt64.toNat_inj]
    rfl
  rw [isSound, h, decide_eq_true_iff, Nat.pos_iff_ne_zero]
  exact not_congr hzero

/-! ## Starts from a command line -/

theorem exists_of_bind_eq_ok {ε α β : Type} {x : Except ε α} {f : α → Except ε β} {b : β}
    (h : x >>= f = .ok b) : ∃ a, x = .ok a ∧ f a = .ok b := by
  cases x with
  | error e => cases h
  | ok a => exact ⟨a, rfl, h⟩

/-- A configuration that has been put together from a command line meets its conditions. -/
theorem CommandLine.Arguments.validate_of_configure {a : CommandLine.Arguments}
    {fileText : String → Except ConfigError String} {c : Config} (h : a.configure fileText = .ok c) :
    c.validate = .ok () := by
  -- wherever it comes from, what is overridden is checked
  have hchecks {base : Config}
      (h : ((a.override base).validate >>= fun _ => pure (a.override base)) = .ok c) :
      c.validate = .ok () := by
    obtain ⟨⟨⟩, hvalid, hsame⟩ := exists_of_bind_eq_ok h
    cases hsame
    exact hvalid
  unfold configure at h
  dsimp only at h
  split at h
  · obtain ⟨text, -, hread⟩ := exists_of_bind_eq_ok h
    obtain ⟨base, -, hchecked⟩ := exists_of_bind_eq_ok hread
    exact hchecks hchecked
  · obtain ⟨base, -, hchecked⟩ := exists_of_bind_eq_ok h
    exact hchecks hchecked

/-- A feed that has been started with a command line is that of a configuration that meets its conditions. -/
theorem Launch.validate_of_started {fileText : String → Except ConfigError String} {arguments : List String}
    {c : Config} {feed : Feed} (h : Launch.ofArguments fileText arguments = .started c feed) :
    c.validate = .ok () ∧ Launch.ofConfig c = .started c feed := by
  rw [ofArguments] at h
  split at h
  · cases h
  · cases h
  · split at h
    · cases h
    · rename_i config hconfigured
      -- a feed is started with its own configuration
      have hsame : config = c := by
        rw [ofConfig] at h
        split at h
        · cases h
          rfl
        · cases h
      subst hsame
      exact ⟨CommandLine.Arguments.validate_of_configure hconfigured, h⟩

/-- A configuration that meets its conditions starts a feed, and the parts of the feed have what they rely on.
A poller can run exactly if its interval is not zero. A feed that is started from a command line is the feed
of a configuration that meets its conditions. -/
theorem supplied_by_validation (c : Config) :
    (c.validate = .ok () → ∃ feed, Launch.ofConfig c = .started c feed ∧ feed.IsSupplied c ∧
      (feed.best.isSound = true ↔ c.pollers.bestIntervalMs ≠ 0) ∧
      (feed.finalized.isSound = true ↔ c.pollers.finalizedIntervalMs ≠ 0)) ∧
    ∀ fileText arguments feed, Launch.ofArguments fileText arguments = .started c feed →
      c.validate = .ok () ∧ Launch.ofConfig c = .started c feed := by
  refine ⟨fun h => ?_, fun fileText arguments feed h => Launch.validate_of_started h⟩
  have hmeets := Config.validate_eq_ok_iff.mp h
  obtain ⟨ranges, hranges⟩ := hmeets.exists_bypassRanges_eq
  obtain ⟨feed, hfeed⟩ : ∃ feed, Feed.ofConfig c = .ok feed := by
    rw [Feed.ofConfig, hranges]
    exact ⟨_, rfl⟩
  have hstarted : Launch.ofConfig c = .started c feed := by
    rw [Launch.ofConfig, hfeed]
  obtain ⟨-, -, -, -, hbest, hfinalized⟩ := Feed.ofConfig_cases hfeed
  exact ⟨feed, hstarted, Feed.isSupplied_of_meetsConditions hmeets hfeed, Poller.isSound_iff hbest,
    Poller.isSound_iff hfinalized⟩

/-- A feed with a modulus, a range of heights that are never fetched and one attempt for each call; its second
poller has no interval. Another feed is started without a file. -/
theorem supplied_by_validation_sample :
    let c : Config :=
      { node := { maxAttempts := 1 }
        pollers := { bestIntervalMs := 1, finalizedIntervalMs := 0 }
        dataSources := [{ blockModulo := some 5 }]
        bypassBlocks := [.text "3-7"] }
    (c.validate = .ok () ∧ ∃ feed, Launch.ofConfig c = .started c feed ∧ feed.IsSupplied c ∧
      feed.best.isSound = true ∧ feed.finalized.isSound = false) ∧
    ∃ c feed, Launch.ofArguments (fun _ => .error .malformed) ["--start-height", "5"] = .started c feed ∧
      c.validate = .ok () ∧ Launch.ofConfig c = .started c feed := by
  intro c
  have hvalid : c.validate = .ok () := rfl
  obtain ⟨feed, hstarted, hsupplied, hbest, hfinalized⟩ := (supplied_by_validation c).1 hvalid
  refine ⟨⟨hvalid, feed, hstarted, hsupplied, hbest.mpr (by decide), ?_⟩, ?_⟩
  · rw [← Bool.not_eq_true, hfinalized]
    exact not_not_intro rfl
  · have hgiven : Launch.ofArguments (fun _ => .error .malformed) ["--start-height", "5"]
        = .started { fetch := { initialHeight := 5 } } _ := rfl
    exact ⟨_, _, hgiven, (supplied_by_validation _).2 _ _ _ hgiven⟩

/-- A configuration without an interval meets its conditions, and starts a feed whose poller cannot run. -/
theorem starts_without_period :
    let c : Config := { pollers := { bestIntervalMs := 0 } }
    c.validate = .ok () ∧ ∃ feed, Launch.ofConfig c = .started c feed ∧ feed.best.isSound = false :=
  ⟨rfl, _, rfl, rfl⟩

end BlockFeed
