import BlockFeed.Proofs.Fetcher.Preparation

/-!
# Iterations

A batch is handed on block by block, and the height moves once all of it has been
(`keeps_enqueue`). The queue admits every batch that has been prepared (`checkBatch_of_batch`). So an
iteration that begins with a ledger at rest ends with one, and keeps what has been handed on in order
all the time (`iterate_finishes`).
-/

namespace BlockFeed

namespace Outbox

/-- Blocks that ascend above a height and up to another are in order. -/
theorem checkOrder_of_ascending {height : UInt64} {blocks : List Block} {last : Option UInt64}
    (hascending : (blocks.map Block.height).Pairwise (· < ·))
    (habove : ∀ block ∈ blocks, ∀ h, last = some h → h < block.height)
    (hbelow : ∀ block ∈ blocks, block.height ≤ height) : checkOrder height last blocks = .ok () := by
  induction blocks generalizing last with
  | nil => rfl
  | cons block rest ih =>
    obtain ⟨hfirst, hrest⟩ := List.pairwise_cons.mp hascending
    have hlast : last.any (block.height ≤ ·) = false := by
      cases last with
      | none => rfl
      | some h =>
        have := habove block List.mem_cons_self h rfl
        simpa using this
    have hheight : ¬ height < block.height := UInt64.not_lt.mpr (hbelow block List.mem_cons_self)
    rw [checkOrder, if_neg (by simp [hlast, hheight])]
    refine ih hrest (fun other hother h hh => ?_)
      fun other hother => hbelow other (List.mem_cons_of_mem _ hother)
    cases hh
    exact hfirst other.height (List.mem_map_of_mem hother)

end Outbox

namespace Fetcher

open Surroundings (Event)

variable {α β : Type} {plan : Plan} {bypass memory : BypassRanges} {L L' L'' : Ledger}
  {blocks sent rest : List Block} {height : UInt64} {window : Window} {latest : UInt64}

/-! ## Handing on -/

/-- A batch that has been prepared is admitted. -/
theorem checkBatch_of_batch (hbatch : Batch plan bypass L blocks height) :
    Outbox.checkBatch L.buffered blocks height = .ok () := by
  have hbelow : ∀ block ∈ blocks, block.height ≤ height :=
    fun block hblock => (hbatch.within block hblock).2
  have hadvances := hbatch.advances
  cases hbuffered : L.buffered with
  | none => exact Outbox.checkOrder_of_ascending hbatch.ascending (fun _ _ _ h => nomatch h) hbelow
  | some previous =>
    have hnext : L.next plan = previous.toNat + 1 := by rw [Ledger.next, hbuffered]
    have hmoves : ¬ height ≤ previous := by
      rw [UInt64.le_iff_toNat_le]
      omega
    rw [Outbox.checkBatch, if_neg hmoves]
    refine Outbox.checkOrder_of_ascending hbatch.ascending (fun block hblock h hh => ?_) hbelow
    cases hh
    have := (hbatch.within block hblock).1
    rw [UInt64.lt_iff_toNat_lt]
    omega

/-- Of a batch some blocks have been handed on. -/
structure Sending (L : Ledger) (sent : List Block) (L' : Ledger) : Prop where
  delivered : L'.delivered = L.delivered ++ sent
  buffered : L'.buffered = L.buffered
  past : L'.past = L.past
  events : L.events ⊆ L'.events

theorem Sending.start (h : L.Grows L') : Sending L [] L' :=
  ⟨h.delivered.trans (List.append_nil _).symm, h.buffered, h.past, h.events⟩

theorem Sending.extends (h : Sending L sent L') : L.Extends L' := by
  refine ⟨?_, fun _ hmem => Ledger.exists_iteration_of_subset h.past h.events hmem⟩
  rw [h.delivered]
  exact List.subset_append_left _ _

/-- Another block is handed on. -/
theorem Sending.send (h : Sending L sent L') (block : Block) (answer : Bool) :
    Sending L (sent ++ [block]) (L'.after (.send block) answer) where
  delivered := by
    show L'.delivered ++ [block] = _
    rw [h.delivered, List.append_assoc]
  buffered := h.buffered
  past := h.past
  events := List.Subset.trans h.events (List.subset_cons_self _ _)

theorem Sending.mem_delivered (h : Sending L sent L') {block : Block} :
    block ∈ L'.delivered ↔ block ∈ L.delivered ∨ block ∈ sent := by
  rw [h.delivered, List.mem_append]

/-- Below a batch the ledger at rest accounts for a height, within it the batch does, unless the block of
the height is yet to be handed on. -/
theorem Sending.accounted (h : Sending L sent L') {rest : List Block}
    (hrests : L.Rests plan bypass memory) (hbatch : Batch plan bypass L (sent ++ rest) height)
    {other : UInt64} (hlow : plan.settings.initialHeight ≤ other) (hle : other ≤ height)
    (hlater : other ∉ rest.map Block.height) : L'.Accounted plan bypass other := by
  by_cases hsettled : other.toNat < L.next plan
  · exact (hrests.accounted other hlow hsettled).extends h.extends
  · rcases hbatch.complete other (by omega) hle with hbypassed | hfetched | hpassed
    · exact .inl hbypassed
    · rw [List.map_append, List.mem_append, or_iff_left hlater] at hfetched
      right; left
      rw [h.delivered, List.map_append]
      exact List.mem_append_right _ hfetched
    · exact .inr (.inr ⟨L'.events, List.mem_cons_self, hpassed.mono h.events⟩)

/-- The blocks of a batch that have been handed on keep everything in order. -/
theorem Sending.orderly (h : Sending L sent L') (rest : List Block) (hrests : L.Rests plan bypass memory)
    (hbatch : Batch plan bypass L (sent ++ rest) height) : L'.Orderly plan bypass := by
  have hbatchAscending := hbatch.ascending
  rw [List.map_append, List.pairwise_append] at hbatchAscending
  obtain ⟨hsent, -, hrest⟩ := hbatchAscending
  refine ⟨?_, fun block hblock => ?_, fun block hblock => ?_, fun block hblock other hlow hlt => ?_,
    fun other hlow hlt => ?_⟩
  · rw [h.delivered, List.map_append, List.pairwise_append]
    refine ⟨hrests.ascending, hsent, fun a ha b hb => ?_⟩
    obtain ⟨old, hold, rfl⟩ := List.mem_map.mp ha
    obtain ⟨new, hnew, rfl⟩ := List.mem_map.mp hb
    have hbefore := hrests.settled old hold
    have hafter := (hbatch.within new (List.mem_append_left _ hnew)).1
    rw [UInt64.lt_iff_toNat_lt]
    omega
  · rcases h.mem_delivered.mp hblock with hblock | hblock
    · exact hrests.wanted block hblock
    · exact hbatch.wanted block (List.mem_append_left _ hblock)
  · rcases h.mem_delivered.mp hblock with hblock | hblock
    · exact h.extends.supplied (hrests.supplied block hblock)
    · exact ⟨L'.events, List.mem_cons_self,
        (hbatch.supplied block (List.mem_append_left _ hblock)).mono h.events⟩
  · rcases h.mem_delivered.mp hblock with hblock | hblock
    · exact (hrests.gapless block hblock other hlow hlt).extends h.extends
    · have hbound := (hbatch.within block (List.mem_append_left _ hblock)).2
      refine h.accounted hrests hbatch hlow (UInt64.le_trans (UInt64.le_of_lt hlt) hbound) ?_
      -- what is yet to be handed on lies above this block
      intro hlater
      have := hrest block.height (List.mem_map_of_mem hblock) other hlater
      exact absurd hlt (UInt64.lt_asymm this)
  · rw [Ledger.next, h.buffered] at hlt
    exact (hrests.accounted other hlow hlt).extends h.extends

/-- Once all of a batch has been handed on, its height settles everything up to it. -/
theorem Sending.commit (h : Sending L blocks L') (hrests : L.Rests plan bypass memory)
    (hbatch : Batch plan bypass L blocks height) (answer : Unit) :
    (L'.after (.commit height) answer).Rests plan bypass memory := by
  have hall : Batch plan bypass L (blocks ++ []) height := by rwa [List.append_nil]
  have hextends := L'.extends_after (.commit height) answer
  have hadvances := hbatch.advances
  have hstarted := hrests.started
  have hnext : (L'.after (.commit height) answer).next plan = height.toNat + 1 := rfl
  have horderly := h.orderly [] hrests hall
  refine ⟨⟨horderly.ascending, horderly.wanted, fun block hblock => ?_,
    fun block hblock other hlow hlt => ?_, fun other hlow hlt => ?_⟩, ?_, fun block hblock => ?_,
    fun other hhigh => ?_⟩
  · exact hextends.supplied (horderly.supplied block hblock)
  · exact (horderly.gapless block hblock other hlow hlt).extends hextends
  · rw [hnext] at hlt
    have hle : other ≤ height := UInt64.le_iff_toNat_le.mpr (Nat.le_of_lt_succ hlt)
    exact (h.accounted hrests hall hlow hle List.not_mem_nil).extends hextends
  · rw [hnext]
    omega
  · rw [hnext]
    rcases h.mem_delivered.mp hblock with hblock | hblock
    · have := hrests.settled block hblock
      omega
    · have := UInt64.le_iff_toNat_le.mp (hbatch.within block hblock).2
      omega
  · rw [hnext] at hhigh
    exact hrests.remembered other (by omega)

/-- Every block of a batch is handed on. -/
theorem keeps_sendAll (sent : List Block) (hrests : L.Rests plan bypass memory)
    (hbatch : Batch plan bypass L (sent ++ rest) height) (hsending : Sending L sent L') :
    (sendAll rest).Keeps (contract plan bypass)
      (fun L'' memory' _ => memory' = memory ∧ Sending L (sent ++ rest) L'')
      (fun _ _ _ => False) L' memory := by
  induction rest generalizing sent L' with
  | nil =>
    refine Routine.keeps_pure.mpr ⟨rfl, ?_⟩
    rwa [List.append_nil]
  | cons block rest ih =>
    refine Routine.keeps_bind.mpr (Routine.keeps_ask.mpr ⟨hsending.orderly _ hrests hbatch, ?_⟩)
    rintro answer _ ⟨hpermits, rfl⟩
    obtain rfl : answer = true := hpermits
    rw [List.append_cons] at hbatch ⊢
    exact ih _ hbatch (hsending.send block true)

/-- A batch is handed on, and nothing else changes. -/
theorem keeps_enqueue (hrests : L.Rests plan bypass memory)
    (hbatch : Batch plan bypass L blocks height) :
    (enqueue blocks height).Keeps (contract plan bypass)
      (fun L' memory' _ => memory' = memory ∧ L'.Rests plan bypass memory ∧
        L'.next plan = height.toNat + 1)
      (fun _ _ _ => False) L memory := by
  refine Routine.keeps_bind.mpr (Routine.keeps_ask.mpr ⟨hrests, ?_⟩)
  rintro previous L₁ ⟨hpermits, rfl⟩
  obtain rfl : previous = L.buffered := hpermits
  rw [checkBatch_of_batch hbatch]
  refine Routine.keeps_bind.mpr (Routine.keeps_ofExcept.mpr ?_)
  have hsending : Sending L [] (L.after .buffered L.buffered) :=
    .start ⟨rfl, rfl, rfl, List.subset_cons_self _ _⟩
  refine Routine.keeps_bind.mpr (Routine.Keeps.mono (keeps_sendAll [] hrests hbatch hsending) ?_
    fun _ _ _ hfalse => hfalse)
  rintro L₂ _ _ ⟨rfl, hsending⟩
  refine Routine.keeps_ask.mpr ⟨hsending.orderly [] hrests (by simpa using hbatch), ?_⟩
  rintro answer _ ⟨-, rfl⟩
  -- the ledger rests again from here on
  exact ⟨rfl, hsending.commit hrests hbatch answer, rfl⟩

/-! ## A whole iteration -/

/-- Work that ends with a ledger at rest, and never by a refusal of the queue. -/
def Finishes (plan : Plan) (bypass : BypassRanges) (L : Ledger) (memory : BypassRanges)
    (task : Task α) : Prop :=
  task.Keeps (contract plan bypass) (fun L' memory' _ => L'.Rests plan bypass memory')
    (fun L' memory' cause => L'.Rests plan bypass memory' ∧ ¬ IsRefusal cause) L memory

/-- Work that only asks may come first. -/
theorem Prepares.finishes {fact : Ledger → β → Prop} {task : Task β} {f : β → Task α}
    (h : Prepares plan bypass L memory task fact) (hrests : L.Rests plan bypass memory)
    (hf : ∀ L' value, L.Grows L' → L'.Rests plan bypass memory → fact L' value →
      Finishes plan bypass L' memory (f value)) :
    Finishes plan bypass L memory (task >>= f) := by
  refine Routine.keeps_bind.mpr (Routine.Keeps.mono h ?_ ?_)
  · rintro L' _ value ⟨hgrows, rfl, hfact⟩
    exact hf L' value hgrows (hrests.grows hgrows) hfact
  · rintro L' _ cause ⟨hgrows, rfl, hcause⟩
    exact ⟨hrests.grows hgrows, hcause⟩

theorem finishes_pure {value : α} (hrests : L.Rests plan bypass memory) :
    Finishes plan bypass L memory (Pure.pure value) :=
  Routine.keeps_pure.mpr hrests

/-- What has been settled may be forgotten. -/
theorem rests_consumeThrough (hrests : L.Rests plan bypass memory)
    (hnext : L.next plan = height.toNat + 1) :
    L.Rests plan bypass (memory.consumeThrough height) := by
  refine { hrests with remembered := fun other hhigh => ?_ }
  rw [BypassRanges.contains_consumeThrough ?_, hrests.remembered other hhigh]
  rw [UInt64.lt_iff_toNat_lt]
  omega

theorem prepares_nextHeight (hrests : L.Rests plan bypass memory) :
    Prepares plan bypass L memory (nextHeight plan)
      fun L' start => start.toNat = L'.next plan := by
  refine (Prepares.ask .buffered hrests fun _ => rfl).bind ?_
  rintro L₁ buffered hgrows ⟨hpermits, -⟩
  obtain rfl : buffered = L.buffered := hpermits
  rw [← hgrows.buffered]
  cases hbuffered : L₁.buffered with
  | none =>
    refine .pure ?_
    rw [Ledger.next, hbuffered]
  | some height =>
    refine prepares_checked fun start hstart => ?_
    rw [Ledger.next, hbuffered, Word.add_eq_ok_iff.mp hstart]
    rfl

theorem prepares_latestHeight (hrests : L.Rests plan bypass memory) :
    Prepares plan bypass L memory (Work.latestHeight plan.settings.useFinalized)
      fun L' latest => latestRead plan.settings.useFinalized latest ∈ L'.events := by
  unfold Work.latestHeight latestRead
  cases plan.settings.useFinalized with
  | true =>
    exact (Prepares.ask .finalizedHeight hrests fun _ => rfl).mono
      fun _ _ _ ⟨_, hread⟩ => hread
  | false =>
    exact (Prepares.ask .bestHeight hrests fun _ => rfl).mono
      fun _ _ _ ⟨_, hread⟩ => hread

/-- What is left to do once a batch has been handed on. -/
theorem finishes_notes (hrests : L.Rests plan bypass memory) (fetched : Nat) (started : Nat) :
    Finishes plan bypass L memory (do
      Work.note (.blocksFetched (UInt64.ofNat fetched))
      Work.note (.bufferedHeight height)
      let ended ← Routine.ask (I := Surroundings) .now
      Work.note (.batchFetchTime (secondsBetween started ended))
      return Outcome.dispatched window fetched height) := by
  refine (prepares_note hrests _).finishes hrests fun L₁ _ _ hrests _ => ?_
  refine (prepares_note hrests _).finishes hrests fun L₂ _ _ hrests _ => ?_
  refine (Prepares.ask .now hrests fun _ => rfl).finishes hrests fun L₃ _ _ hrests _ => ?_
  exact (prepares_note hrests _).finishes hrests fun L₄ _ _ hrests _ => finishes_pure hrests

theorem finishes_dispatch (hrests : L.Rests plan bypass memory)
    (hstart : window.start.toNat = L.next plan) (hsize : 0 < window.size.toNat)
    (hread : latestRead plan.settings.useFinalized latest ∈ L.events) :
    Finishes plan bypass L memory (dispatch plan window latest) := by
  refine (prepares_windowTips hrests).finishes hrests ?_
  rintro L₁ tips hgrows₁ hrests₁ ⟨last, hlast, htips, hcached⟩
  refine (Prepares.ask .now hrests₁ fun _ => rfl).finishes hrests₁ ?_
  rintro L₂ started hgrows₂ hrests₂ -
  refine (prepares_consultHints hrests₂ (hgrows₂.events (hgrows₁.events hread)) hsize).finishes
    hrests₂ fun L₃ found hgrows₃ hrests₃ hselects => ?_
  have hgrows := hgrows₂.trans hgrows₃
  have hstart₃ : window.start.toNat = L₃.next plan :=
    hstart.trans (hgrows₁.trans hgrows).next.symm
  refine (prepares_fetchPlanned hrests₃ hstart₃ hlast htips
    (fun tip htip => (hcached tip htip).grows hgrows) hselects).finishes hrests₃ ?_
  rintro L₄ ⟨blocks, height⟩ hgrows₄ hrests₄ hbatch
  refine Routine.keeps_bind.mpr (Routine.Keeps.mono (keeps_enqueue hrests₄ hbatch) ?_
    fun _ _ _ hfalse => hfalse.elim)
  rintro L₅ _ _ ⟨rfl, hrests₅, hnext⟩
  exact finishes_notes (rests_consumeThrough hrests₅ hnext) blocks.length started

/-- A whole iteration. -/
theorem iterate_finishes (hrests : L.Rests plan bypass memory) :
    Finishes plan bypass L memory (iterate plan) := by
  refine (prepares_nextHeight hrests).finishes hrests fun L₁ start hgrows₁ hrests₁ hstart => ?_
  refine (Prepares.ask .freeSlots hrests₁ fun _ => rfl).finishes hrests₁
    fun L₂ free hgrows₂ hrests₂ _ => ?_
  rw [← hgrows₂.next] at hstart
  show Finishes plan bypass L₂ memory (if min (UInt64.ofNat free) plan.settings.maxBatchSize = 0
    then _ else _)
  split
  · exact finishes_pure hrests₂
  · rename_i hcapacity
    refine (prepares_latestHeight hrests₂).finishes hrests₂
      fun L₃ latest hgrows₃ hrests₃ hread => ?_
    rw [← hgrows₃.next] at hstart
    -- the window is cut off at the latest height, and nothing is left of it above that
    cases hclamp : (⟨start, min (UInt64.ofNat free) plan.settings.maxBatchSize⟩ : Window).clamp latest
      with
    | error _ => exact Routine.keeps_fail.mpr ⟨hrests₃, id⟩
    | ok clamped =>
      cases clamped with
      | none => exact finishes_pure hrests₃
      | some window =>
        obtain ⟨rfl, hsize, hle⟩ := Window.clamp_eq_some hclamp
        refine finishes_dispatch hrests₃ hstart ?_ hread
        rw [← UInt64.toNat_inj, UInt64.toNat_zero] at hcapacity
        rw [UInt64.le_iff_toNat_le] at hle
        dsimp only at hsize hle
        omega

end Fetcher

end BlockFeed
