import BlockFeed.Poller
import BlockFeed.Proofs.Contract
import BlockFeed.Proofs.Feed.Accordance
import BlockFeed.Proofs.Window

/-!
# The conduct of pollers and walker

Pollers and walker tell others what they have learnt of the node. `History.contract` asks of them that
they publish nothing but what is so, and that their memory is fit whenever they wait, so that they may be
given up at that moment. The world of the contract is the time at which they have gone on last.

`History.Stays` is said of work that keeps this contract from any fit memory on, and leaves a fit memory
behind whether it succeeds or fails.
-/

namespace BlockFeed.History

variable {σ ε α β : Type} {node : History} {fit : Nat → σ → Prop} {now : Nat}

/-- What is asked of those who publish. -/
def contract (node : History) (fit : Nat → σ → Prop) : Contract Surroundings σ Nat where
  allows since memory query :=
    fit since memory ∧ node.Publishes since query ∧ query.isDelivery = false
  answers since query answer now := since ≤ now ∧ node.Informs since now query answer

/-- Work that keeps the contract from a time on and leaves a fit memory; a fact holds of its value. -/
def Stays (node : History) (fit : Nat → σ → Prop) (now : Nat) (work : Work σ ε α)
    (fact : Nat → α → Prop) : Prop :=
  ∀ memory, fit now memory → work.Keeps (node.contract fit)
    (fun now' memory' value => now ≤ now' ∧ fit now' memory' ∧ fact now' value)
    (fun now' memory' _ => now ≤ now' ∧ fit now' memory') now memory

/-- What is fit stays so. -/
def Lasts (fit : Nat → σ → Prop) : Prop :=
  ∀ now now' memory, now ≤ now' → fit now memory → fit now' memory

/-- A memory of which nothing is asked is always fit. -/
theorem lasts_true : Lasts fun _ (_ : σ) => True := fun _ _ _ _ hfit => hfit

section
variable {fact : Nat → α → Prop} {fact' : Nat → β → Prop} {work : Work σ ε α}

theorem Stays.bind {f : α → Work σ ε β} (h : node.Stays fit now work fact)
    (hf : ∀ now' value, now ≤ now' → fact now' value → node.Stays fit now' (f value) fact') :
    node.Stays fit now (work >>= f) fact' := by
  intro memory hfit
  apply Routine.keeps_bind.mpr
  apply (h memory hfit).mono
  · rintro now₁ memory₁ value ⟨hle₁, hfit₁, hfact⟩
    apply (hf now₁ value hle₁ hfact memory₁ hfit₁).mono
    · rintro now₂ memory₂ value' ⟨hle₂, hfit₂, hfact'⟩
      exact ⟨hle₁.trans hle₂, hfit₂, hfact'⟩
    · rintro now₂ memory₂ cause ⟨hle₂, hfit₂⟩
      exact ⟨hle₁.trans hle₂, hfit₂⟩
  · intro now₁ memory₁ cause hfailed
    exact hfailed

theorem Stays.pure {value : α} (h : fact now value) :
    node.Stays fit now (Pure.pure value : Work σ ε α) fact :=
  fun _ hfit => Routine.keeps_pure.mpr ⟨le_rfl, hfit, h⟩

theorem Stays.fail {cause : Abort ε} : node.Stays fit now (Routine.fail cause : Work σ ε α) fact :=
  fun _ hfit => Routine.keeps_fail.mpr ⟨le_rfl, hfit⟩

/-- Less may be said of the value. -/
theorem Stays.mono {fact' : Nat → α → Prop} (h : node.Stays fit now work fact)
    (himp : ∀ now' value, now ≤ now' → fact now' value → fact' now' value) :
    node.Stays fit now work fact' := by
  intro memory hfit
  apply (h memory hfit).mono
  · rintro now' memory' value ⟨hle, hfit', hfact⟩
    exact ⟨hle, hfit', himp now' value hle hfact⟩
  · intro now' memory' cause hfailed
    exact hfailed

/-- The answer to a question that publishes only what is so informs of the history. -/
theorem stays_ask (hlasts : Lasts fit) (query : Surroundings.Query)
    (hpublishes : node.Publishes now query) (hdelivery : query.isDelivery = false) :
    node.Stays fit now (Routine.ask (I := Surroundings) query : Work σ ε query.Answer)
      fun now' answer => node.Informs now now' query answer := by
  intro memory hfit
  apply Routine.keeps_ask.mpr
  refine ⟨⟨hfit, hpublishes, hdelivery⟩, ?_⟩
  rintro answer now' ⟨hle, hinforms⟩
  exact ⟨hle, hlasts now now' memory hle hfit, hinforms⟩

theorem stays_note (hlasts : Lasts fit) (m : Measurement) :
    node.Stays fit now (Work.note m : Work σ ε Unit) fun _ _ => True :=
  (stays_ask hlasts (.note m) trivial rfl).mono fun _ _ _ _ => trivial

theorem stays_current : node.Stays fit now (Routine.current : Work σ ε σ) fun now' memory =>
    fit now' memory :=
  fun _ hfit => Routine.keeps_current.mpr ⟨le_rfl, hfit, hfit⟩

theorem stays_remember {change : σ → σ} (h : ∀ memory, fit now memory → fit now (change memory)) :
    node.Stays fit now (Routine.remember change : Work σ ε Unit) fun _ _ => True :=
  fun memory hfit => Routine.keeps_remember.mpr ⟨le_rfl, h memory hfit, trivial⟩

/-- What follows a value that may be a failure need only be looked at for its success. -/
theorem stays_ofExcept_bind {ε' : Type} {rename : ε' → Abort ε} {value : Except ε' β}
    {f : β → Work σ ε α} (h : ∀ v, value = .ok v → node.Stays fit now (f v) fact) :
    node.Stays fit now (Routine.ofExcept rename value >>= f) fact := by
  cases value with
  | ok v => exact h v rfl
  | error cause => exact Stays.fail

/-- Where the failure of work is passed over, what it leaves is fit. -/
theorem Stays.regardless {ε' : Type} {work : Work σ ε Unit} {fact : Nat → Unit → Prop}
    (h : node.Stays fit now work fact) :
    node.Stays fit now (Work.regardless work : Work σ ε' Unit) fun _ _ => True := by
  intro memory hfit
  apply Work.keeps_regardless.mpr
  apply (h memory hfit).mono
  · rintro now' memory' value ⟨hle, hfit', -⟩
    exact ⟨hle, hfit', trivial⟩
  · rintro now' memory' (cause | _) ⟨hle, hfit'⟩
    · exact ⟨hle, hfit', trivial⟩
    · exact ⟨hle, hfit'⟩

end

/-! ## Pollers -/

/-- A poller publishes a height that some chain has reached since it asked. -/
theorem stays_poll (p : Poller) :
    node.Stays (fun _ (_ : Unit) => True) now p.poll fun _ _ => True := by
  apply (stays_ask lasts_true .tipHeader trivial rfl).bind
  intro now' answer _ htold
  apply stays_ofExcept_bind
  rintro header rfl
  obtain ⟨t, _, ht, hlength⟩ := htold header rfl
  -- a height below one that has been reached has been reached
  have hreached : node.Reached now' (Word.satSub header.height p.depth) := by
    refine ⟨t, ht, ?_⟩
    rw [Word.toNat_satSub]
    omega
  have hpublish : node.Stays (fun _ (_ : Unit) => True) now'
      (p.publish (Word.satSub header.height p.depth)) fun _ _ => True := by
    unfold Poller.publish
    cases p.kind with
    | best =>
      exact (stays_ask lasts_true (.publishBest _) hreached rfl).bind fun _ _ _ _ =>
        stays_note lasts_true _
    | finalized =>
      exact (stays_ask lasts_true (.publishFinalized _) trivial rfl).bind fun _ _ _ _ =>
        stays_note lasts_true _
  exact hpublish.bind fun _ _ _ _ => .pure trivial

end BlockFeed.History
