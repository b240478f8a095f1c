import BlockFeed.Node.Retry
import BlockFeed.Proofs.Transcript

/-!
# Attempts of a call

A call that is retried is a list of tries: attempts with their transcripts and outcomes, and after each of them
what is asked before the next one begins, which is no more than chance, a pause and measurements. `Course` is
how such a call goes, try by try, and a call goes in no other way (`RetryPolicy.exists_course_of_ends`). Tries
go on until an outcome is final, and as long as more are due (`RetryPolicy.exists_tries_of_ends`).
-/

namespace BlockFeed

variable {σ α : Type}

/-- An attempt that is over, with what has been asked since. -/
structure Try (σ α : Type) where
  before : σ
  log : List Link.Event
  after : σ
  outcome : Except NodeError α
  rest : List Link.Event

/-- The transcript of tries. -/
def Try.transcript (tries : List (Try σ α)) : List Link.Event := tries.flatMap fun t => t.log ++ t.rest

/-- No attempt follows after success, nor when the node does not have what was asked for. -/
def isFinal : Except NodeError α → Bool
  | .ok _ => true
  | .error (.notFound _) => true
  | .error _ => false

theorem isFinal_error (e : NodeError) : isFinal (.error e : Except NodeError α) = !e.isRetryable := by
  cases e <;> rfl

/-- The question is one that may be asked between attempts. -/
def isRest : Link.Event → Bool
  | ⟨.pause _, _⟩ | ⟨.draw _, _⟩ | ⟨.note _, _⟩ => true
  | _ => false

namespace RetryPolicy

/-- The number of tries with given outcomes: up to the first final one, or the greatest number. -/
def due (greatest : Nat) (outcomes : List (Except NodeError α)) : Nat :=
  match outcomes.findIdx? isFinal with
  | some index => index + 1
  | none => greatest

theorem due_cons_of_final {outcome : Except NodeError α} (h : isFinal outcome = true) (greatest : Nat)
    (more : List (Except NodeError α)) : due greatest (outcome :: more) = 1 := by
  rw [due, List.findIdx?_cons, if_pos h]

theorem due_cons_of_not_final {outcome : Except NodeError α} (h : isFinal outcome = false) (greatest : Nat)
    (more : List (Except NodeError α)) : due (greatest + 1) (outcome :: more) = due greatest more + 1 := by
  rw [due, due, List.findIdx?_cons, if_neg (by simp [h])]
  cases more.findIdx? isFinal <;> rfl

/-- Attempts were made as long as they were due, and the last one settled the outcome. -/
structure MadeOf (attempt : Attempt σ α) (greatest : Nat) (outcome : Except NodeError α)
    (tries : List (Try σ α)) : Prop where
  made : ∀ t ∈ tries, (attempt.start t.before).Ends t.log t.after t.outcome
  rests : ∀ t ∈ tries, ∀ event ∈ t.rest, isRest event = true
  number : tries.length = due greatest (tries.map Try.outcome)
  number_le : tries.length ≤ greatest
  last : tries.getLast?.map Try.outcome = some outcome

namespace MadeOf

variable {attempt : Attempt σ α} {greatest : Nat} {before after : σ} {own rest : List Link.Event}
  {outcome : Except NodeError α}

/-- A single try, which is final or the only one that is due. -/
theorem singleton (hends : (attempt.start before).Ends own after outcome)
    (hrest : ∀ event ∈ rest, isRest event = true) (hdue : isFinal outcome = true ∨ greatest = 0) :
    MadeOf attempt (greatest + 1) outcome [⟨before, own, after, outcome, rest⟩] where
  made := List.forall_mem_singleton.mpr hends
  rests := List.forall_mem_singleton.mpr hrest
  number := by
    cases hfinal : isFinal outcome with
    | true => exact (due_cons_of_final hfinal _ _).symm
    | false =>
      obtain rfl : greatest = 0 := hdue.resolve_left (by simp [hfinal])
      exact (due_cons_of_not_final hfinal 0 []).symm
  number_le := Nat.le_add_left 1 greatest
  last := rfl

/-- A try that is not final, and those after it. -/
theorem cons {settled : Except NodeError α} {tries : List (Try σ α)}
    (hends : (attempt.start before).Ends own after outcome)
    (hrest : ∀ event ∈ rest, isRest event = true) (hfinal : isFinal outcome = false)
    (h : MadeOf attempt greatest settled tries) :
    MadeOf attempt (greatest + 1) settled (⟨before, own, after, outcome, rest⟩ :: tries) where
  made := List.forall_mem_cons.mpr ⟨hends, h.made⟩
  rests := List.forall_mem_cons.mpr ⟨hrest, h.rests⟩
  number := by rw [List.length_cons, List.map_cons, due_cons_of_not_final hfinal, h.number]
  number_le := Nat.succ_le_succ h.number_le
  last := by
    have hlast := h.last
    cases tries with
    | nil => cases hlast
    | cons next more => rwa [List.getLast?_cons_cons]

end MadeOf

/-! ## The course of a call -/

/-- What is asked between two attempts: a repeat is counted, and a pause follows that chance has drawn out. -/
inductive Resting (operation : String) (wait : Nat) : List Link.Event → Prop
  | plain (h : spread wait = 0) :
    Resting operation wait [⟨.note (.callRetry operation), ()⟩, ⟨.pause wait, ()⟩]
  | drawn (more : Fin (spread wait + 1)) :
    Resting operation wait [⟨.note (.callRetry operation), ()⟩, ⟨.draw (spread wait), more⟩,
      ⟨.pause (wait + more.val * Duration.nanosPerMilli), ()⟩]

theorem Resting.isRest {operation : String} {wait : Nat} {rest : List Link.Event}
    (h : Resting operation wait rest) : ∀ event ∈ rest, isRest event = true := by
  cases h with
  | plain => exact List.forall_mem_cons.mpr ⟨rfl, List.forall_mem_singleton.mpr rfl⟩
  | drawn more =>
    exact List.forall_mem_cons.mpr ⟨rfl, List.forall_mem_cons.mpr ⟨rfl, List.forall_mem_singleton.mpr rfl⟩⟩

/-- How a call goes on with a number of repeats left and with a wait after its next attempt: the memory it
begins with, its tries, the memory it ends with, and the outcome. -/
inductive Course (p : RetryPolicy) (operation : String) (attempt : Attempt σ α) :
    (repeats wait : Nat) → (before : σ) → List (Try σ α) → (after : σ) → Except NodeError α → Prop
  /-- The outcome of an attempt is final. -/
  | final {repeats wait : Nat} {before after : σ} {own : List Link.Event} {outcome : Except NodeError α}
      (hends : (attempt.start before).Ends own after outcome) (hfinal : isFinal outcome = true) :
      Course p operation attempt repeats wait before [⟨before, own, after, outcome, []⟩] after outcome
  /-- An attempt has failed, and it was the last one. -/
  | exhausted {wait : Nat} {before after : σ} {own : List Link.Event} {e : NodeError}
      (hends : (attempt.start before).Ends own after (.error e)) (hretry : e.isRetryable = true) :
      Course p operation attempt 0 wait before
        [⟨before, own, after, .error e, [⟨.note (.callFailure operation e.kind), ()⟩]⟩] after (.error e)
  /-- An attempt has failed, and others follow. -/
  | again {repeats wait : Nat} {before between after : σ} {own rest : List Link.Event} {e : NodeError}
      {tries : List (Try σ α)} {outcome : Except NodeError α}
      (hends : (attempt.start before).Ends own between (.error e)) (hretry : e.isRetryable = true)
      (hrest : Resting operation wait rest)
      (h : Course p operation attempt repeats (p.nextWait wait) between tries after outcome) :
      Course p operation attempt (repeats + 1) wait before
        (⟨before, own, between, .error e, rest⟩ :: tries) after outcome

theorem isFinal_of_isRetryable {e : NodeError} (h : e.isRetryable = true) :
    isFinal (.error e : Except NodeError α) = false := by
  rw [isFinal_error, h]
  rfl

/-- In the course of a call attempts are made as long as they are due. -/
theorem Course.madeOf {p : RetryPolicy} {operation : String} {attempt : Attempt σ α} {repeats wait : Nat}
    {before after : σ} {tries : List (Try σ α)} {outcome : Except NodeError α}
    (h : Course p operation attempt repeats wait before tries after outcome) :
    MadeOf attempt (repeats + 1) outcome tries := by
  induction h with
  | final hends hfinal => exact .singleton hends (List.forall_mem_nil _) (.inl hfinal)
  | exhausted hends => exact .singleton hends (List.forall_mem_singleton.mpr rfl) (.inr rfl)
  | again hends hretry hrest _ ih => exact .cons hends hrest.isRest (isFinal_of_isRetryable hretry) ih

/-- A transcript goes on from some past with the course of a call. -/
def Follows (p : RetryPolicy) (operation : String) (attempt : Attempt σ α) (repeats wait : Nat)
    (before : σ) (past log : List Link.Event) (after : σ) (outcome : Except NodeError α) : Prop :=
  ∃ tries, log = past ++ Try.transcript tries ∧
    Course p operation attempt repeats wait before tries after outcome

namespace Follows

variable {p : RetryPolicy} {operation : String} {attempt : Attempt σ α} {repeats wait : Nat}
  {before between after : σ} {past own rest log : List Link.Event} {e : NodeError}
  {outcome : Except NodeError α}

theorem final (hends : (attempt.start before).Ends own after outcome) (hfinal : isFinal outcome = true) :
    Follows p operation attempt repeats wait before past (past ++ own) after outcome :=
  ⟨_, by simp [Try.transcript], .final hends hfinal⟩

theorem exhausted (hends : (attempt.start before).Ends own after (.error e))
    (hretry : e.isRetryable = true) :
    Follows p operation attempt 0 wait before past
      (past ++ own ++ [⟨.note (.callFailure operation e.kind), ()⟩]) after (.error e) :=
  ⟨_, by simp [Try.transcript], .exhausted hends hretry⟩

theorem again (hends : (attempt.start before).Ends own between (.error e))
    (hretry : e.isRetryable = true) (hrest : Resting operation wait rest)
    (h : Follows p operation attempt repeats (p.nextWait wait) between (past ++ own ++ rest) log after
      outcome) :
    Follows p operation attempt (repeats + 1) wait before past log after outcome := by
  obtain ⟨tries, hlog, hcourse⟩ := h
  exact ⟨_, by simp [hlog, Try.transcript], .again hends hretry hrest hcourse⟩

end Follows

/-- A repeat is counted, and a pause follows. -/
theorem keeps_rest (operation : String) (wait : Nat) (past : List Link.Event) (memory : σ)
    (failed : List Link.Event → σ → NodeError → Prop) :
    (do Attempt.note (.callRetry operation); rest wait : Attempt σ Unit).Keeps (recorded Link σ)
      (fun log after _ => after = memory ∧ ∃ own, log = past ++ own ∧ Resting operation wait own)
      failed past memory := by
  refine Routine.keeps_bind.mpr (Routine.keeps_recorded_ask.mpr fun _ => ?_)
  by_cases hspread : spread wait = 0
  · have hrest : (rest wait : Attempt σ Unit) = Attempt.tell (.pause wait) := if_pos hspread
    rw [hrest]
    refine Routine.keeps_recorded_ask.mpr fun _ => ⟨rfl, _, List.append_assoc .., ?_⟩
    exact .plain hspread
  · have hrest : (rest wait : Attempt σ Unit) = (Attempt.tell (.draw (spread wait)) >>= fun more =>
        Attempt.tell (.pause (wait + Fin.val more * Duration.nanosPerMilli))) := if_neg hspread
    rw [hrest]
    refine Routine.keeps_bind.mpr (Routine.keeps_recorded_ask.mpr fun more => ?_)
    refine Routine.keeps_recorded_ask.mpr fun _ => ⟨rfl, _, ?_, .drawn more⟩
    rw [List.append_assoc, List.append_assoc]
    rfl

/-- Attempts are made as long as they are due. -/
theorem keeps_runFrom (p : RetryPolicy) (operation : String) (attempt : Attempt σ α) (repeats wait : Nat)
    (past : List Link.Event) (memory : σ) :
    (p.runFrom operation attempt repeats wait).Keeps (recorded Link σ)
      (fun log after value => Follows p operation attempt repeats wait memory past log after (.ok value))
      (fun log after cause => Follows p operation attempt repeats wait memory past log after (.error cause))
      past memory := by
  induction repeats generalizing wait past memory with
  | zero =>
    refine Routine.keeps_bind.mpr (Routine.keeps_outcome.mpr
      ((Routine.keeps_recorded_ends attempt past memory).mono ?_ ?_))
    · rintro _ after value ⟨own, rfl, hends⟩
      exact .final hends rfl
    · rintro _ after cause ⟨own, rfl, hends⟩
      cases hretry : cause.isRetryable with
      | true =>
        simp only [hretry, if_true]
        exact Routine.keeps_bind.mpr (Routine.keeps_recorded_ask.mpr fun _ => .exhausted hends hretry)
      | false =>
        simp only [hretry, Bool.false_eq_true, if_false]
        exact .final hends (by rw [isFinal_error, hretry]; rfl)
  | succ repeats ih =>
    refine Routine.keeps_bind.mpr (Routine.keeps_outcome.mpr
      ((Routine.keeps_recorded_ends attempt past memory).mono ?_ ?_))
    · rintro _ after value ⟨own, rfl, hends⟩
      exact .final hends rfl
    · rintro _ after cause ⟨own, rfl, hends⟩
      cases hretry : cause.isRetryable with
      | true =>
        simp only [hretry, Bool.not_true, Bool.false_eq_true, if_false]
        have hnote := keeps_rest operation wait (past ++ own) after fun log memory' cause' =>
          Follows p operation attempt (repeats + 1) wait memory past log memory' (.error cause')
        refine Routine.keeps_bind.mpr ((Routine.keeps_bind.mp hnote).mono ?_ fun _ _ _ h => h)
        refine fun log' memory' _ hrest => Routine.keeps_bind.mpr (hrest.mono ?_ fun _ _ _ h => h)
        rintro _ _ _ ⟨rfl, rest, rfl, hresting⟩
        exact (ih (p.nextWait wait) _ _).mono (fun _ _ _ h => h.again hends hretry hresting)
          fun _ _ _ h => h.again hends hretry hresting
      | false =>
        simp only [hretry, Bool.not_false, if_true]
        exact .final hends (by rw [isFinal_error, hretry]; rfl)

/-- However a call ends, it has gone its course. -/
theorem exists_course_of_ends {p : RetryPolicy} {operation : String} {attempt : Attempt σ α}
    {memory after : σ} {log : List Link.Event} {outcome : Except NodeError α}
    (h : ((p.run operation attempt).start memory).Ends log after outcome) :
    ∃ tries, log = Try.transcript tries ∧
      Course p operation attempt p.repeats p.baseNanos memory tries after outcome := by
  have hkeeps := p.keeps_runFrom operation attempt p.repeats p.baseNanos [] memory
  have hfollows := Run.keeps_recorded_iff.mp hkeeps log after outcome h
  cases outcome <;> exact hfollows

/-- However a call ends, it is made of tries, no more than the policy admits. -/
theorem exists_tries_of_ends {p : RetryPolicy} {operation : String} {attempt : Attempt σ α}
    {memory after : σ} {log : List Link.Event} {outcome : Except NodeError α}
    (h : ((p.run operation attempt).start memory).Ends log after outcome) :
    ∃ tries, log = Try.transcript tries ∧ MadeOf attempt p.maxAttempts outcome tries := by
  obtain ⟨tries, hlog, hcourse⟩ := exists_course_of_ends h
  exact ⟨tries, hlog, hcourse.madeOf⟩

end RetryPolicy

end BlockFeed
