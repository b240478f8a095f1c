import Mathlib.Algebra.Group.Nat.Defs
import Mathlib.Order.Bounds.Basic
import BlockFeed.Proofs.Node.Retries

/-!
# Waits and counts of a call that is retried

How often a call is attempted is told by the first outcome that is final and by the greatest number of
attempts. After the first attempt comes the wait that the policy begins with, and after each later one twice
the wait before, up to a greatest one; in closed form that is a power of two (`waitAfter`). Each wait is
drawn out by a quarter at most (`Resting.pauses`). A repeat is counted with each wait, and a failure once all
attempts have been used up.

Main statement: all of that holds of every call, whatever its attempts come to (`RetryPolicy.exists_backoff`).
-/

namespace BlockFeed

variable {σ α : Type}

/-! ## Counts -/

/-- The count under some label values. -/
def LabelledCounts.count (values : List String) : LabelledCounts → UInt64
  | [] => 0
  | (present, n) :: rest => if present = values then n else LabelledCounts.count values rest

/-- Adding counts under its own label values only. -/
theorem LabelledCounts.count_add (values other : List String) (n : UInt64) (counts : LabelledCounts) :
    (LabelledCounts.add values n counts).count other
      = counts.count other + if values = other then n else 0 := by
  induction counts with
  | nil => simp [LabelledCounts.add, LabelledCounts.count]
  | cons entry rest ih =>
    obtain ⟨present, m⟩ := entry
    rw [LabelledCounts.add]
    by_cases hpresent : present = values
    · subst hpresent
      by_cases hother : present = other <;> simp [LabelledCounts.count, hother]
    · rw [if_neg hpresent, LabelledCounts.count, LabelledCounts.count, ih]
      by_cases hother : present = other
      · rw [if_pos hother, if_pos hother, if_neg (fun h => hpresent (hother.trans h.symm)), UInt64.add_zero]
      · rw [if_neg hother, if_neg hother]

/-- Metrics after measurements, one after the other. -/
def Metrics.noteAll (m : Metrics) (measurements : List Measurement) : Metrics := measurements.foldl note m

theorem Metrics.noteAll_append (m : Metrics) (first second : List Measurement) :
    m.noteAll (first ++ second) = (m.noteAll first).noteAll second :=
  List.foldl_append

/-- Repeats are counted one by one. -/
theorem Metrics.noteAll_callRetry (m : Metrics) (operation : String) (n : Nat) (labels : List String) :
    (m.noteAll (List.replicate n (.callRetry operation))).callRetries.count labels
        = m.callRetries.count labels + (if [operation] = labels then UInt64.ofNat n else 0) ∧
      (m.noteAll (List.replicate n (.callRetry operation))).callFailures = m.callFailures := by
  induction n generalizing m with
  | zero => simp [Metrics.noteAll]
  | succ n ih =>
    obtain ⟨hretries, hfailures⟩ := ih (m.note (.callRetry operation))
    rw [List.replicate_succ]
    refine ⟨hretries.trans ?_, hfailures⟩
    rw [Metrics.note, LabelledCounts.count_add, UInt64.add_assoc]
    by_cases hlabels : [operation] = labels
    · rw [if_pos hlabels, if_pos hlabels, if_pos hlabels, UInt64.ofNat_add, UInt64.add_comm (UInt64.ofNat n)]
      rfl
    · rw [if_neg hlabels, if_neg hlabels, if_neg hlabels, UInt64.add_zero]

namespace RetryPolicy

/-! ## Waits -/

/-- The wait that is due after a number of attempts, in nanoseconds. -/
def waitAfter (base greatest attempts : Nat) : Nat :=
  if attempts ≤ 1 then base else min (base * 2 ^ (attempts - 1)) greatest

/-- A policy doubles the wait from one attempt to the next, up to its greatest. -/
theorem nextWait_waitAfter (p : RetryPolicy) (k : Nat) :
    p.nextWait (waitAfter p.baseNanos p.maxNanos (k + 1)) = waitAfter p.baseNanos p.maxNanos (k + 2) := by
  unfold nextWait waitAfter
  rw [if_neg (by omega : ¬ k + 2 ≤ 1), Nat.add_sub_cancel, show k + 2 - 1 = k + 1 from rfl]
  cases k with
  | zero => simp [Nat.mul_comm]
  | succ k =>
    rw [if_neg (by omega), Nat.pow_succ 2 (k + 1), ← Nat.mul_assoc]
    omega

example : (List.range 5).map (fun k => waitAfter 100 400 (k + 1)) = [100, 200, 400, 400, 400] := by decide

/-- The pauses among questions, in nanoseconds. -/
def pauses (events : List Link.Event) : List Nat :=
  events.filterMap fun
    | ⟨.pause nanos, _⟩ => some nanos
    | _ => none

/-- The measurements among questions. -/
def measurements (events : List Link.Event) : List Measurement :=
  events.filterMap fun
    | ⟨.note m, _⟩ => some m
    | _ => none

/-- Chance draws a wait out by a quarter at most. -/
theorem spread_le (wait more : Nat) (h : more ≤ spread wait) :
    4 * (more * Duration.nanosPerMilli) ≤ wait := by
  have hspread : spread wait ≤ wait / Duration.nanosPerMilli / 4 := Nat.mod_le _ _
  have hmillis := Nat.div_mul_le_self wait Duration.nanosPerMilli
  calc 4 * (more * Duration.nanosPerMilli)
      = 4 * more * Duration.nanosPerMilli := (Nat.mul_assoc ..).symm
    _ ≤ wait / Duration.nanosPerMilli * Duration.nanosPerMilli := Nat.mul_le_mul_right _ (by omega)
    _ ≤ wait := hmillis

section
variable {operation : String} {wait : Nat} {rest : List Link.Event}

/-- Between attempts there is one pause. -/
theorem Resting.pauses (h : Resting operation wait rest) :
    ∃ more, pauses rest = [wait + more] ∧ 4 * more ≤ wait := by
  cases h with
  | plain => exact ⟨0, rfl, Nat.zero_le _⟩
  | drawn more => exact ⟨_, rfl, spread_le wait more.val (Nat.le_of_lt_succ more.isLt)⟩

/-- Between attempts one repeat is counted. -/
theorem Resting.measurements (h : Resting operation wait rest) :
    measurements rest = [.callRetry operation] := by
  cases h <;> rfl

end

/-! ## Tries -/

/-- Each try begins with the memory that the one before has left. -/
def Chained : σ → List (Try σ α) → σ → Prop
  | before, [], after => before = after
  | before, t :: more, after => t.before = before ∧ Chained t.after more after

/-- The failure that is counted once all attempts have been used up. -/
def failureOf (operation : String) : Except NodeError α → List Measurement
  | .ok _ => []
  | .error e => if e.isRetryable then [.callFailure operation e.kind] else []

/-- Failures are not counted as repeats. -/
theorem callRetries_failureOf (operation : String) (outcome : Except NodeError α) (m : Metrics) :
    (m.noteAll (failureOf operation outcome)).callRetries = m.callRetries := by
  cases outcome with
  | ok => rfl
  | error e =>
    rw [failureOf]
    split <;> rfl

theorem failureOf_of_final (operation : String) {outcome : Except NodeError α} (h : isFinal outcome = true) :
    failureOf operation outcome = [] := by
  cases outcome with
  | ok => rfl
  | error e =>
    rw [isFinal_error, Bool.not_eq_true'] at h
    simp [failureOf, h]

namespace Course

variable {p : RetryPolicy} {operation : String} {attempt : Attempt σ α} {repeats wait : Nat}
  {before after : σ} {tries : List (Try σ α)} {outcome : Except NodeError α}

theorem chained (h : Course p operation attempt repeats wait before tries after outcome) :
    Chained before tries after := by
  induction h with
  | final | exhausted => exact ⟨rfl, rfl⟩
  | again _ _ _ _ ih => exact ⟨rfl, ih⟩

theorem ne_nil (h : Course p operation attempt repeats wait before tries after outcome) : tries ≠ [] := by
  cases h <;> exact List.cons_ne_nil _ _

/-- All measurements that are taken down between attempts and after the last one. -/
theorem measurements_eq (h : Course p operation attempt repeats wait before tries after outcome) :
    measurements (tries.flatMap Try.rest)
      = List.replicate (tries.length - 1) (.callRetry operation) ++ failureOf operation outcome := by
  induction h with
  | final _ hfinal => simp [measurements, failureOf_of_final operation hfinal]
  | exhausted _ hretry => simp [measurements, failureOf, hretry]
  | @again _ _ _ _ _ _ _ _ tries _ _ _ hrest h ih =>
    have hlength : 0 < tries.length := List.length_pos_iff.mpr h.ne_nil
    rw [List.flatMap_cons, measurements, List.filterMap_append]
    refine (congrArg₂ _ hrest.measurements ih).trans ?_
    rw [← List.append_assoc, ← List.replicate_one, List.replicate_append_replicate, List.length_cons]
    congr 2
    omega

/-- There is one pause less than there are attempts. -/
theorem length_pauses (h : Course p operation attempt repeats wait before tries after outcome) :
    (pauses (tries.flatMap Try.rest)).length = tries.length - 1 := by
  induction h with
  | final | exhausted => rfl
  | @again _ _ _ _ _ _ _ _ tries _ _ _ hrest h ih =>
    have hlength : 0 < tries.length := List.length_pos_iff.mpr h.ne_nil
    obtain ⟨more, hpauses, -⟩ := hrest.pauses
    rw [List.flatMap_cons, pauses, List.filterMap_append, List.length_append]
    refine (congrArg₂ _ (congrArg List.length hpauses) ih).trans ?_
    rw [List.length_singleton, List.length_cons]
    omega

/-- After all attempts but the last one comes the wait that is due. -/
theorem resting (h : Course p operation attempt repeats wait before tries after outcome) (done : Nat)
    (hwait : wait = waitAfter p.baseNanos p.maxNanos (done + 1)) {k : Nat} {t : Try σ α}
    (ht : tries[k]? = some t) (hk : k + 1 < tries.length) :
    Resting operation (waitAfter p.baseNanos p.maxNanos (done + k + 1)) t.rest := by
  induction h generalizing done k with
  | final | exhausted => simp at hk
  | again _ _ hrest _ ih =>
    cases k with
    | zero =>
      cases ht
      rwa [← hwait]
    | succ k =>
      have hnext := ih (done + 1) (by rw [hwait, nextWait_waitAfter]) (k := k) ht (Nat.lt_of_succ_lt_succ hk)
      rwa [show done + 1 + k + 1 = done + (k + 1) + 1 by omega] at hnext

/-- No wait comes after the last attempt. -/
theorem pauses_last (h : Course p operation attempt repeats wait before tries after outcome) {t : Try σ α}
    (ht : tries.getLast? = some t) : pauses t.rest = [] := by
  induction h with
  | final | exhausted =>
    cases ht
    rfl
  | @again _ _ _ _ _ _ _ _ tries _ _ _ _ h ih =>
    obtain ⟨next, more, rfl⟩ := List.exists_cons_of_ne_nil h.ne_nil
    rw [List.getLast?_cons_cons] at ht
    exact ih ht

/-- All attempts have been used up and have failed exactly if the outcome is not final. -/
theorem countP_eq_iff (h : Course p operation attempt repeats wait before tries after outcome) :
    tries.countP (fun t => !isFinal t.outcome) = repeats + 1 ↔ isFinal outcome = false := by
  induction h with
  | final _ hfinal => simp [hfinal]
  | exhausted _ hretry => simp [isFinal_of_isRetryable hretry]
  | again _ hretry _ _ ih => simp [isFinal_of_isRetryable hretry, ih]

end Course

/-- The number of attempts is told by any outcomes that they agree with: up to the first final one, or as many
as may be. -/
theorem MadeOf.length_eq {attempt : Attempt σ α} {greatest : Nat} {outcome : Except NodeError α}
    {tries : List (Try σ α)} (h : MadeOf attempt greatest outcome tries)
    {outcomes : Nat → Except NodeError α} (hagree : ∀ k t, tries[k]? = some t → t.outcome = outcomes k) :
    (∀ i, IsLeast { k | isFinal (outcomes k) = true } i → tries.length = min greatest (i + 1)) ∧
      ((∀ k, isFinal (outcomes k) = false) → tries.length = greatest) := by
  have hnumber := h.number
  have hle := h.number_le
  have hat : ∀ (k : Nat) (hk : k < tries.length), tries[k].outcome = outcomes k := fun k hk =>
    hagree k _ (List.getElem?_eq_getElem hk)
  unfold due at hnumber
  cases hfirst : (tries.map Try.outcome).findIdx? isFinal with
  | some j =>
    rw [hfirst] at hnumber
    obtain ⟨hj, hfinal, hbefore⟩ := List.findIdx?_eq_some_iff_getElem.mp hfirst
    rw [List.length_map] at hj
    rw [List.getElem_map, hat j hj] at hfinal
    -- the first final one among the tries is the first final one of all
    refine ⟨fun i hi => ?_, fun hnone => ?_⟩
    · have hij : i ≤ j := hi.2 hfinal
      have hji : j ≤ i := by
        by_contra hlt
        have hnot := hbefore i (by omega)
        rw [List.getElem_map, hat i (by omega)] at hnot
        exact hnot hi.1
      dsimp only at hnumber
      omega
    · rw [hnone j] at hfinal
      cases hfinal
  | none =>
    rw [hfirst] at hnumber
    dsimp only at hnumber
    -- no try has been final, so the first final outcome would have come after all of them
    refine ⟨fun i hi => ?_, fun _ => hnumber⟩
    have hbeyond : tries.length ≤ i := by
      by_contra hlt
      have hmem : outcomes i ∈ tries.map Try.outcome := by
        rw [← hat i (by omega)]
        exact List.mem_map_of_mem (List.getElem_mem _)
      have hnot := List.findIdx?_eq_none_iff.mp hfirst _ hmem
      rw [hi.1] at hnot
      cases hnot
    omega

/-! ## What holds of every call -/

/-- How a call has ended that was attempted up to a number of times, with waits from a base up to a greatest
one. -/
structure Backoff (attempts base greatest : Nat) (operation : String) (attempt : Attempt σ α) (memory : σ)
    (ending : Run.Ending Link σ (Except NodeError α)) (tries : List (Try σ α)) : Prop where
  /-- The call is made of its tries, and these follow one on the other. -/
  transcript : ending.log = Try.transcript tries
  made : ∀ t ∈ tries, (attempt.start t.before).Ends t.log t.after t.outcome
  chained : Chained memory tries ending.memory
  /-- There are as many as the first final outcome tells, and no more than may be. -/
  number : ∀ outcomes : Nat → Except NodeError α, (∀ k t, tries[k]? = some t → t.outcome = outcomes k) →
    (∀ i, IsLeast { k | isFinal (outcomes k) = true } i → tries.length = min (max attempts 1) (i + 1)) ∧
      ((∀ k, isFinal (outcomes k) = false) → tries.length = max attempts 1)
  /-- The outcome is that of the last try. -/
  value : tries.getLast?.map Try.outcome = some ending.value
  /-- Between two tries there is one pause, which chance draws out by a quarter at most. -/
  waits : ∀ k t, tries[k]? = some t → k + 1 < tries.length →
    ∃ more, pauses t.rest = [waitAfter base greatest (k + 1) + more] ∧
      4 * more ≤ waitAfter base greatest (k + 1)
  /-- There is none after the last try. -/
  noWait : ∀ t, tries.getLast? = some t → pauses t.rest = []
  /-- Each wait is counted as a repeat of the operation, and nothing else is. -/
  retries : (pauses (tries.flatMap Try.rest)).length = tries.length - 1 ∧ ∀ (m : Metrics) labels,
    (m.noteAll (measurements (tries.flatMap Try.rest))).callRetries.count labels
      = m.callRetries.count labels
        + if [operation] = labels then UInt64.ofNat (pauses (tries.flatMap Try.rest)).length else 0
  /-- A failure is counted, under the kind of the error that is returned, once all attempts have failed in
  ways that may pass. -/
  failures : tries.countP (fun t => !isFinal t.outcome) = max attempts 1 →
    ∃ e, ending.value = .error e ∧ ∀ (m : Metrics) labels,
      (m.noteAll (measurements (tries.flatMap Try.rest))).callFailures.count labels
        = m.callFailures.count labels + if [operation, e.kind] = labels then 1 else 0
  /-- No failure is counted otherwise. -/
  noFailure : ∀ m : Metrics, tries.countP (fun t => !isFinal t.outcome) ≠ max attempts 1 →
    (m.noteAll (measurements (tries.flatMap Try.rest))).callFailures = m.callFailures

/-- Whatever is answered, a call is attempted as often as is due, waits between its attempts, and is
counted. -/
theorem exists_backoff (attempts base greatest : Nat) (operation : String) (attempt : Attempt σ α)
    (memory : σ) (b : Behaviour Link) :
    ∃ tries, Backoff attempts base greatest operation attempt memory
      ((((ofNanos attempts base greatest).run operation attempt).start memory).against b) tries := by
  obtain ⟨tries, hlog, hcourse⟩ := exists_course_of_ends
    (Run.ends_against (((ofNanos attempts base greatest).run operation attempt).start memory) b)
  generalize (((ofNanos attempts base greatest).run operation attempt).start memory).against b = ending
    at hlog hcourse
  have hgreatest : (ofNanos attempts base greatest).repeats + 1 = max attempts 1 := by
    show attempts - 1 + 1 = _
    omega
  have hmade := hcourse.madeOf
  have hseen := hcourse.countP_eq_iff
  have hnotes := hcourse.measurements_eq
  rw [hgreatest] at hmade hseen
  refine ⟨tries, {
    transcript := hlog
    made := hmade.made
    chained := hcourse.chained
    number := fun outcomes hagree => hmade.length_eq hagree
    value := hmade.last
    waits := fun k t ht hk => ?_
    noWait := fun t ht => hcourse.pauses_last ht
    retries := ⟨hcourse.length_pauses, fun m labels => ?_⟩
    failures := fun hall => ?_
    noFailure := fun m hsome => ?_ }⟩
  · have hresting := hcourse.resting 0 rfl ht hk
    rw [Nat.zero_add] at hresting
    exact hresting.pauses
  · rw [hnotes, Metrics.noteAll_append, callRetries_failureOf, hcourse.length_pauses]
    exact (m.noteAll_callRetry operation _ labels).1
  · have hfinal := hseen.mp hall
    cases hvalue : ending.value with
    | ok value =>
      rw [hvalue] at hfinal
      cases hfinal
    | error e =>
      rw [hvalue, isFinal_error, Bool.not_eq_false'] at hfinal
      refine ⟨e, rfl, fun m labels => ?_⟩
      rw [hnotes, hvalue, failureOf, if_pos hfinal, Metrics.noteAll_append]
      refine (LabelledCounts.count_add [operation, e.kind] labels 1 _).trans ?_
      rw [(m.noteAll_callRetry operation _ labels).2]
  · have hfinal : isFinal ending.value = true := by
      rw [← Bool.not_eq_false]
      exact fun h => hsome (hseen.mpr h)
    rw [hnotes, failureOf_of_final operation hfinal, List.append_nil]
    exact (m.noteAll_callRetry operation _ []).2

end RetryPolicy

end BlockFeed
