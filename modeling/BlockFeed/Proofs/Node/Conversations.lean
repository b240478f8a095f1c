import BlockFeed.Node.Client
import BlockFeed.Proofs.Transcript

/-!
# The conversation of an attempt

An attempt opens a connection, converses once and hangs up. Until the connection is open nothing has been said
to the node, and what goes wrong until then is worth another attempt (`Attempt.IsSilent`). So there are two
answers that tell what comes of an attempt: that of its conversation and that of hanging up
(`Attempt.keeps_converse`, `Attempt.Spoken.eq_ok_iff`).
-/

namespace BlockFeed

/-- Nothing has been said to a node. -/
def Unspoken (log : List Link.Event) : Prop := ∀ c answer, (⟨.converse c, answer⟩ : Link.Event) ∉ log

theorem Unspoken.concat {log : List Link.Event} (h : Unspoken log) {event : Link.Event}
    (hevent : ∀ c, event.1 ≠ .converse c) : Unspoken (log ++ [event]) := by
  intro c answer hmem
  rcases List.mem_append.mp hmem with hmem | hmem
  · exact h c answer hmem
  · exact hevent c (congrArg Sigma.fst (List.mem_singleton.mp hmem)).symm

namespace Attempt

variable {σ α β : Type}

/-- A part of an attempt that says nothing to the node, and if it fails it is for a cause that is worth another
attempt. -/
def IsSilent (part : Attempt σ α) : Prop :=
  ∀ log memory, Unspoken log → part.Keeps (recorded Link σ) (fun log _ _ => Unspoken log)
    (fun log _ cause => Unspoken log ∧ cause.isRetryable = true) log memory

namespace IsSilent

theorem pure (value : α) : IsSilent (Routine.pure value : Attempt σ α) := fun _ _ hlog => hlog

theorem fail {cause : NodeError} (h : cause.isRetryable = true) :
    IsSilent (Routine.fail cause : Attempt σ α) :=
  fun _ _ hlog => ⟨hlog, h⟩

theorem bind {part : Attempt σ β} {f : β → Attempt σ α} (h : part.IsSilent)
    (hf : ∀ value, (f value).IsSilent) : (part >>= f).IsSilent := fun log memory hlog =>
  Routine.keeps_bind.mpr ((h log memory hlog).mono (fun log memory value hlog => hf value log memory hlog)
    fun _ _ _ hfailed => hfailed)

theorem tell {query : Link.Query} (h : ∀ c, query ≠ .converse c) :
    (Attempt.tell query : Attempt σ query.Answer).IsSilent := fun _ _ hlog =>
  Routine.keeps_recorded_ask.mpr fun _ => hlog.concat h

theorem within (limit : Duration) (answer : Option α) : (Attempt.within limit answer : Attempt σ α).IsSilent := by
  cases answer with
  | some value => exact pure value
  | none => exact fail rfl

theorem note (m : Measurement) : (Attempt.note m : Attempt σ Unit).IsSilent := tell fun _ => nofun

end IsSilent

theorem isSilent_enterGate (limit : Duration) (tries : Nat) :
    (enterGate limit tries : Attempt σ Unit).IsSilent := by
  induction tries with
  | zero => exact .tell fun _ => nofun
  | succ tries ih =>
    refine .bind (.tell fun _ => nofun) fun (answer : Bool) => ?_
    cases answer with
    | true => exact .pure ()
    | false => exact .bind (.tell fun _ => nofun) fun waited => .bind (.within limit waited) fun _ => ih

theorem isSilent_insideGate {limit : Duration} {work : Attempt σ α} (h : work.IsSilent) :
    (insideGate limit work).IsSilent := by
  refine .bind (isSilent_enterGate limit gateTries) fun _ log memory hlog => ?_
  refine Routine.keeps_bind.mpr (Routine.keeps_outcome.mpr ((h log memory hlog).mono ?_ ?_))
  · intro log memory value hlog
    have hleave : (tell .leaveGate >>= fun _ => Routine.pure value : Attempt σ α).IsSilent :=
      .bind (.tell fun _ => nofun) fun _ => .pure value
    exact hleave log memory hlog
  · rintro log memory cause ⟨hlog, hcause⟩
    have hleave : (tell .leaveGate >>= fun _ => Routine.fail cause : Attempt σ α).IsSilent :=
      .bind (.tell fun _ => nofun) fun _ => .fail hcause
    exact hleave log memory hlog

theorem isSilent_reach (s : NodeSettings) : (reach s : Attempt σ Unit).IsSilent := by
  refine .bind (.tell fun _ => nofun) fun answer => .bind (.within s.callTimeout answer) fun outcome => ?_
  cases outcome with
  | connected => exact .tell fun _ => nofun
  | failed => exact .bind (.note _) fun _ => .fail rfl
  | timedOut => exact .bind (.note _) fun _ => .fail rfl

theorem isSilent_hangUp (s : NodeSettings) : (hangUp s : Attempt σ Unit).IsSilent :=
  .bind (.tell fun _ => nofun) fun ended => .within s.callTimeout ended

theorem isSilent_openConnection (s : NodeSettings) : (openConnection s : Attempt σ UInt64).IsSilent := by
  have hgiveUp {cause : NodeError} (h : cause.isRetryable = true) :
      (giveUp s cause : Attempt σ UInt64).IsSilent :=
    .bind (isSilent_hangUp s) fun _ => .fail h
  have hwork : (do reach s; tell (.negotiate s.networkMagic s.handshakeTimeout) :
      Attempt σ (Option (Except ConnectionError UInt64))).IsSilent :=
    .bind (isSilent_reach s) fun _ => .tell fun _ => nofun
  refine .bind (isSilent_insideGate hwork) fun answer => ?_
  match answer with
  | none => exact hgiveUp rfl
  | some (.ok version) => exact .bind (.note _) fun _ => .pure version
  | some (.error e) => exact .bind (.note _) fun _ => hgiveUp rfl

/-! ## What comes of a conversation -/

/-- What comes of an attempt, given what its conversation and hanging up are answered. -/
def cameOf (s : NodeSettings) (answer : Option (Except NodeError α)) : Option Unit → Except NodeError α
  | some () => answer.getD (.error (.timeout s.callTimeout))
  | none => .error (.timeout s.callTimeout)

/-- An attempt has opened no connection, for a cause that is worth another attempt, or it has conversed once
and hung up. -/
inductive Spoken (s : NodeSettings) (c : Conversation) : List Link.Event → Except NodeError c.Result → Prop where
  | unopened {log : List Link.Event} {cause : NodeError} (h : Unspoken log) (hcause : cause.isRetryable = true) :
      Spoken s c log (.error cause)
  | spoken {opening : List Link.Event} (h : Unspoken opening) (answer : Option (Except NodeError c.Result))
      (ended : Option Unit) :
      Spoken s c (opening ++ [⟨.converse c, answer⟩, ⟨.hangUp, ended⟩]) (cameOf s answer ended)

theorem keeps_converse (s : NodeSettings) (c : Conversation) (memory : σ) :
    (converse s c).Keeps (recorded Link σ) (fun log _ value => Spoken s c log (.ok value))
      (fun log _ cause => Spoken s c log (.error cause)) [] memory := by
  have hnothing : Unspoken [] := fun _ _ => List.not_mem_nil
  refine Routine.keeps_bind.mpr ((isSilent_openConnection s [] memory hnothing).mono ?_ ?_)
  · intro opening memory _ hopening
    refine Routine.keeps_bind.mpr (Routine.keeps_recorded_ask.mpr
      fun (answer : Option (Except NodeError c.Result)) => ?_)
    refine Routine.keeps_bind.mpr (Routine.keeps_bind.mpr (Routine.keeps_recorded_ask.mpr
      fun (ended : Option Unit) => ?_))
    have hspoken := Spoken.spoken (s := s) hopening answer ended
    rw [List.append_cons] at hspoken
    match ended, answer with
    | none, _ => exact hspoken
    | some (), none => exact hspoken
    | some (), some (.ok value) => exact hspoken
    | some (), some (.error cause) => exact hspoken
  · rintro log memory cause ⟨hlog, hcause⟩
    exact .unopened hlog hcause

theorem spoken_of_ends {s : NodeSettings} {c : Conversation} {before after : σ} {log : List Link.Event}
    {outcome : Except NodeError c.Result} (h : ((converse s c).start before).Ends log after outcome) :
    Spoken s c log outcome := by
  have hended := Run.keeps_recorded_iff.mp (keeps_converse s c before) log after outcome h
  cases outcome <;> exact hended

namespace Spoken

variable {s : NodeSettings} {c : Conversation} {log : List Link.Event} {outcome : Except NodeError c.Result}

/-- The only conversation is the one before the hanging up. -/
theorem eq_of_mem {opening : List Link.Event} (h : Unspoken opening)
    {answer given : Option (Except NodeError c.Result)} {ended : Option Unit}
    (hmem : (⟨.converse c, given⟩ : Link.Event) ∈ opening ++ [⟨.converse c, answer⟩, ⟨.hangUp, ended⟩]) :
    given = answer := by
  rcases List.mem_append.mp hmem with hmem | hmem
  · exact absurd hmem (h c given)
  · simp only [List.mem_cons, List.not_mem_nil, or_false] at hmem
    rcases hmem with hmem | hmem
    · exact eq_of_heq (Sigma.mk.inj hmem).2
    · cases congrArg Sigma.fst hmem

/-- An attempt ends with a value if its conversation has come to this value and the connection has been ended
in time. -/
theorem eq_ok_iff (h : Spoken s c log outcome) (value : c.Result) :
    outcome = .ok value ↔
      (⟨.converse c, some (.ok value)⟩ : Link.Event) ∈ log ∧ log.getLast? = some ⟨.hangUp, some ()⟩ := by
  cases h with
  | unopened h _ => exact ⟨nofun, fun hmem => absurd hmem.1 (h c _)⟩
  | @spoken opening h answer ended =>
    have hlast : (opening ++ [(⟨.converse c, answer⟩ : Link.Event), ⟨.hangUp, ended⟩]).getLast?
        = some ⟨.hangUp, ended⟩ := by simp
    rw [hlast]
    constructor
    · intro hvalue
      match ended, answer with
      | some (), some (.ok found) =>
        cases hvalue
        exact ⟨List.mem_append_right _ List.mem_cons_self, rfl⟩
    · rintro ⟨hmem, hended⟩
      obtain rfl := eq_of_mem h hmem
      cases hended
      rfl

/-- A failure that is final is what the conversation has come to. -/
theorem mem_of_final {cause : NodeError} (h : Spoken s c log (.error cause)) (hcause : cause.isRetryable = false) :
    (⟨.converse c, some (.error cause)⟩ : Link.Event) ∈ log := by
  generalize houtcome : (Except.error cause : Except NodeError c.Result) = outcome at h
  cases h with
  | unopened _ hagain =>
    cases houtcome
    rw [hcause] at hagain
    cases hagain
  | spoken h answer ended =>
    match ended, answer with
    | some (), some (.error e) =>
      cases houtcome
      exact List.mem_append_right _ List.mem_cons_self
    | some (), none | none, _ =>
      cases houtcome
      cases hcause

end Spoken

end Attempt

end BlockFeed
