import BlockFeed.Node.Client
import BlockFeed.Node.Tracker
import BlockFeed.Proofs.Transcript

/-!
# Connections of an attempt

An attempt passes the gate, reaches the node, has its connection counted, negotiates, leaves the gate,
converses, and ends the connection (`Attempt.Step`). Whatever comes of any of this, it goes through its phases
in that order, and ends outside the gate and without a connection (`NodeCall.at_of_ends`). A negotiation or a
conversation takes place only while a connection is held that has been opened since the attempt began.

Transcripts of that kind are balanced (`Attempt.Path.balanced`): they leave the tracker as it was, and at no
moment do they hold two connections.
-/

namespace BlockFeed

namespace Attempt

/-! ## Phases -/

/-- How far an attempt has come with a connection. -/
inductive Phase where
  /-- Outside the gate, without a connection. -/
  | idle
  /-- Inside the gate, without a connection. -/
  | inside
  /-- Inside the gate, with a connection that does not count yet. -/
  | reached
  /-- Inside the gate, with a connection. -/
  | opening
  /-- Outside the gate, with a connection. -/
  | connected

/-- What may be asked in a phase, and the phase after the answer. -/
inductive Step : Phase → Link.Event → Phase → Prop
  | note {phase : Phase} (m : Measurement) : Step phase ⟨.note m, ()⟩ phase
  | turnAway : Step .idle ⟨.tryGate, false⟩ .idle
  | awaitGate (answer : Option Unit) : Step .idle ⟨.awaitGate, answer⟩ .idle
  | enter : Step .idle ⟨.tryGate, true⟩ .inside
  | force : Step .idle ⟨.forceGate, ()⟩ .inside
  | reach (address : String) (limit : Duration) :
      Step .inside ⟨.connect address limit, some .connected⟩ .reached
  | miss (address : String) (limit : Duration) {answer : Option ConnectOutcome}
      (h : answer ≠ some .connected) : Step .inside ⟨.connect address limit, answer⟩ .inside
  | leaveAlone : Step .inside ⟨.leaveGate, ()⟩ .idle
  | track : Step .reached ⟨.track, ()⟩ .opening
  | negotiate (magic : UInt64) (limit : Duration) (answer : Option (Except ConnectionError UInt64)) :
      Step .opening ⟨.negotiate magic limit, answer⟩ .opening
  | leave : Step .opening ⟨.leaveGate, ()⟩ .connected
  | converse (c : Conversation) (answer : Option (Except NodeError c.Result)) :
      Step .connected ⟨.converse c, answer⟩ .connected
  | hangUp (answer : Option Unit) : Step .connected ⟨.hangUp, answer⟩ .idle

/-- A transcript leads from a phase to another. -/
inductive Path (start : Phase) : List Link.Event → Phase → Prop
  | nil : Path start [] start
  | snoc {log : List Link.Event} {phase next : Phase} {event : Link.Event} (h : Path start log phase)
      (hstep : Step phase event next) : Path start (log ++ [event]) next

/-- A part of a transcript from its beginning leads somewhere. -/
theorem Path.of_prefix {start finish : Phase} {log part : List Link.Event} (h : Path start log finish)
    (hpart : part <+: log) : ∃ phase, Path start part phase := by
  induction h with
  | nil => exact ⟨start, List.prefix_nil.mp hpart ▸ .nil⟩
  | @snoc log phase next event hpath hstep ih =>
    rcases List.prefix_concat_iff.mp hpart with rfl | hpart
    · exact ⟨next, hpath.snoc hstep⟩
    · exact ih hpart

/-! ## The tracker -/

/-- Whether somebody in a phase is inside the gate. -/
def Phase.openings : Phase → Nat
  | .inside | .reached | .opening => 1
  | .idle | .connected => 0

/-- The connections that count in a phase. -/
def Phase.connections : Phase → Nat
  | .opening | .connected => 1
  | .idle | .inside | .reached => 0

end Attempt

namespace Tracker

/-- The tracker after a question and its answer. -/
def after (t : Tracker) : Link.Event → Tracker
  | ⟨.tryGate, true⟩ | ⟨.forceGate, _⟩ => t.force
  | ⟨.leaveGate, _⟩ => t.leave
  | ⟨.track, _⟩ => t.track
  | ⟨.hangUp, _⟩ => t.untrack
  | _ => t

/-- The tracker after a transcript. -/
def afterAll (t : Tracker) (log : List Link.Event) : Tracker := log.foldl after t

theorem afterAll_append (t : Tracker) (log more : List Link.Event) :
    t.afterAll (log ++ more) = (t.afterAll log).afterAll more :=
  List.foldl_append

end Tracker

/-- A transcript leaves every tracker as it was, and until then at most one more connection is open. -/
structure Balanced (log : List Link.Event) : Prop where
  bounded : ∀ (t : Tracker) (part : List Link.Event), part <+: log →
    t.openConnections ≤ (t.afterAll part).openConnections
      ∧ (t.afterAll part).openConnections ≤ t.openConnections + 1
  settled : ∀ t : Tracker, t.afterAll log = t

namespace Balanced

theorem nil : Balanced [] where
  bounded t part hpart := by
    rw [List.prefix_nil.mp hpart]
    exact ⟨Nat.le_refl _, Nat.le_succ _⟩
  settled _ := rfl

theorem append {log more : List Link.Event} (h : Balanced log) (hmore : Balanced more) :
    Balanced (log ++ more) where
  bounded t part hpart := by
    rcases List.prefix_or_prefix_of_prefix hpart (List.prefix_append log more) with hbefore | ⟨rest, rfl⟩
    · exact h.bounded t part hbefore
    · rw [Tracker.afterAll_append, h.settled]
      exact hmore.bounded t rest (List.prefix_append_right_inj log |>.mp hpart)
  settled t := by rw [Tracker.afterAll_append, h.settled, hmore.settled]

/-- A question that has nothing to do with the tracker. -/
theorem singleton {event : Link.Event} (h : ∀ t : Tracker, t.after event = t) : Balanced [event] where
  bounded t part hpart := by
    have hafter : t.afterAll part = t := by
      rcases List.prefix_concat_iff.mp (show part <+: [] ++ [event] from hpart) with rfl | hnil
      · exact h t
      · rw [List.prefix_nil.mp hnil]
        rfl
    rw [hafter]
    exact ⟨Nat.le_refl _, Nat.le_succ _⟩
  settled := h

end Balanced

namespace Attempt

/-- What is counted while an attempt goes from phase to phase. -/
theorem Step.counts {phase next : Phase} {event : Link.Event} (h : Step phase event next) {t : Tracker}
    {connections openings : Nat} (hconnections : t.openConnections = connections + phase.connections)
    (hopenings : t.opening = openings + phase.openings) :
    (t.after event).openConnections = connections + next.connections
      ∧ (t.after event).opening = openings + next.openings := by
  cases h <;> simp only [Phase.connections, Phase.openings] at hconnections hopenings ⊢ <;>
    simp [Tracker.after, Tracker.force, Tracker.leave, Tracker.track, Tracker.untrack, hconnections,
      hopenings]

theorem Path.counts {phase : Phase} {log : List Link.Event} (h : Path .idle log phase) (t : Tracker) :
    (t.afterAll log).openConnections = t.openConnections + phase.connections
      ∧ (t.afterAll log).opening = t.opening + phase.openings := by
  induction h with
  | nil => exact ⟨rfl, rfl⟩
  | snoc hpath hstep ih =>
    rw [Tracker.afterAll_append]
    exact hstep.counts ih.1 ih.2

theorem Phase.connections_le (phase : Phase) : phase.connections ≤ 1 := by
  cases phase <;> decide

/-- What begins and ends without a connection is balanced. -/
theorem Path.balanced {log : List Link.Event} (h : Path .idle log .idle) : Balanced log where
  bounded t part hpart := by
    obtain ⟨phase, hpath⟩ := h.of_prefix hpart
    have hcounts := (hpath.counts t).1
    have hone := phase.connections_le
    omega
  settled t := by
    obtain ⟨hconnections, hopenings⟩ := h.counts t
    calc t.afterAll log = ⟨(t.afterAll log).openConnections, (t.afterAll log).opening⟩ := rfl
      _ = ⟨t.openConnections, t.opening⟩ := by rw [hconnections, hopenings]; rfl
      _ = t := rfl

/-! ## The parts of an attempt -/

/-- The question is whether the node can be reached. -/
def isConnect : Link.Event → Bool
  | ⟨.connect _ _, _⟩ => true
  | _ => false

/-- A transcript leads to a phase, with a greatest number of connects. -/
structure At (phase : Phase) (connects : Nat) (log : List Link.Event) : Prop where
  path : Path .idle log phase
  connects_le : log.countP isConnect ≤ connects

theorem At.mono {phase : Phase} {connects more : Nat} {log : List Link.Event} (h : At phase connects log)
    (hle : connects ≤ more) : At phase more log :=
  ⟨h.path, Nat.le_trans h.connects_le hle⟩

theorem At.snoc {phase next : Phase} {connects : Nat} {log : List Link.Event} {event : Link.Event}
    (h : At phase connects log) (hstep : Step phase event next) :
    At next (connects + (isConnect event).toNat) (log ++ [event]) where
  path := h.path.snoc hstep
  connects_le := by
    have hle := h.connects_le
    rw [List.countP_append, List.countP_singleton]
    cases isConnect event <;> simp <;> omega

variable {σ ε α β : Type}

/-- A part of an attempt leads from a phase to one that depends on its value, or to another if it fails; the
greatest number of connects is given for the beginning and for the end. -/
def Leads (start : Phase) (before : Nat) (ok : α → Phase) (failed : Phase) (connects : Nat)
    (part : Attempt σ α) : Prop :=
  ∀ log memory, At start before log →
    part.Keeps (recorded Link σ) (fun log _ value => At (ok value) connects log)
      (fun log _ _ => At failed connects log) log memory

namespace Leads

variable {start failed finish : Phase} {before connects more : Nat}

theorem mono {ok : α → Phase} {part : Attempt σ α} (h : Leads start before ok failed connects part)
    (hle : connects ≤ more) : Leads start before ok failed more part := fun log memory hstart =>
  (h log memory hstart).mono (fun _ _ _ hvalue => hvalue.mono hle) fun _ _ _ hfailed => hfailed.mono hle

/-- Connects may go on in the second part. -/
theorem bind_of_le {ok : β → Phase} {ok' : α → Phase} {part : Attempt σ β} {f : β → Attempt σ α}
    (h : Leads start before ok failed connects part)
    (hf : ∀ value, Leads (ok value) connects ok' failed more (f value)) (hle : connects ≤ more) :
    Leads start before ok' failed more (part >>= f) := by
  intro log memory hstart
  refine Routine.keeps_bind.mpr ((h log memory hstart).mono ?_ ?_)
  · exact fun log memory value hvalue => hf value log memory hvalue
  · exact fun log memory cause hfailed => hfailed.mono hle

theorem bind {ok : β → Phase} {ok' : α → Phase} {part : Attempt σ β} {f : β → Attempt σ α}
    (h : Leads start before ok failed connects part)
    (hf : ∀ value, Leads (ok value) connects ok' failed connects (f value)) :
    Leads start before ok' failed connects (part >>= f) :=
  h.bind_of_le hf (Nat.le_refl connects)

theorem pure (value : α) :
    Leads start before (fun _ => start) failed before (Routine.pure value : Attempt σ α) :=
  fun _ _ hstart => hstart

theorem fail {ok : α → Phase} (cause : NodeError) :
    Leads start before ok start before (Routine.fail cause : Attempt σ α) :=
  fun _ _ hstart => hstart

theorem ofExcept (rename : ε → NodeError) (value : Except ε α) :
    Leads start before (fun _ => start) start before (Routine.ofExcept rename value : Attempt σ α) := by
  cases value with
  | ok value => exact pure value
  | error cause => exact fail _

/-- A failure is a value like any other. -/
theorem outcome {ok : α → Phase} {part : Attempt σ α} (h : Leads start before ok failed connects part) :
    Leads start before
      (fun outcome => match outcome with
        | .ok value => ok value
        | .error _ => failed) finish connects (Routine.outcome part : Attempt σ (Except NodeError α)) :=
  fun log memory hstart => Routine.keeps_outcome.mpr (h log memory hstart)

theorem tell (query : Link.Query) {ok : query.Answer → Phase}
    (h : ∀ answer, Step start ⟨query, answer⟩ (ok answer))
    (hconnect : ∀ answer, isConnect ⟨query, answer⟩ = false) :
    Leads start before ok failed before (Attempt.tell query : Attempt σ query.Answer) := by
  intro log memory hstart
  refine Routine.keeps_recorded_ask.mpr fun answer => (hstart.snoc (h answer)).mono ?_
  rw [hconnect]
  exact Nat.le_refl before

theorem within (limit : Duration) (answer : Option α) :
    Leads start before (fun _ => start) start before (Attempt.within limit answer : Attempt σ α) := by
  cases answer with
  | some value => exact pure value
  | none => exact fail _

theorem note (m : Measurement) :
    Leads start before (fun _ => start) failed before (Attempt.note m : Attempt σ Unit) :=
  tell (.note m) (fun _ => .note m) fun _ => rfl

end Leads

/-! ## Opening a connection -/

variable {n : Nat}

theorem leads_enterGate (limit : Duration) (tries : Nat) :
    Leads .idle n (fun _ => .inside) .idle n (enterGate limit tries : Attempt σ Unit) := by
  induction tries with
  | zero => exact Leads.tell .forceGate (fun _ => .force) fun _ => rfl
  | succ tries ih =>
    have htry : Leads .idle n (fun passed => bif passed then .inside else .idle) .idle n
        (tell .tryGate : Attempt σ Bool) := by
      refine Leads.tell .tryGate (fun answer => ?_) fun _ => rfl
      cases (answer : Bool) with
      | true => exact .enter
      | false => exact .turnAway
    have hwait : Leads .idle n (fun _ => .idle) .idle n (tell .awaitGate : Attempt σ (Option Unit)) :=
      Leads.tell .awaitGate .awaitGate fun _ => rfl
    refine htry.bind fun passed => ?_
    cases passed with
    | true => exact Leads.pure ()
    | false => exact hwait.bind fun waited => (Leads.within limit waited).bind fun _ => ih

/-- The gate is left, with a connection or without one. -/
theorem leads_insideGate {limit : Duration} {work : Attempt σ α}
    (h : Leads .inside n (fun _ => .opening) .inside (n + 1) work) :
    Leads .idle n (fun _ => .connected) .idle (n + 1) (insideGate limit work) := by
  refine (leads_enterGate limit gateTries).bind_of_le (fun _ => h.outcome.bind fun outcome => ?_)
    (Nat.le_succ n)
  cases outcome with
  | ok value =>
    exact (Leads.tell .leaveGate (fun _ => .leave) fun _ => rfl).bind fun _ => Leads.pure value
  | error cause =>
    exact (Leads.tell .leaveGate (fun _ => .leaveAlone) fun _ => rfl).bind fun _ => Leads.fail cause

theorem leads_connect (address : String) (limit : Duration) {failed : Phase} :
    Leads .inside n (fun answer => if answer = some .connected then .reached else .inside) failed (n + 1)
      (tell (.connect address limit) : Attempt σ (Option ConnectOutcome)) := by
  intro log memory hstart
  refine Routine.keeps_recorded_ask.mpr fun (answer : Option ConnectOutcome) => ?_
  have hstep : Step .inside ⟨.connect address limit, answer⟩
      (if answer = some .connected then .reached else .inside) := by
    split
    · rename_i hanswer
      exact hanswer ▸ .reach address limit
    · rename_i hanswer
      exact .miss address limit hanswer
  exact hstart.snoc hstep

theorem leads_reach (s : NodeSettings) :
    Leads .inside n (fun _ => .opening) .inside (n + 1) (reach s : Attempt σ Unit) := by
  refine (leads_connect s.address s.connectTimeout).bind fun answer => ?_
  match answer with
  | none => exact Leads.fail _
  | some .connected => exact Leads.tell .track (fun _ => .track) fun _ => rfl
  | some .failed => exact (Leads.note _).bind fun _ => Leads.fail _
  | some .timedOut => exact (Leads.note _).bind fun _ => Leads.fail _

theorem leads_hangUp (s : NodeSettings) :
    Leads .connected n (fun _ => .idle) .idle n (hangUp s : Attempt σ Unit) :=
  (Leads.tell .hangUp .hangUp fun _ => rfl).bind fun ended => Leads.within s.callTimeout ended

theorem leads_giveUp (s : NodeSettings) (error : NodeError) {ok : α → Phase} :
    Leads .connected n ok .idle n (giveUp s error : Attempt σ α) :=
  (leads_hangUp s).bind fun _ => Leads.fail error

theorem leads_openConnection (s : NodeSettings) :
    Leads .idle n (fun _ => .connected) .idle (n + 1) (openConnection s : Attempt σ UInt64) := by
  have hnegotiate : Leads .opening (n + 1) (fun _ => .opening) .inside (n + 1)
      (tell (.negotiate s.networkMagic s.handshakeTimeout) :
        Attempt σ (Option (Except ConnectionError UInt64))) :=
    Leads.tell (.negotiate _ _) (.negotiate _ _) fun _ => rfl
  refine (leads_insideGate ((leads_reach s).bind fun _ => hnegotiate)).bind fun answer => ?_
  match answer with
  | none => exact leads_giveUp s _
  | some (.ok version) => exact (Leads.note _).bind fun _ => Leads.pure version
  | some (.error _) => exact (Leads.note _).bind fun _ => leads_giveUp s _

/-! ## Whole attempts -/

theorem leads_converse (s : NodeSettings) (c : Conversation) :
    Leads .idle n (fun _ => .idle) .idle (n + 1) (converse s c : Attempt σ c.Result) := by
  have hconverse : Leads .connected (n + 1) (fun _ => .connected) .idle (n + 1)
      (tell (.converse c) : Attempt σ (Option (Except NodeError c.Result))) :=
    Leads.tell (.converse c) (.converse c) fun _ => rfl
  refine (leads_openConnection s).bind fun _ => hconverse.bind fun answer => (leads_hangUp s).bind fun _ => ?_
  exact (Leads.within s.callTimeout answer).bind fun outcome => Leads.ofExcept id outcome

theorem leads_orMissing {phase : Phase} (missing : Missing) (found : Option α) :
    Leads phase n (fun _ => phase) phase n (orMissing missing found : Attempt σ α) := by
  cases found with
  | some value => exact Leads.pure value
  | none => exact Leads.fail _

theorem leads_fetchBlock (s : NodeSettings) (point : Point) :
    Leads .idle n (fun _ => .idle) .idle (n + 1) (fetchBlock s point : Attempt σ Bytes) :=
  (leads_converse s (.fetchBlock point)).bind fun found => leads_orMissing _ found

theorem leads_fetchBlocks (s : NodeSettings) (first last : Point) :
    Leads .idle n (fun _ => .idle) .idle (n + 1) (fetchBlocks s first last : Attempt σ (List Bytes)) :=
  (leads_converse s (.fetchBlocks first last)).bind fun found => leads_orMissing _ found

/-- The second connection is opened when the first one has ended. -/
theorem leads_tipHeader (s : NodeSettings) :
    Leads .idle n (fun _ => .idle) .idle (n + 2) (tipHeader s : Attempt σ Header) := by
  refine (leads_converse s .readTip).bind_of_le (fun tip => ?_) (Nat.le_succ (n + 1))
  split
  · exact (Leads.fail _).mono (Nat.le_succ (n + 1))
  · exact (leads_fetchBlock s _).bind fun body => Leads.ofExcept _ _

end Attempt

namespace NodeCall

/-- The greatest number of connections that an attempt opens. -/
def connections : NodeCall → Nat
  | .tipHeader => 2
  | _ => 1

variable {σ : Type}

theorem leads_attempt (s : NodeSettings) (call : NodeCall) :
    Attempt.Leads .idle 0 (fun _ => .idle) .idle call.connections
      (call.attempt s : Attempt σ call.Result) := by
  cases call with
  | tipHeader => exact Attempt.leads_tipHeader s
  | block point => exact Attempt.leads_fetchBlock s point
  | blocks first last => exact Attempt.leads_fetchBlocks s first last
  | nextPoints limit => exact Attempt.leads_converse s _
  | pointsAfter start limit => exact Attempt.leads_converse s _
  | intersection point => exact Attempt.leads_converse s _

/-- However an attempt ends, it has gone through its phases. -/
theorem at_of_ends {s : NodeSettings} {call : NodeCall} {before after : σ} {log : List Link.Event}
    {outcome : Except NodeError call.Result} (h : ((call.attempt s).start before).Ends log after outcome) :
    Attempt.At .idle call.connections log := by
  have hkeeps := leads_attempt s call [] before ⟨.nil, Nat.le_refl 0⟩
  have hend := Run.keeps_recorded_iff.mp hkeeps log after outcome h
  cases outcome <;> exact hend

end NodeCall

end BlockFeed
