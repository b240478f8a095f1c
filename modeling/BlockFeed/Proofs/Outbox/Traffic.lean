import BlockFeed.FeedState
import BlockFeed.Proofs.Fetcher.Iteration

/-!
# Traffic through the outbox

Anybody may hand batches on, one after the other, with any blocks and heights, while the consumer takes
blocks whenever it likes, also between two blocks of a batch. The queue alone sees to it that what it
delivers ascends strictly.

A batch is accepted exactly if it is admissible after the height that is buffered (`Admits`); otherwise it
is refused before the first of its blocks is sent. That is a contract of a single call (`handing`), kept by
the routine that hands a batch on (`keeps_enqueue`). The calls that are over form a history in which each
begins with the height that the one before has left (`History`), and one invariant about history, queue
and call under way survives every move (`Sound.move`).

Main statement: what holds of every run (`ordered_of_moves`).
-/

namespace BlockFeed.Outbox

open Surroundings (Query)

/-! ## Runs -/

/-- A call that hands a batch on. -/
structure Call where
  blocks : List Block
  height : UInt64
  /-- The height that was buffered when the call began. -/
  before : Option UInt64
  /-- The blocks that have entered the queue so far. -/
  sent : List Block := []

/-- A call that is over. -/
structure Settled extends Call where
  /-- The height that was buffered when the call ended. -/
  after : Option UInt64
  outcome : Except (Abort FetchError) Unit

/-- Whether the batch has been accepted. -/
def Settled.accepted (c : Settled) : Bool :=
  match c.outcome with
  | .ok _ => true
  | .error _ => false

/-- The call after an answer: a block that is taken has entered the queue. -/
def Call.told (call : Call) : (query : Query) → query.Answer → Call
  | .send block, true => { call with sent := call.sent ++ [block] }
  | _, _ => call

/-- What is being done. -/
inductive Phase where
  | idle
  | handing (call : Call) (run : Run Surroundings BypassRanges (Except (Abort FetchError) Unit))

/-- The blocks of the call under way that have entered the queue. -/
def Phase.sent : Phase → List Block
  | .idle => []
  | .handing call _ => call.sent

/-- The queue in use. -/
structure Traffic where
  shared : FeedState
  /-- The blocks that the consumer has taken. -/
  received : List Block := []
  phase : Phase := .idle
  /-- The calls that are over, the latest first. -/
  past : List Settled := []

/-- What happens next. -/
inductive Move where
  /-- Somebody hands a batch on, unless a call is under way. -/
  | call (blocks : List Block) (height : UInt64)
  /-- The call under way goes on to its next question, or ends. -/
  | proceed
  /-- The consumer takes blocks, up to a number of them. -/
  | receive (limit : Option Nat)

/-- The move begins a call. -/
def Move.isCall : Move → Bool
  | .call _ _ => true
  | _ => false

namespace Traffic

/-- Nothing has happened to a queue of some capacity. -/
def start (capacity : Nat) : Traffic := { shared := { outbox := .new capacity } }

/-- The blocks that have been delivered, taken or not. -/
def delivered (s : Traffic) : List Block := s.received ++ s.shared.outbox.queue

/-- The call under way goes on. It waits where a block finds no room. -/
def proceed (s : Traffic) : Traffic :=
  match s.phase with
  | .idle => s
  | .handing call (.done _ outcome) =>
    { s with phase := .idle, past := ⟨call, s.shared.outbox.buffered, outcome⟩ :: s.past }
  | .handing call (.wait _ query resume) =>
    match s.shared.reply 0 query with
    | (.answered answer, shared) =>
      { s with shared, phase := .handing (call.told query answer) (resume answer) }
    | _ => s

/-- What a move leads to. -/
def move (s : Traffic) : Move → Traffic
  | .call blocks height =>
    match s.phase with
    | .idle =>
      let call : Call := { blocks, height, before := s.shared.outbox.buffered }
      { s with phase := .handing call ((Fetcher.enqueue blocks height).start ⟨[]⟩) }
    | .handing _ _ => s
  | .proceed => s.proceed
  | .receive limit =>
    { s with
      shared := (s.shared.drain limit).2
      received := s.received ++ (s.shared.drain limit).1.getD [] }

/-- What moves lead to. -/
def moves (s : Traffic) (ms : List Move) : Traffic := ms.foldl move s

end Traffic

/-! ## Admissible batches -/

/-- A batch is admissible after a height: it moves on from there, and its blocks ascend strictly between that
height and its own. -/
structure Admits (previous : Option UInt64) (blocks : List Block) (height : UInt64) : Prop where
  advances : ∀ p, previous = some p → p < height
  ascending : (blocks.map Block.height).Pairwise (· < ·)
  above : ∀ block ∈ blocks, ∀ p, previous = some p → p < block.height
  below : ∀ block ∈ blocks, block.height ≤ height

section
variable {previous : Option UInt64} {blocks : List Block} {height : UInt64}

/-- Blocks that are in order ascend above the last height and stay below that of the batch. -/
theorem ascending_of_checkOrder (h : checkOrder height previous blocks = .ok ()) :
    (blocks.map Block.height).Pairwise (· < ·)
      ∧ (∀ block ∈ blocks, ∀ p, previous = some p → p < block.height)
      ∧ ∀ block ∈ blocks, block.height ≤ height := by
  induction blocks generalizing previous with
  | nil => exact ⟨.nil, nofun, nofun⟩
  | cons block rest ih =>
    rw [checkOrder] at h
    split at h
    · cases h
    · rename_i hfits
      simp only [Bool.or_eq_true, decide_eq_true_eq, not_or, UInt64.not_lt] at hfits
      obtain ⟨hlast, hheight⟩ := hfits
      obtain ⟨hascending, habove, hbelow⟩ := ih h
      have hfirst : ∀ p, previous = some p → p < block.height := by
        rintro p rfl
        simpa using hlast
      have hrest : ∀ other ∈ rest, block.height < other.height := fun other hother =>
        habove other hother _ rfl
      refine ⟨List.pairwise_cons.mpr ⟨?_, hascending⟩, ?_, List.forall_mem_cons.mpr ⟨hheight, hbelow⟩⟩
      · exact List.forall_mem_map.mpr hrest
      · refine List.forall_mem_cons.mpr ⟨hfirst, fun other hother p hp => ?_⟩
        exact UInt64.lt_trans (hfirst p hp) (hrest other hother)

/-- The check lets exactly the admissible batches pass. -/
theorem checkBatch_eq_ok_iff :
    checkBatch previous blocks height = .ok () ↔ Admits previous blocks height := by
  constructor
  · intro h
    cases previous with
    | none =>
      obtain ⟨hascending, habove, hbelow⟩ := ascending_of_checkOrder h
      exact ⟨nofun, hascending, habove, hbelow⟩
    | some p =>
      rw [checkBatch] at h
      split at h
      · cases h
      · rename_i hmoves
        obtain ⟨hascending, habove, hbelow⟩ := ascending_of_checkOrder h
        refine ⟨?_, hascending, habove, hbelow⟩
        rintro _ ⟨⟩
        exact UInt64.not_le.mp hmoves
  · intro h
    have horder := checkOrder_of_ascending h.ascending h.above h.below
    cases previous with
    | none => exact horder
    | some p => rw [checkBatch, if_neg (UInt64.not_le.mpr (h.advances p rfl)), horder]

/-- A batch that the check does not let pass is not admissible. -/
theorem not_admits_of_checkBatch {error : DispatchError}
    (h : checkBatch previous blocks height = .error error) : ¬ Admits previous blocks height := by
  intro hadmits
  rw [checkBatch_eq_ok_iff.mpr hadmits] at h
  cases h

end

/-! ## A single call -/

/-- How far a call has come. -/
structure Progress where
  buffered : Option UInt64
  sent : List Block

/-- How far a call has come after an answer. -/
def Progress.next (p : Progress) : Query → Progress
  | .send block => { p with sent := p.sent ++ [block] }
  | .commit height => { p with buffered := some height }
  | _ => p

section
variable {before : Option UInt64} {blocks : List Block} {height : UInt64} {p : Progress}

/-- What a call that began with a buffered height may ask: that height before anything else, then that the
blocks of an admissible batch enter one after the other, and at last that its height counts. -/
def MayAsk (before : Option UInt64) (blocks : List Block) (height : UInt64) (p : Progress) :
    Query → Prop
  | .buffered => p = ⟨before, []⟩
  | .send block => Admits before blocks height ∧ p.buffered = before ∧ p.sent ++ [block] <+: blocks
  | .commit h => Admits before blocks height ∧ p = ⟨before, blocks⟩ ∧ h = height
  | _ => False

/-- What the queue tells a call while there is a consumer. -/
def Tells (p : Progress) : (query : Query) → query.Answer → Prop
  | .buffered, answer => answer = p.buffered
  | .send _, answer => answer = true
  | _, _ => True

/-- What is asked of a call. -/
def handing (before : Option UInt64) (blocks : List Block) (height : UInt64) :
    Contract Surroundings BypassRanges Progress where
  allows p _ query := MayAsk before blocks height p query
  answers p query answer p' := Tells p query answer ∧ p' = p.next query

/-- What has become of a call that is over. -/
def Comes (before : Option UInt64) (blocks : List Block) (height : UInt64) (p : Progress) :
    Except (Abort FetchError) Unit → Prop
  | .ok _ => Admits before blocks height ∧ p = ⟨some height, blocks⟩
  | .error cause => p = ⟨before, []⟩ ∧
    ∃ error, cause = .failed (.dispatch error) ∧ checkBatch before blocks height = .error error

/-- A call goes as it should from some point on. -/
def Goes (before : Option UInt64) (blocks : List Block) (height : UInt64) (p : Progress)
    (run : Run Surroundings BypassRanges (Except (Abort FetchError) Unit)) : Prop :=
  run.Keeps (handing before blocks height) (fun p _ outcome => Comes before blocks height p outcome) p

/-- The blocks of an admissible batch enter one after the other. -/
theorem keeps_sendAll (hadmits : Admits before blocks height) {sent rest : List Block}
    (hblocks : sent ++ rest = blocks) (memory : BypassRanges) :
    (Fetcher.sendAll rest).Keeps (handing before blocks height) (fun p _ _ => p = ⟨before, blocks⟩)
      (fun _ _ _ => False) ⟨before, sent⟩ memory := by
  induction rest generalizing sent with
  | nil =>
    rw [List.append_nil] at hblocks
    exact Routine.keeps_pure.mpr (by rw [hblocks])
  | cons block rest ih =>
    rw [List.append_cons] at hblocks
    refine Routine.keeps_bind.mpr (Routine.keeps_ask.mpr ⟨⟨hadmits, rfl, rest, hblocks⟩, ?_⟩)
    rintro answer _ ⟨htells, rfl⟩
    obtain rfl : answer = true := htells
    exact ih hblocks

/-- A batch is handed on as is asked. -/
theorem keeps_enqueue (before : Option UInt64) (blocks : List Block) (height : UInt64)
    (memory : BypassRanges) :
    Goes before blocks height ⟨before, []⟩ ((Fetcher.enqueue blocks height).start memory) := by
  have hkeeps : (Fetcher.enqueue blocks height).Keeps (handing before blocks height)
      (fun p _ _ => Comes before blocks height p (.ok ()))
      (fun p _ cause => Comes before blocks height p (.error cause)) ⟨before, []⟩ memory := by
    refine Routine.keeps_bind.mpr (Routine.keeps_ask.mpr ⟨rfl, ?_⟩)
    rintro previous _ ⟨htells, rfl⟩
    obtain rfl : previous = before := htells
    refine Routine.keeps_bind.mpr (Routine.keeps_ofExcept.mpr ?_)
    cases hcheck : checkBatch previous blocks height with
    | error error => exact ⟨rfl, error, rfl, hcheck⟩
    | ok =>
      have hadmits := checkBatch_eq_ok_iff.mp hcheck
      refine Routine.keeps_bind.mpr ((keeps_sendAll hadmits (List.nil_append _) memory).mono ?_
        fun _ _ _ hfalse => hfalse.elim)
      rintro _ _ _ rfl
      refine Routine.keeps_ask.mpr ⟨⟨hadmits, rfl, rfl⟩, ?_⟩
      rintro _ _ ⟨-, rfl⟩
      exact ⟨hadmits, rfl⟩
  refine Run.Keeps.mono hkeeps fun p memory outcome hends => ?_
  cases outcome <;> exact hends

/-- How far a call under way has come: to nothing, or to a part of an admissible batch. -/
def Progress.Fits (before : Option UInt64) (blocks : List Block) (height : UInt64) (p : Progress) :
    Prop :=
  p = ⟨before, []⟩ ∨
    Admits before blocks height ∧ p.sent <+: blocks ∧ (p.buffered = before ∨ p = ⟨some height, blocks⟩)

theorem Goes.fits {run : Run Surroundings BypassRanges (Except (Abort FetchError) Unit)}
    (h : Goes before blocks height p run) : p.Fits before blocks height := by
  cases run with
  | done memory outcome =>
    cases outcome with
    | ok =>
      obtain ⟨hadmits, rfl⟩ := h
      exact .inr ⟨hadmits, List.prefix_rfl, .inr rfl⟩
    | error cause => exact .inl h.1
  | wait memory query resume =>
    have hasks : MayAsk before blocks height p query := h.1
    cases query with
    | buffered => exact .inl hasks
    | send block =>
      obtain ⟨hadmits, hbuffered, hprefix⟩ := hasks
      exact .inr ⟨hadmits, (List.prefix_append _ _).trans hprefix, .inl hbuffered⟩
    | commit =>
      obtain ⟨hadmits, rfl, -⟩ := hasks
      exact .inr ⟨hadmits, List.prefix_rfl, .inl rfl⟩
    | _ => cases hasks

end

/-! ## Calls one after the other -/

/-- A call has come out as it should. -/
def Settled.Sound (c : Settled) : Prop :=
  Comes c.before c.blocks c.height ⟨c.after, c.sent⟩ c.outcome

/-- The height that the last of some calls has left; nothing is buffered before the first. -/
def leftBy (past : List Settled) : Option UInt64 := past.head?.bind Settled.after

/-- The blocks that calls have let enter the queue, the earliest first. -/
def sentBy (past : List Settled) : List Block := past.reverse.flatMap (·.sent)

theorem sentBy_cons (c : Settled) (past : List Settled) : sentBy (c :: past) = sentBy past ++ c.sent := by
  simp [sentBy]

/-- Calls that have come out as they should, the latest first. Each has begun with the height that the one
before has left. -/
inductive History : List Settled → Option UInt64 → Prop
  | start : History [] none
  | call {past : List Settled} {c : Settled} (h : History past c.before) (hsound : c.Sound) :
      History (c :: past) c.after

/-- Blocks lie up to a height; there are none if there is no height. -/
def UpTo (bound : Option UInt64) (blocks : List Block) : Prop :=
  ∀ block ∈ blocks, ∃ h, bound = some h ∧ block.height ≤ h

section
variable {before buffered : Option UInt64} {blocks sent earlier : List Block} {height : UInt64}
  {past : List Settled} {c : Settled}

/-- Blocks of an admissible batch ascend further. -/
theorem Admits.ascending_append (h : Admits before blocks height) (hsent : sent <+: blocks)
    (hascending : (earlier.map Block.height).Pairwise (· < ·)) (hupTo : UpTo before earlier) :
    ((earlier ++ sent).map Block.height).Pairwise (· < ·) := by
  rw [List.map_append, List.pairwise_append]
  refine ⟨hascending, h.ascending.sublist (hsent.sublist.map _), ?_⟩
  simp only [List.forall_mem_map]
  intro old hold new hnew
  obtain ⟨p, hp, hle⟩ := hupTo old hold
  exact UInt64.lt_of_le_of_lt hle (h.above new (hsent.subset hnew) p hp)

/-- An admissible batch moves the height on past everything. -/
theorem Admits.upTo_append (h : Admits before blocks height) (hupTo : UpTo before earlier) :
    UpTo (some height) (earlier ++ blocks) := by
  intro block hblock
  refine ⟨height, rfl, ?_⟩
  rcases List.mem_append.mp hblock with hold | hnew
  · obtain ⟨p, hp, hle⟩ := hupTo block hold
    exact UInt64.le_trans hle (UInt64.le_of_lt (h.advances p hp))
  · exact h.below block hnew

namespace Settled.Sound

theorem of_accepted (h : c.Sound) (haccepted : c.accepted = true) :
    Admits c.before c.blocks c.height ∧ c.after = some c.height ∧ c.sent = c.blocks := by
  unfold Settled.Sound at h
  unfold Settled.accepted at haccepted
  split at haccepted
  · rename_i houtcome
    rw [houtcome] at h
    obtain ⟨hadmits, hprogress⟩ := h
    exact ⟨hadmits, congrArg Progress.buffered hprogress, congrArg Progress.sent hprogress⟩
  · cases haccepted

theorem of_refused (h : c.Sound) (haccepted : c.accepted = false) :
    c.after = c.before ∧ c.sent = [] ∧ ∃ error, c.outcome = .error (.failed (.dispatch error)) ∧
      checkBatch c.before c.blocks c.height = .error error := by
  unfold Settled.Sound at h
  unfold Settled.accepted at haccepted
  split at haccepted
  · cases haccepted
  · rename_i cause houtcome
    rw [houtcome] at h
    obtain ⟨hprogress, error, rfl, hcheck⟩ := h
    exact ⟨congrArg Progress.buffered hprogress, congrArg Progress.sent hprogress, error, houtcome,
      hcheck⟩

/-- A call is accepted exactly if its batch is admissible. -/
theorem accepted_iff (h : c.Sound) : c.accepted = true ↔ Admits c.before c.blocks c.height := by
  refine ⟨fun haccepted => (h.of_accepted haccepted).1, fun hadmits => ?_⟩
  by_contra hrefused
  obtain ⟨-, -, error, -, hcheck⟩ := h.of_refused (Bool.eq_false_iff.mpr hrefused)
  exact not_admits_of_checkBatch hcheck hadmits

end Settled.Sound

namespace History

theorem buffered_eq (h : History past buffered) : buffered = leftBy past := by
  cases h <;> rfl

/-- What the calls have sent ascends up to the height that is buffered. -/
theorem ascending (h : History past buffered) :
    ((sentBy past).map Block.height).Pairwise (· < ·) ∧ UpTo buffered (sentBy past) := by
  induction h with
  | start => exact ⟨.nil, nofun⟩
  | @call past c _ hsound ih =>
    obtain ⟨hascending, hupTo⟩ := ih
    rw [sentBy_cons]
    cases haccepted : c.accepted with
    | true =>
      obtain ⟨hadmits, hafter, hsent⟩ := hsound.of_accepted haccepted
      rw [hafter, hsent]
      exact ⟨hadmits.ascending_append List.prefix_rfl hascending hupTo, hadmits.upTo_append hupTo⟩
    | false =>
      obtain ⟨hafter, hsent, -⟩ := hsound.of_refused haccepted
      rw [hafter, hsent, List.append_nil]
      exact ⟨hascending, hupTo⟩

/-- The heights of accepted calls ascend up to the one that is buffered. -/
theorem heights_ascending (h : History past buffered) :
    ((past.reverse.filter Settled.accepted).map (·.height)).Pairwise (· < ·) ∧
      ∀ c ∈ past, c.accepted = true → ∃ b, buffered = some b ∧ c.height ≤ b := by
  induction h with
  | start => exact ⟨.nil, nofun⟩
  | @call past c _ hsound ih =>
    obtain ⟨hascending, hbounded⟩ := ih
    rw [List.reverse_cons, List.filter_append, List.map_append, List.forall_mem_cons]
    cases haccepted : c.accepted with
    | true =>
      obtain ⟨hadmits, hafter, -⟩ := hsound.of_accepted haccepted
      have hbelow : ∀ d ∈ past, d.accepted = true → d.height < c.height := by
        intro d hmem hd
        obtain ⟨b, hb, hle⟩ := hbounded d hmem hd
        exact UInt64.lt_of_le_of_lt hle (hadmits.advances b hb)
      rw [hafter, List.filter_singleton, haccepted]
      refine ⟨List.pairwise_append.mpr ⟨hascending, List.pairwise_singleton _ _, ?_⟩,
        fun _ => ⟨c.height, rfl, UInt64.le_refl _⟩,
        fun d hmem hd => ⟨c.height, rfl, UInt64.le_of_lt (hbelow d hmem hd)⟩⟩
      rw [List.forall_mem_map]
      simpa using hbelow
    | false =>
      rw [(hsound.of_refused haccepted).1, List.filter_singleton, haccepted]
      exact ⟨by simpa using hascending, nofun, hbounded⟩

/-- Each call has come out as it should, and has begun with the height that the one before has left. -/
theorem linked (h : History past buffered) {later previous : List Settled}
    (hpast : past = later ++ c :: previous) : c.Sound ∧ History previous c.before := by
  induction later generalizing past buffered with
  | nil =>
    subst hpast
    cases h with
    | call h hsound => exact ⟨hsound, h⟩
  | cons d later ih =>
    subst hpast
    cases h with
    | call h _ => exact ih h rfl

theorem sound (h : History past buffered) (hmem : c ∈ past) : c.Sound := by
  obtain ⟨later, previous, hpast⟩ := List.append_of_mem hmem
  exact (h.linked hpast).1

end History

end

/-! ## Runs of moves -/

/-- The call under way is as it should be. -/
def Phase.Holds (past : List Settled) (buffered : Option UInt64) : Phase → Prop
  | .idle => History past buffered
  | .handing call run => History past call.before ∧
    Goes call.before call.blocks call.height ⟨buffered, call.sent⟩ run

/-- What holds after every move. -/
structure Sound (capacity : Nat) (s : Traffic) : Prop where
  connected : s.shared.outbox.connected = true
  capacity : s.shared.outbox.capacity = max 1 capacity
  room : s.shared.outbox.queue.length ≤ s.shared.outbox.capacity
  delivered : s.delivered = sentBy s.past ++ s.phase.sent
  phase : s.phase.Holds s.past s.shared.outbox.buffered

/-- A block finds room or waits, as long as there is a consumer. -/
theorem reply_send {shared : FeedState} (h : shared.outbox.connected = true) (block : Block) :
    shared.reply 0 (.send block) =
      if shared.outbox.freeSlots = 0 then (.noRoom, shared)
      else (.answered true, { shared with outbox := shared.outbox.push block }) := by
  show shared.send block = _
  rw [FeedState.send, h]
  rfl

namespace Sound

variable {capacity : Nat} {s : Traffic}

theorem start (capacity : Nat) : Sound capacity (Traffic.start capacity) :=
  ⟨rfl, rfl, Nat.zero_le _, rfl, .start⟩

/-- A call begins. -/
theorem call (h : Sound capacity s) (blocks : List Block) (height : UInt64) :
    Sound capacity (s.move (.call blocks height)) := by
  unfold Traffic.move
  have hphase := h.phase
  have hdelivered := h.delivered
  dsimp only
  split
  · rename_i hidle
    rw [hidle] at hphase hdelivered
    exact { h with delivered := hdelivered, phase := ⟨hphase, keeps_enqueue _ blocks height _⟩ }
  · exact h

/-- The consumer takes blocks. -/
theorem receive (h : Sound capacity s) (limit : Option Nat) :
    Sound capacity (s.move (.receive limit)) := by
  have hdrain : (s.shared.drain limit).1 = some (s.shared.outbox.receive limit).1 :=
    if_pos h.connected
  refine ⟨h.connected, h.capacity, ?_, ?_, h.phase⟩
  · exact (List.drop_sublist ..).length_le.trans h.room
  · refine Eq.trans ?_ h.delivered
    show s.received ++ (s.shared.drain limit).1.getD [] ++ (s.shared.outbox.receive limit).2.queue
      = s.received ++ s.shared.outbox.queue
    rw [hdrain, List.append_assoc]
    exact congrArg _ (List.take_append_drop ..)

/-- A block enters the queue. -/
theorem push (h : Sound capacity s) (hfree : s.shared.outbox.freeSlots ≠ 0) (block : Block)
    {phase : Phase} (hsent : phase.sent = s.phase.sent ++ [block])
    (hphase : phase.Holds s.past s.shared.outbox.buffered) :
    Sound capacity
      { s with shared := { s.shared with outbox := s.shared.outbox.push block }, phase } := by
  refine ⟨h.connected, h.capacity, ?_, ?_, hphase⟩
  · have hroom := h.room
    rw [Outbox.freeSlots] at hfree
    show (s.shared.outbox.queue ++ [block]).length ≤ s.shared.outbox.capacity
    rw [List.length_append, List.length_singleton]
    omega
  · show s.received ++ (s.shared.outbox.queue ++ [block]) = sentBy s.past ++ phase.sent
    rw [hsent, ← List.append_assoc, ← List.append_assoc]
    exact congrArg (· ++ [block]) h.delivered

/-- The call under way goes on, or waits for room. -/
theorem proceed (h : Sound capacity s) : Sound capacity s.proceed := by
  have hdelivered := h.delivered
  have hphase := h.phase
  unfold Traffic.proceed
  split
  · exact h
  · rename_i call memory outcome hhanding
    rw [hhanding] at hphase hdelivered
    obtain ⟨hhistory, hcomes⟩ := hphase
    refine { h with delivered := ?_, phase := hhistory.call hcomes }
    rw [sentBy_cons]
    exact hdelivered.trans (List.append_nil _).symm
  · rename_i call memory query resume hhanding
    rw [hhanding] at hphase hdelivered
    obtain ⟨hhistory, hgoes⟩ := hphase
    have hasks : MayAsk call.before call.blocks call.height ⟨s.shared.outbox.buffered, call.sent⟩ query :=
      hgoes.allows
    cases query with
    | buffered =>
      exact { h with delivered := hdelivered, phase := ⟨hhistory, hgoes.answer ⟨rfl, rfl⟩⟩ }
    | send block =>
      rw [reply_send h.connected]
      by_cases hfree : s.shared.outbox.freeSlots = 0
      · rw [if_pos hfree]
        exact h
      · rw [if_neg hfree]
        refine h.push hfree block ?_ ⟨hhistory, hgoes.answer ⟨rfl, rfl⟩⟩
        rw [hhanding]
        rfl
    | commit height =>
      exact { h with delivered := hdelivered, phase := ⟨hhistory, hgoes.answer ⟨trivial, rfl⟩⟩ }
    | _ => cases hasks

theorem move (h : Sound capacity s) (m : Move) : Sound capacity (s.move m) := by
  cases m with
  | call blocks height => exact h.call blocks height
  | proceed => exact h.proceed
  | receive limit => exact h.receive limit

theorem moves (h : Sound capacity s) (ms : List Move) : Sound capacity (s.moves ms) := by
  induction ms generalizing s with
  | nil => exact h
  | cons m ms ih => exact ih (h.move m)

/-- The calls that are over form a history. -/
theorem exists_history (h : Sound capacity s) : ∃ buffered, History s.past buffered := by
  have hphase := h.phase
  cases hcase : s.phase with
  | idle =>
    rw [hcase] at hphase
    exact ⟨_, hphase⟩
  | handing call run =>
    rw [hcase] at hphase
    exact ⟨_, hphase.1⟩

/-- Whatever has been delivered ascends. -/
theorem ascending (h : Sound capacity s) : (s.delivered.map Block.height).Pairwise (· < ·) := by
  have hphase := h.phase
  rw [h.delivered]
  cases hcase : s.phase with
  | idle =>
    rw [hcase] at hphase
    rw [Phase.sent, List.append_nil]
    exact (History.ascending hphase).1
  | handing call run =>
    rw [hcase] at hphase
    obtain ⟨hhistory, hgoes⟩ := hphase
    obtain ⟨hascending, hupTo⟩ := hhistory.ascending
    rcases hgoes.fits with hnone | ⟨hadmits, hprefix, -⟩
    · have hsent : call.sent = [] := congrArg Progress.sent hnone
      rw [Phase.sent, hsent, List.append_nil]
      exact hascending
    · exact hadmits.ascending_append hprefix hascending hupTo

/-- Once the consumer has taken everything, the question that waits is answered. -/
theorem exists_answer (h : Sound capacity s) {call : Call} {memory : BypassRanges} {query : Query}
    {resume : query.Answer → Run Surroundings BypassRanges (Except (Abort FetchError) Unit)}
    (hcase : s.phase = .handing call (.wait memory query resume)) :
    ∃ answer, (s.moves [.receive none, .proceed]).phase
        = .handing (call.told query answer) (resume answer) ∧
      (s.moves [.receive none, .proceed]).past = s.past := by
  have hphase := h.phase
  rw [hcase] at hphase
  have hasks := hphase.2.allows
  have hfree : (s.shared.drain none).2.outbox.freeSlots ≠ 0 := by
    have hcapacity := h.capacity
    show s.shared.outbox.capacity - (s.shared.outbox.queue.drop _).length ≠ 0
    rw [Option.getD_none, List.drop_length, List.length_nil]
    omega
  show ∃ answer, (Traffic.proceed { s with
      shared := (s.shared.drain none).2
      received := s.received ++ (s.shared.drain none).1.getD [] }).phase = _ ∧
    (Traffic.proceed { s with
      shared := (s.shared.drain none).2
      received := s.received ++ (s.shared.drain none).1.getD [] }).past = _
  rw [Traffic.proceed, hcase]
  cases query with
  | buffered => exact ⟨_, rfl, rfl⟩
  | send block =>
    have hconnected : (s.shared.drain none).2.outbox.connected = true := h.connected
    refine ⟨true, ?_⟩
    dsimp only
    rw [reply_send hconnected, if_neg hfree]
    exact ⟨rfl, rfl⟩
  | commit height => exact ⟨(), rfl, rfl⟩
  | _ => cases hasks

end Sound

/-- A call under way comes to its end, if the consumer makes room where it is wanted. -/
def Traffic.CanEnd (s : Traffic) (call : Call) : Prop :=
  ∃ ms : List Move, (∀ m ∈ ms, m.isCall = false) ∧ (s.moves ms).phase = .idle ∧
    ∃ c : Settled, (s.moves ms).past = c :: s.past ∧
      c.blocks = call.blocks ∧ c.height = call.height ∧ c.before = call.before

theorem told_eq (call : Call) (query : Query) (answer : query.Answer) :
    ∃ sent, call.told query answer = { call with sent } := by
  unfold Call.told
  split <;> exact ⟨_, rfl⟩

theorem Sound.canEnd {capacity : Nat} {s : Traffic} (h : Sound capacity s) {call : Call}
    {run : Run Surroundings BypassRanges (Except (Abort FetchError) Unit)}
    (hcase : s.phase = .handing call run) : s.CanEnd call := by
  -- by what is left of the call: each question is answered once there is room
  induction run generalizing s call with
  | done memory outcome =>
    refine ⟨[.proceed], by simp [Move.isCall], ?_⟩
    show s.proceed.phase = .idle ∧ ∃ c, s.proceed.past = c :: s.past ∧ _
    rw [Traffic.proceed, hcase]
    exact ⟨rfl, _, rfl, rfl, rfl, rfl⟩
  | wait memory query resume ih =>
    obtain ⟨answer, hanswer, hpast⟩ := h.exists_answer hcase
    obtain ⟨sent, htold⟩ := told_eq call query answer
    rw [htold] at hanswer
    obtain ⟨ms, hnone, hidle, c, hsettled, hsame⟩ := ih answer (h.moves [.receive none, .proceed]) hanswer
    have hmoves : s.moves ([.receive none, .proceed] ++ ms)
        = (s.moves [.receive none, .proceed]).moves ms := List.foldl_append
    refine ⟨[.receive none, .proceed] ++ ms, by simpa [Move.isCall] using hnone, ?_⟩
    rw [hmoves, hsettled, hpast]
    exact ⟨hidle, c, rfl, hsame⟩

/-! ## What holds of every run -/

/-- The stream is in order, each call fares as its batch deserves, and no room is lost. -/
structure Traffic.Ordered (capacity : Nat) (s : Traffic) : Prop where
  /-- The blocks that have been taken ascend, as do all that have been delivered. -/
  ascending : (s.received.map Block.height).Pairwise (· < ·) ∧
    (s.delivered.map Block.height).Pairwise (· < ·)
  /-- Blocks are delivered as the calls have let them enter, and taken in that order. -/
  delivered : s.delivered = sentBy s.past ++ s.phase.sent
  /-- Each call has begun with the height that the one before has left. -/
  linked : ∀ later c previous, s.past = later ++ c :: previous → c.before = leftBy previous
  /-- Exactly the admissible batches are accepted. -/
  accepted_iff : ∀ c ∈ s.past, c.accepted = true ↔ Admits c.before c.blocks c.height
  /-- Of an accepted batch all blocks are sent, and its height is buffered then. -/
  accepted : ∀ c ∈ s.past, c.accepted = true → c.sent = c.blocks ∧ c.after = some c.height
  /-- Of a refused batch no block is sent, and the buffered height is what it was. -/
  refused : ∀ c ∈ s.past, c.accepted = false → c.sent = [] ∧ c.after = c.before
  /-- The buffered height moves on with each batch that is accepted. -/
  heights : ((s.past.reverse.filter Settled.accepted).map (·.height)).Pairwise (· < ·)
  /-- Between calls the buffered height bounds everything that has been delivered. -/
  bounded : s.phase = .idle →
    s.shared.outbox.buffered = leftBy s.past ∧ UpTo s.shared.outbox.buffered s.delivered
  /-- A call under way has sent nothing, or a part of an admissible batch, and it can always end. -/
  underWay : ∀ call run, s.phase = .handing call run →
    call.before = leftBy s.past ∧ UpTo call.before (sentBy s.past) ∧
      Progress.Fits call.before call.blocks call.height ⟨s.shared.outbox.buffered, call.sent⟩ ∧
      s.CanEnd call
  /-- The free places and the blocks in the queue make up the capacity. While a block waits to enter, the
  place that becomes free next counts as free, though it is kept for this block. -/
  room : s.shared.outbox.freeSlots + s.shared.outbox.queue.length = max 1 capacity

/-- Whoever hands on what, and whenever blocks are taken: the stream is in order. -/
theorem ordered_of_moves (capacity : Nat) (ms : List Move) :
    ((Traffic.start capacity).moves ms).Ordered capacity := by
  have hsound := (Sound.start capacity).moves ms
  generalize (Traffic.start capacity).moves ms = s at hsound
  obtain ⟨buffered, hhistory⟩ := hsound.exists_history
  exact {
    ascending := ⟨hsound.ascending.sublist ((List.sublist_append_left _ _).map _), hsound.ascending⟩
    delivered := hsound.delivered
    linked := fun later c previous hpast => (hhistory.linked hpast).2.buffered_eq
    accepted_iff := fun c hmem => (hhistory.sound hmem).accepted_iff
    accepted := fun c hmem haccepted => ((hhistory.sound hmem).of_accepted haccepted).2.symm
    refused := fun c hmem hrefused =>
      have h := (hhistory.sound hmem).of_refused hrefused
      ⟨h.2.1, h.1⟩
    heights := hhistory.heights_ascending.1
    bounded := fun hidle => by
      have hphase := hsound.phase
      rw [hidle] at hphase
      rw [hsound.delivered, hidle, Phase.sent, List.append_nil]
      exact ⟨hphase.buffered_eq, hphase.ascending.2⟩
    underWay := fun call run hhanding => by
      have hphase := hsound.phase
      rw [hhanding] at hphase
      exact ⟨hphase.1.buffered_eq, hphase.1.ascending.2, hphase.2.fits, hsound.canEnd hhanding⟩
    room := by
      have hroom := hsound.room
      have hcapacity := hsound.capacity
      rw [Outbox.freeSlots]
      omega }

/-- A height that has been buffered cannot be buffered again, not even without blocks. -/
example : ((Traffic.start 1).moves
    [.call [] 5, .proceed, .proceed, .proceed, .call [] 5, .proceed, .proceed]).past.map
      Settled.accepted = [false, true] := by
  decide

end BlockFeed.Outbox
