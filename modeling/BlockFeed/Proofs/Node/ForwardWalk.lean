import BlockFeed.Node.Negotiation
import BlockFeed.Proofs.Chain.HeaderViews
import BlockFeed.Proofs.Node.Calls
import BlockFeed.Proofs.Node.Conversations
import BlockFeed.Proofs.Node.Session
import BlockFeed.Proofs.Wire.RoundTrip

/-!
# Walks over a node's chain

To a walk each message of the node is a reply (`ChainSync.Reply`), but for those that only say that the
node has none yet. What a walk comes to is told by the replies (`ChainSync.collected`): the tips at their
front, up to a number of them, and what cuts them short.

Main statement: however the bytes of the node arrive, a walk comes to what the replies come to, and asks once
for each reply that it takes (`ChainSync.walk_eq_collected`). The proof follows the messages of a session one
by one (`ChainSync.collects_session`).
-/

namespace BlockFeed

/-- The same with tips that have been passed before. -/
def NextPoints.after (passed : List Tip) (next : NextPoints) : NextPoints :=
  { next with tips := passed ++ next.tips }

namespace ChainSync

open Multiplexer (attend Wrote)

/-! ## Replies -/

/-- What a message of the node is to a walk. -/
inductive Reply where
  /-- The next tip. -/
  | forward (tip : Tip)
  /-- A step back to a point. -/
  | backward (point : Point)
  /-- Nothing that a walk can use. -/
  | unusable (error : NodeError)
  deriving DecidableEq

namespace Reply

/-- A message as a reply. The node that has none yet says so and replies later. -/
def ofMessage? : Message → Option Reply
  | .awaitReply => none
  | .rollForward header _ =>
    match Header.tipOfWrapped header with
    | .ok tip => some (.forward tip)
    | .error e => some (.unusable (.protocol (.header e)))
  | .rollBackward point _ => some (.backward point)
  | message => some (.unusable (.protocol (.unexpected .chainSync message.name .nextUpdate)))

/-- The bytes of a message as a reply. -/
def ofBytes? (bytes : Bytes) : Option Reply :=
  match Message.decode bytes with
  | .ok message => ofMessage? message
  | .error e => some (.unusable (.protocol (.decode .chainSync e)))

/-- A walk can go on with a reply, or end with it. -/
def isUsable : Reply → Bool
  | .unusable _ => false
  | _ => true

end Reply

/-- The replies among messages. -/
def replies (messages : List Bytes) : List Reply := messages.filterMap Reply.ofBytes?

/-- The replies that count. A step back that comes before everything else does not. -/
def counting : List Reply → List Reply
  | .backward _ :: rest => rest
  | all => all

/-- The tips at the front of replies. -/
def leadingTips : List Reply → List Tip
  | .forward tip :: rest => tip :: leadingTips rest
  | _ => []

/-- What replies come to, given how many tips are asked for and the failure when the replies are over: the
tips at their front if these are as many, and otherwise what stands after these tips decides. -/
def collected (limit : Nat) (failure : NodeError) (all : List Reply) : Except NodeError NextPoints :=
  let tips := leadingTips all
  if limit ≤ tips.length then .ok ⟨tips.take limit, none⟩
  else
    match all[tips.length]? with
    | some (.backward point) => .ok ⟨tips, some point⟩
    | some (.unusable error) => .error error
    | _ => .error failure

section Collected

variable {n : Nat} {failure : NodeError} {rest : List Reply}

@[simp] theorem collected_zero (all : List Reply) : collected 0 failure all = .ok ⟨[], none⟩ := rfl

@[simp] theorem collected_nil : collected (n + 1) failure [] = .error failure := rfl

@[simp] theorem collected_backward {point : Point} :
    collected (n + 1) failure (.backward point :: rest) = .ok ⟨[], some point⟩ := rfl

@[simp] theorem collected_unusable {error : NodeError} :
    collected (n + 1) failure (.unusable error :: rest) = .error error := rfl

theorem collected_forward {tip : Tip} :
    collected (n + 1) failure (.forward tip :: rest)
      = (collected n failure rest).map (NextPoints.after [tip]) := by
  simp only [collected, leadingTips, List.length_cons, Nat.add_le_add_iff_right,
    List.getElem?_cons_succ, List.take_succ_cons]
  split
  · rfl
  · cases rest[(leadingTips rest).length]? with
    | none => rfl
    | some reply => cases reply <;> rfl

/-- Replies that come to something, and of which at least one is asked for, come to a tip or a step back. -/
theorem collected_ne_ok_empty (hn : 0 < n) (all : List Reply) :
    collected n failure all ≠ .ok ⟨[], none⟩ := by
  cases n with
  | zero => cases hn
  | succ n =>
    match all with
    | [] => simp
    | .backward _ :: _ => simp
    | .unusable _ :: _ => simp
    | .forward tip :: rest =>
      rw [collected_forward]
      cases collected n failure rest <;> simp [Except.map, NextPoints.after]

end Collected

/-! ## What a walk does with a reply -/

/-- What a walk does with a reply. -/
def Reply.moves (limit : UInt64) (passed : List Tip) (begun : Bool) :
    Reply → Reaction WalkState NodeError NextPoints
  | .forward tip => walkOn limit (tip :: passed) true
  | .backward point =>
    if begun then .conclude none ⟨passed.reverse, some point⟩ else walkOn limit passed true
  | .unusable error => .fail error

variable {start : Option Point} {limit : UInt64} {passed : List Tip} {begun : Bool}

/-- A walk goes on waiting until a reply comes. -/
theorem react_collecting (bytes : Bytes) :
    (walkForward start limit).react (.collecting passed begun) bytes
      = match Reply.ofBytes? bytes with
        | none => .await (.collecting passed begun)
        | some reply => reply.moves limit passed begun := by
  change Reaction.ofExcept (received bytes >>= walkMessage limit (.collecting passed begun)) = _
  rw [received, Reply.ofBytes?]
  cases Message.decode bytes with
  | error e => rfl
  | ok message =>
    change Reaction.ofExcept (walkMessage limit (.collecting passed begun) message) = _
    cases message with
    | rollForward header tip =>
      change Reaction.ofExcept (walkUpdate limit passed begun (.forward header tip)) = _
      simp only [walkUpdate, Reply.ofMessage?]
      cases Header.tipOfWrapped header <;> rfl
    | rollBackward point tip => cases begun <;> rfl
    | _ => rfl

/-! ## Sessions of a walk -/

section Sessions

variable {failure : NodeError}

/-- A walk that has passed enough tips ends. -/
theorem session_of_enough (h : limit.toNat ≤ passed.length) (messages : List Bytes) :
    (walkForward start limit).session failure messages (walkOn limit passed begun)
      = ⟨[], [], .ok ⟨passed.reverse, none⟩⟩ := by
  rw [walkOn, if_neg (Nat.not_lt.mpr h)]
  exact Exchange.session_of_ended rfl messages

/-- A walk that has not passed enough tips asks for the next reply, and fails if the messages are over. -/
theorem session_nil_of_lt (h : passed.length < limit.toNat) :
    (walkForward start limit).session failure [] (walkOn limit passed begun)
      = ⟨[Message.requestNext.encode], [], .error failure⟩ := by
  rw [walkOn, if_pos h]
  exact Exchange.session_nil rfl

/-- It asks once and takes messages until one of them is a reply, which it acts upon. -/
theorem session_cons_of_lt (h : passed.length < limit.toNat) (message : Bytes) (rest : List Bytes) :
    (walkForward start limit).session failure (message :: rest) (walkOn limit passed begun)
      = match Reply.ofBytes? message with
        | none => ((walkForward start limit).session failure rest (walkOn limit passed begun)).after
            [] [message]
        | some reply => ((walkForward start limit).session failure rest
            (reply.moves limit passed begun)).after [Message.requestNext.encode] [message] := by
  rw [walkOn, if_pos h, Exchange.session_cons rfl, react_collecting]
  cases Reply.ofBytes? message with
  | none =>
    have hasks : (Reaction.request Message.requestNext.encode (.collecting passed begun) :
        Reaction WalkState NodeError NextPoints).leads = .waiting (.collecting passed begun) := rfl
    simp only
    rw [Exchange.session_eq_after_await hasks, Exchange.Session.after_after]
    rfl
  | some reply => rfl

theorem replies_cons_of_none {message : Bytes} (h : Reply.ofBytes? message = none) (rest : List Bytes) :
    replies (message :: rest) = replies rest :=
  List.filterMap_cons_none h

theorem replies_cons_of_some {message : Bytes} {reply : Reply} (h : Reply.ofBytes? message = some reply)
    (rest : List Bytes) : replies (message :: rest) = reply :: replies rest :=
  List.filterMap_cons_some h

/-- The replies that a walk has still to look at. -/
def due (begun : Bool) (all : List Reply) : List Reply := if begun then all else counting all

theorem due_of_ne_backward {reply : Reply} (h : ∀ point, reply ≠ .backward point) (rest : List Reply) :
    due begun (reply :: rest) = reply :: rest := by
  cases begun with
  | true => rfl
  | false =>
    cases reply with
    | backward point => exact absurd rfl (h point)
    | _ => rfl

/-- How often a session has asked for a reply: once for each it has taken and could use, and once more if
it has failed. -/
def asked (s : Exchange.Session NodeError NextPoints) : Nat :=
  (replies s.taken).countP Reply.isUsable +
    match s.outcome with
    | .ok _ => 0
    | .error _ => 1

/-- A session from where a walk has passed some tips and is to pass more. It ends with the tips that have
been passed and with what the replies come to; it asks once for each of these; and the replies it takes
are the further tips and the step back, if there is one that counts. -/
structure Collects (more : Nat) (failure : NodeError) (passed : List Tip) (begun : Bool)
    (messages : List Bytes) (s : Exchange.Session NodeError NextPoints) : Prop where
  outcome : s.outcome
    = (collected more failure (due begun (replies messages))).map (NextPoints.after passed.reverse)
  sent : s.sent = List.replicate (asked s) Message.requestNext.encode
  told : ∀ next, s.outcome = .ok next → ∃ tips, next.tips = passed.reverse ++ tips ∧
    due begun (replies s.taken) = tips.map .forward ++ next.rolledBackTo.toList.map .backward

namespace Collects

variable {more : Nat} {message : Bytes} {rest : List Bytes} {s : Exchange.Session NodeError NextPoints}
  {tip : Tip} {point : Point}

theorem enough (messages : List Bytes) :
    Collects 0 failure passed begun messages ⟨[], [], .ok ⟨passed.reverse, none⟩⟩ where
  outcome := by simp [Except.map, NextPoints.after]
  sent := rfl
  told := by
    rintro next ⟨⟩
    exact ⟨[], (List.append_nil _).symm, by cases begun <;> rfl⟩

theorem exhausted :
    Collects (more + 1) failure passed begun []
      ⟨[Message.requestNext.encode], [], .error failure⟩ where
  outcome := by cases begun <;> rfl
  sent := rfl
  told := nofun

/-- A message that is no reply makes no difference. -/
theorem await (h : Collects more failure passed begun rest s) (hreply : Reply.ofBytes? message = none) :
    Collects more failure passed begun (message :: rest) (s.after [] [message]) where
  outcome := by rw [replies_cons_of_none hreply]; exact h.outcome
  sent := by
    have htaken : replies (s.after [] [message]).taken = replies s.taken := replies_cons_of_none hreply _
    rw [asked, htaken]
    exact h.sent
  told next hnext := by
    obtain ⟨tips, htips, htold⟩ := h.told next hnext
    have htaken : replies (s.after [] [message]).taken = replies s.taken := replies_cons_of_none hreply _
    exact ⟨tips, htips, by rw [htaken, htold]⟩

/-- A reply that a walk can use has been asked for. -/
theorem asked_after {reply : Reply} (hreply : Reply.ofBytes? message = some reply)
    (husable : reply.isUsable = true) :
    asked (s.after [Message.requestNext.encode] [message]) = asked s + 1 := by
  have htaken : replies (s.after [Message.requestNext.encode] [message]).taken = reply :: replies s.taken :=
    replies_cons_of_some hreply _
  rw [asked, htaken, List.countP_cons_of_pos husable, Nat.add_right_comm]
  rfl

theorem forward (h : Collects more failure (tip :: passed) true rest s)
    (hreply : Reply.ofBytes? message = some (.forward tip)) :
    Collects (more + 1) failure passed begun (message :: rest)
      (s.after [Message.requestNext.encode] [message]) where
  outcome := by
    rw [replies_cons_of_some hreply, due_of_ne_backward (by simp), collected_forward]
    refine h.outcome.trans ?_
    change (collected more failure (replies rest)).map _
      = ((collected more failure (replies rest)).map _).map _
    cases collected more failure (replies rest) with
    | error e => rfl
    | ok next => simp [Except.map, NextPoints.after]
  sent := by
    rw [asked_after hreply rfl, List.replicate_succ, ← h.sent]
    rfl
  told next hnext := by
    obtain ⟨tips, htips, htold⟩ := h.told next hnext
    have htaken : replies (s.after [Message.requestNext.encode] [message]).taken
        = .forward tip :: replies s.taken := replies_cons_of_some hreply _
    refine ⟨tip :: tips, by simp [htips], ?_⟩
    rw [htaken, due_of_ne_backward (by simp)]
    exact congrArg (Reply.forward tip :: ·) htold

/-- The first reply of a walk does not count if it is a step back. -/
theorem absorb (h : Collects more failure passed true rest s)
    (hreply : Reply.ofBytes? message = some (.backward point)) :
    Collects more failure passed false (message :: rest)
      (s.after [Message.requestNext.encode] [message]) where
  outcome := by rw [replies_cons_of_some hreply]; exact h.outcome
  sent := by
    rw [asked_after hreply rfl, List.replicate_succ, ← h.sent]
    rfl
  told next hnext := by
    obtain ⟨tips, htips, htold⟩ := h.told next hnext
    have htaken : replies (s.after [Message.requestNext.encode] [message]).taken
        = .backward point :: replies s.taken := replies_cons_of_some hreply _
    exact ⟨tips, htips, by rw [htaken]; exact htold⟩

theorem backward (hreply : Reply.ofBytes? message = some (.backward point)) :
    Collects (more + 1) failure passed true (message :: rest)
      ⟨[Message.requestNext.encode], [message], .ok ⟨passed.reverse, some point⟩⟩ where
  outcome := by simp [replies, hreply, due, Except.map, NextPoints.after]
  sent := by simp [asked, replies, hreply, Reply.isUsable]
  told := by
    rintro next ⟨⟩
    exact ⟨[], (List.append_nil _).symm, by simp [replies, hreply, due]⟩

theorem unusable {error : NodeError} (hreply : Reply.ofBytes? message = some (.unusable error)) :
    Collects (more + 1) failure passed begun (message :: rest)
      ⟨[Message.requestNext.encode], [message], .error error⟩ where
  outcome := by
    rw [replies_cons_of_some hreply, due_of_ne_backward (by simp), collected_unusable]
    rfl
  sent := by simp [asked, replies, hreply, Reply.isUsable]
  told := nofun

end Collects

/-- However far a walk has come, its session from there is as the replies tell. -/
theorem collects_session {more : Nat} (h : limit.toNat = passed.length + more) (messages : List Bytes) :
    Collects more failure passed begun messages
      ((walkForward start limit).session failure messages (walkOn limit passed begun)) := by
  induction messages generalizing passed begun more with
  | nil =>
    cases more with
    | zero =>
      rw [session_of_enough (Nat.le_of_eq h)]
      exact .enough []
    | succ more =>
      rw [session_nil_of_lt (by omega)]
      exact .exhausted
  | cons message rest ih =>
    cases more with
    | zero =>
      rw [session_of_enough (Nat.le_of_eq h)]
      exact .enough _
    | succ more =>
      rw [session_cons_of_lt (by omega)]
      cases hreply : Reply.ofBytes? message with
      | none => exact (ih h).await hreply
      | some reply =>
        cases reply with
        | forward tip => exact (ih (by rw [List.length_cons]; omega)).forward hreply
        | backward point =>
          cases begun with
          | false => exact (ih h).absorb hreply
          | true =>
            simp only [Reply.moves, if_pos]
            rw [Exchange.session_of_ended rfl]
            exact .backward hreply
        | unusable error =>
          simp only [Reply.moves]
          rw [Exchange.session_of_ended rfl]
          exact .unusable hreply

/-- Replies are collected from where a walk begins. -/
theorem collects_session_start (messages : List Bytes) :
    Collects limit.toNat failure [] false messages
      ((walkForward start limit).session failure messages (walkOn limit [] false)) :=
  collects_session (Nat.zero_add _).symm messages

/-- What a walk comes to from where it begins is told by the replies that count. -/
theorem outcome_session_start (messages : List Bytes) :
    ((walkForward start limit).session failure messages (walkOn limit [] false)).outcome
      = collected limit.toNat failure (counting (replies messages)) := by
  refine (collects_session_start messages).outcome.trans ?_
  change (collected limit.toNat failure (counting (replies messages))).map _ = _
  cases collected limit.toNat failure (counting (replies messages)) <;> rfl

/-! ## The beginning of a walk -/

/-- What a message says about common points. -/
def placed (message : Bytes) : Except NodeError Intersection := received message >>= intersectionOf

theorem decode_eq_of_placed_eq_notFound {message : Bytes} {tip : Tip}
    (h : placed message = .ok (.notFound tip)) :
    Message.decode message = .ok (.intersectNotFound tip) := by
  rw [placed, received] at h
  cases hdecode : Message.decode message with
  | error e => rw [hdecode] at h; cases h
  | ok m =>
    rw [hdecode] at h
    change intersectionOf m = _ at h
    cases m with
    | intersectNotFound => cases h; rfl
    | _ => cases h

/-- A walk after a point waits to be placed there. -/
theorem leads_start_some (point : Point) :
    (walkForward (some point) limit).start.leads = .waiting .positioning := rfl

/-- It has asked whether the node knows the point, and goes on only if the node does. -/
theorem session_from_cons (point : Point) (message : Bytes) (rest : List Bytes) :
    (walkForward (some point) limit).session failure (message :: rest) (walkForward (some point) limit).start
      = ((walkForward (some point) limit).session failure rest
          (match placed message with
            | .ok (.found _ _) => walkOn limit [] false
            | .ok (.notFound _) => .conclude none {}
            | .error e => .fail e)).after [(Message.findIntersect [point]).encode] [message] := by
  rw [Exchange.session_cons (leads_start_some point)]
  have hreact : (walkForward (some point) limit).react .positioning message
      = match placed message with
        | .ok (.found _ _) => walkOn limit [] false
        | .ok (.notFound _) => .conclude none {}
        | .error e => .fail e := by
    change Reaction.ofExcept (received message >>= walkMessage limit .positioning) = _
    rw [placed]
    cases received message with
    | error e => rfl
    | ok m => cases m <;> rfl
  rw [hreact]
  rfl

/-- A walk after a point that asks for a tip at least, and comes to neither a tip nor a step back, has been
told that the node does not know the point. -/
theorem notFound_of_outcome_eq_empty (hlimit : 0 < limit.toNat) {point : Point} {messages : List Bytes}
    (h : ((walkForward (some point) limit).session failure messages
      (walkForward (some point) limit).start).outcome = .ok ⟨[], none⟩) :
    ∃ message rest tip, messages = message :: rest
      ∧ Message.decode message = .ok (.intersectNotFound tip) := by
  cases messages with
  | nil =>
    rw [Exchange.session_nil (leads_start_some point)] at h
    cases h
  | cons message rest =>
    rw [session_from_cons] at h
    cases hplaced : placed message with
    | error e =>
      simp only [hplaced] at h
      rw [Exchange.session_of_ended rfl] at h
      cases h
    | ok intersection =>
      cases intersection with
      | found point' tip =>
        simp only [hplaced] at h
        exact absurd ((outcome_session_start rest).symm.trans h) (collected_ne_ok_empty hlimit _)
      | notFound tip => exact ⟨message, rest, tip, rfl, decode_eq_of_placed_eq_notFound hplaced⟩

end Sessions

end ChainSync

/-! ## Calls -/

open Multiplexer (attend Wrote)

/-- A node has answered a conversation with messages, and this is what came of it: the exchange of the
conversation has been attended at an open end, in whatever portions the bytes of the messages arrived. -/
def Conversation.Answered (c : Conversation) (messages : List Bytes) (outcome : Except NodeError c.Result) :
    Prop :=
  ∃ (m after : Multiplexer) (held : Bytes) (portions : List Bytes) (last : Reception),
    m.Offers c.exchange.protocol held portions messages last
      ∧ attend c.exchange portions c.exchange.start m = (.ended outcome, after)

/-- A conversation that has come to its end has been answered by a node. -/
def Link.IsGenuine : Link.Event → Prop
  | ⟨.converse c, some outcome⟩ => ∃ messages, c.Answered messages outcome
  | _ => True

variable {σ : Type}

/-- What comes of an attempt is what came of its conversation. -/
theorem Attempt.mem_of_converse_ends {s : NodeSettings} {c : Conversation} {before after : σ}
    {log : List Link.Event} {value : c.Result}
    (h : ((Attempt.converse s c).start before).Ends log after (.ok value)) :
    (⟨.converse c, some (.ok value)⟩ : Link.Event) ∈ log :=
  (((Attempt.spoken_of_ends h).eq_ok_iff value).mp rfl).1

/-- What comes of a call for the tips after a point is what came of one of its conversations. -/
theorem NodeCall.mem_of_pointsAfter_ends {s : NodeSettings} {start : Point} {limit : UInt64}
    {before after : σ} {log : List Link.Event} {next : NextPoints}
    (h : (((NodeCall.pointsAfter start limit).run s).start before).Ends log after (.ok next)) :
    (⟨.converse (.walkForward (some start) limit), some (.ok next)⟩ : Link.Event) ∈ log := by
  obtain ⟨tries, rfl, hmade⟩ := RetryPolicy.exists_tries_of_ends h
  obtain ⟨t, hlast, houtcome⟩ := Option.map_eq_some_iff.mp hmade.last
  have ht : t ∈ tries := List.mem_of_getLast? hlast
  obtain ⟨steps, hlog, hattempt⟩ := NodeCall.exists_steps_of_ends (hmade.made t ht)
  rw [houtcome] at hattempt
  have hmem := Attempt.mem_of_converse_ends hattempt
  refine List.mem_flatMap.mpr ⟨t, ht, List.mem_append_left _ ?_⟩
  rw [hlog]
  exact List.mem_cons_of_mem _ hmem

namespace ChainSync

/-- However the replies of a node arrive, collecting tips comes to what the replies come to: the tips at the
front, as many as are asked for, or up to a step back; or the failure of what comes before. A step back that
comes first does not count. It asks once for each reply it takes, and once more if it fails. That the node
goes away is noticed after its last reply, as `attend` has it. A call for the tips after a point has neither
a tip nor a step back to tell only if the node has said that it does not know the point. -/
theorem walk_eq_collected {limit : UInt64} (hlimit : 0 < limit.toNat) :
    (∀ (start : Option Point) (m : Multiplexer) (held : Bytes) (portions messages : List Bytes)
      (last : Reception), m.Offers .chainSync held portions messages last →
      let failure := NodeError.ofReceive (last.failure .chainSync)
      let s := (walkForward start limit).session failure messages (walkOn limit [] false)
      ∃ after, attend (walkForward start limit) portions (walkOn limit [] false) m
          = (.ended (collected limit.toNat failure (counting (replies messages))), after)
        ∧ Wrote .chainSync (List.replicate (asked s) Message.requestNext.encode) m after
        ∧ s.taken <+: messages) ∧
    ∀ (settings : NodeSettings) (start : Point) (before after : σ) (log : List Link.Event)
      (next : NextPoints),
      (((NodeCall.pointsAfter start limit).run settings).start before).Ends log after (.ok next) →
      (∀ event ∈ log, Link.IsGenuine event) → next.tips = [] → next.rolledBackTo = none →
      ∃ message rest tip,
        (⟨.converse (.walkForward (some start) limit), some (.ok next)⟩ : Link.Event) ∈ log
        ∧ (Conversation.walkForward (some start) limit).Answered (message :: rest) (.ok next)
        ∧ Message.decode message = .ok (.intersectNotFound tip) := by
  constructor
  · intro start m held portions messages last hoffers failure s
    obtain ⟨after, hattend, hwrote⟩ :=
      Multiplexer.attend_eq (walkForward start limit) (walkOn limit [] false) hoffers
    have hcollects : Collects limit.toNat failure [] false messages s := collects_session_start messages
    have houtcome : s.outcome = collected limit.toNat failure (counting (replies messages)) :=
      outcome_session_start messages
    refine ⟨after, ?_, ?_, Exchange.taken_isPrefix messages _⟩
    · rw [← houtcome]
      exact hattend
    · rw [← hcollects.sent]
      exact hwrote
  · intro settings start before after log next hends hgenuine htips hback
    have hmem := NodeCall.mem_of_pointsAfter_ends hends
    obtain ⟨messages, hanswered⟩ := hgenuine _ hmem
    obtain ⟨m, final, held, portions, last, hoffers, hattend⟩ := id hanswered
    obtain ⟨final', hsession, -⟩ := Multiplexer.attend_eq _ _ hoffers
    rw [hattend] at hsession
    simp only [Prod.mk.injEq, Multiplexer.Progress.ended.injEq] at hsession
    obtain rfl : next = ⟨[], none⟩ := by
      cases next
      simp_all
    obtain ⟨message, rest, tip, rfl, htip⟩ := notFound_of_outcome_eq_empty hlimit hsession.1.symm
    exact ⟨message, rest, tip, hmem, hanswered, htip⟩

/-- A point that is not the origin. -/
def samplePoint : Point := ⟨7, ⟨List.replicate 32 1, rfl⟩⟩

/-- The header of height 10 is brought. -/
def sampleForward : Bytes :=
  (Message.rollForward ([0x82, 0x06, 0xD8, 0x18, 0x4B] ++ Header.sampleBytes) ⟨.origin, 0⟩).encode

/-- The tip of that header. -/
def sampleTip : Tip := ⟨⟨500, Header.hashOf Header.sampleBytes⟩, 10⟩

/-- A node steps back to a point. -/
def sampleBackward (point : Point) : Bytes := (Message.rollBackward point ⟨.origin, 0⟩).encode

theorem isItem_sampleForward : Cbor.IsItem sampleForward := ⟨by decide, rfl⟩

theorem isItem_sampleBackward : Cbor.IsItem (sampleBackward samplePoint) := by
  have hlength : Cbor.itemLength? (sampleBackward samplePoint) = .ok (some 41) := rfl
  exact ⟨by decide, hlength⟩

/-- A node that can be reached and knows no point. -/
def stranger : Behaviour Link
  | _, .tryGate => true
  | _, .awaitGate | _, .hangUp => some ()
  | _, .connect _ _ => some .connected
  | _, .negotiate _ _ => some (.ok Handshake.spokenVersion)
  | _, .converse (.walkForward _ _) => some (.ok ({} : NextPoints))
  | _, .converse _ => none
  | _, .draw greatest => (0 : Fin (greatest + 1))
  | _, .beginAttempt _ | _, .forceGate | _, .leaveGate | _, .track | _, .pause _ | _, .note _ => ()

/-- What the stranger says is what such a node says. -/
theorem answered_stranger : (Conversation.walkForward (some .origin) 2).Answered
    [(Message.intersectNotFound ⟨.origin, 0⟩).encode] (.ok ({} : NextPoints)) := by
  have hitem : Cbor.IsItem (Message.intersectNotFound ⟨.origin, 0⟩).encode := ⟨by decide, rfl⟩
  have hoffers := Multiplexer.offers_sent .chainSync (List.forall_mem_singleton.mpr hitem) 3
  obtain ⟨after, hattend, -⟩ := Multiplexer.attend_eq (walkForward (some .origin) 2)
    (walkForward (some .origin) 2).start hoffers
  exact ⟨_, after, _, _, _, hoffers, hattend⟩

theorem isGenuine_stranger :
    ∀ event ∈ (NodeCall.ending {} (.pointsAfter .origin 2) () stranger).log, Link.IsGenuine event := by
  have hlog : (NodeCall.ending {} (.pointsAfter .origin 2) () stranger).log
      = [⟨.beginAttempt (NodeSettings.callTimeout {}), ()⟩, ⟨.tryGate, true⟩,
        ⟨.connect (NodeSettings.address {}) (NodeSettings.connectTimeout {}), some .connected⟩,
        ⟨.track, ()⟩,
        ⟨.negotiate 764824073 (NodeSettings.handshakeTimeout {}), some (.ok Handshake.spokenVersion)⟩,
        ⟨.leaveGate, ()⟩, ⟨.note (.connectionAttempt "ok"), ()⟩,
        ⟨.converse (.walkForward (some .origin) 2), some (.ok ({} : NextPoints))⟩,
        ⟨.hangUp, some ()⟩] := rfl
  rw [hlog]
  simp only [List.forall_mem_cons]
  exact ⟨trivial, trivial, trivial, trivial, trivial, trivial, trivial, ⟨_, answered_stranger⟩, trivial, nofun⟩

/-- A node has nothing to reply yet, steps back, brings a header and steps back again. Another one does not
know the origin. -/
theorem walk_eq_collected_sample :
    let messages := [Message.awaitReply.encode, sampleBackward .origin, sampleForward,
      sampleBackward samplePoint]
    let m := Multiplexer.new .initiator MiniProtocol.all
    let ending := NodeCall.ending {} (.pointsAfter .origin 2) () stranger
    0 < (2 : UInt64).toNat ∧
      (∃ portions, m.Offers .chainSync [] portions messages .closed ∧
        ∃ after, attend (walkForward none 2) portions (walkOn 2 [] false) m
            = (.ended (.ok ⟨[sampleTip], some samplePoint⟩), after)
          ∧ Wrote .chainSync (List.replicate 3 Message.requestNext.encode) m after) ∧
      ending.value = .ok ({} : NextPoints) ∧ (∀ event ∈ ending.log, Link.IsGenuine event) ∧
      ∃ message rest tip,
        (⟨.converse (.walkForward (some .origin) 2), some (.ok ({} : NextPoints))⟩ : Link.Event) ∈ ending.log
        ∧ (Conversation.walkForward (some .origin) 2).Answered (message :: rest) (.ok ({} : NextPoints))
        ∧ Message.decode message = .ok (.intersectNotFound tip) := by
  intro messages m ending
  have hitems : ∀ message ∈ messages, Cbor.IsItem message := by
    intro message hmessage
    simp only [messages, List.mem_cons, List.not_mem_nil, or_false] at hmessage
    rcases hmessage with rfl | rfl | rfl | rfl
    · exact ⟨by decide, rfl⟩
    · exact ⟨by decide, rfl⟩
    · exact isItem_sampleForward
    · exact isItem_sampleBackward
  have hoffers := Multiplexer.offers_sent .chainSync hitems 20
  have hlimit : 0 < (2 : UInt64).toNat := by decide
  obtain ⟨hcollects, hcall⟩ := walk_eq_collected hlimit
  obtain ⟨after, hattend, hwrote, -⟩ := hcollects none m [] _ messages .closed hoffers
  have hreplies : replies messages = [.backward .origin, .forward sampleTip, .backward samplePoint] := rfl
  rw [hreplies] at hattend
  have hends := Run.ends_against ((NodeCall.run {} (.pointsAfter .origin 2)).start ()) stranger
  exact ⟨hlimit, ⟨_, hoffers, after, hattend, hwrote⟩, rfl, isGenuine_stranger,
    hcall {} .origin () _ ending.log {} hends isGenuine_stranger rfl rfl⟩

end ChainSync

end BlockFeed
