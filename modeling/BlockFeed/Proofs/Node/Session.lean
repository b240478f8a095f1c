import BlockFeed.Proofs.Node.MultiplexedDelivery
import BlockFeed.Proofs.Wire.Splitting

/-!
# Sessions

What an exchange sends, which messages it takes and how it ends is told by the messages of the node
alone: that is its session (`Exchange.session`). Whoever holds the connection sees bytes that arrive in
portions, and goes on with the exchange after each of them until it ends or the node goes away
(`Multiplexer.attend`). However the bytes are cut, both come to the same (`Multiplexer.attend_eq`), provided
that the node's going away is noticed after all that it has sent.

The proof is about one portion at a time (`Multiplexer.under_resume`): either the exchange has ended as the
session does, or it waits in a state from which the rest of the session follows, and the channel holds only
the beginning of a message.
-/

namespace BlockFeed

open Cbor (itemLength?)

namespace Reaction

variable {σ ε α : Type}

/-- The messages that a reaction sends. -/
def sends : Reaction σ ε α → List Bytes
  | .await _ | .conclude none _ | .fail _ => []
  | .request message _ => [message]
  | .conclude (some farewell) _ => [farewell]

/-- How far an exchange has come with a reaction. -/
def leads : Reaction σ ε α → Multiplexer.Progress σ ε α
  | .await state | .request _ state => .waiting state
  | .conclude _ value => .ended (.ok value)
  | .fail error => .ended (.error error)

end Reaction

namespace Exchange

/-- What an exchange comes to with a node. -/
structure Session (ε α : Type) where
  /-- The messages it sends. -/
  sent : List Bytes
  /-- The messages of the node that it takes. -/
  taken : List Bytes
  outcome : Except ε α

variable {σ ε α : Type}

/-- A session with a part before it. -/
def Session.after (s : Session ε α) (sent taken : List Bytes) : Session ε α :=
  ⟨sent ++ s.sent, taken ++ s.taken, s.outcome⟩

theorem Session.after_after (s : Session ε α) (sent taken sent' taken' : List Bytes) :
    (s.after sent taken).after sent' taken' = s.after (sent' ++ sent) (taken' ++ taken) := by
  simp [Session.after]

/-- The session that begins with a reaction, given the messages of the node and the failure when another
one is waited for after these. -/
def session (x : Exchange σ ε α) (failure : ε) : List Bytes → Reaction σ ε α → Session ε α
  | [], reaction => ⟨reaction.sends, [], reaction.leads.outcome?.getD (.error failure)⟩
  | message :: rest, reaction =>
    match reaction.leads with
    | .ended outcome => ⟨reaction.sends, [], outcome⟩
    | .waiting state =>
      (x.session failure rest (x.react state message)).after reaction.sends [message]

variable {x : Exchange σ ε α} {failure : ε} {reaction : Reaction σ ε α} {state : σ}

theorem session_of_ended {outcome : Except ε α} (h : reaction.leads = .ended outcome)
    (messages : List Bytes) :
    x.session failure messages reaction = ⟨reaction.sends, [], outcome⟩ := by
  cases messages with
  | nil => rw [session, h]; rfl
  | cons message rest => rw [session, h]

theorem session_nil (h : reaction.leads = .waiting state) :
    x.session failure [] reaction = ⟨reaction.sends, [], .error failure⟩ := by
  rw [session, h]
  rfl

theorem session_cons (h : reaction.leads = .waiting state) (message : Bytes) (rest : List Bytes) :
    x.session failure (message :: rest) reaction
      = (x.session failure rest (x.react state message)).after reaction.sends [message] := by
  rw [session, h]

/-- An exchange that waits has sent something, and then the session is that of waiting. -/
theorem session_eq_after_await (h : reaction.leads = .waiting state) (messages : List Bytes) :
    x.session failure messages reaction
      = (x.session failure messages (.await state)).after reaction.sends [] := by
  cases messages with
  | nil => rw [session_nil h, session_nil rfl]; simp [Session.after, Reaction.sends]
  | cons message rest =>
    rw [session_cons h, session_cons rfl, Session.after_after]
    simp [Reaction.sends]

/-- The messages that a session takes are the first ones. -/
theorem taken_isPrefix (messages : List Bytes) (reaction : Reaction σ ε α) :
    (x.session failure messages reaction).taken <+: messages := by
  induction messages generalizing reaction with
  | nil => exact List.prefix_rfl
  | cons message rest ih =>
    cases hleads : reaction.leads with
    | ended outcome =>
      rw [session_of_ended hleads]
      exact List.nil_prefix
    | waiting state =>
      rw [session_cons hleads]
      exact List.cons_prefix_cons.mpr ⟨rfl, ih _⟩

end Exchange

/-- The failure of waiting for a message where nothing but this comes. -/
def Reception.failure (protocol : MiniProtocol) : Reception → ReceiveError
  | .malformed fault => .malformed protocol fault
  | _ => .closed

namespace Multiplexer

variable {σ ε α : Type}

/-- Carries an exchange on while bytes arrive in portions. After the last one the other end goes away. This
is the course in which its end is noticed while the exchange waits, with all that has arrived taken; that it
is noticed before, by a message that cannot be sent while others are still to be read, is left out. -/
def attend (x : Exchange σ ε α) :
    (portions : List Bytes) → Reaction σ ε α → Multiplexer → Progress σ ε α × Multiplexer
  | [], reaction, m =>
    match resume x reaction m with
    | (.waiting state, m) => resume x (.await state) m.peerEnds
    | ended => ended
  | portion :: rest, reaction, m =>
    match resume x reaction m with
    | (.waiting state, m) => attend x rest (.await state) (m.arrive portion)
    | ended => ended

/-! ## What an end has written -/

/-- An end has written messages on a mini-protocol, and is the same end. -/
structure Wrote (protocol : MiniProtocol) (sent : List Bytes) (m after : Multiplexer) : Prop where
  side : after.side = m.side
  written : after.written
    = m.written ++ sent.flatMap fun message => segmentsOf m.side (protocol, message)

section Writing

variable {protocol : MiniProtocol} {sent more : List Bytes} {m m' m'' : Multiplexer}

theorem Wrote.nothing (hside : m'.side = m.side) (hwritten : m'.written = m.written) :
    Wrote protocol [] m m' :=
  ⟨hside, by rw [hwritten, List.flatMap_nil, List.append_nil]⟩

theorem Wrote.trans (h : Wrote protocol sent m m') (hmore : Wrote protocol more m' m'') :
    Wrote protocol (sent ++ more) m m'' where
  side := hmore.side.trans h.side
  written := by rw [hmore.written, h.written, h.side, List.flatMap_append, List.append_assoc]

/-- An open end carries out any reaction. -/
theorem exists_carryOut_eq (x : Exchange σ ε α) (hopen : m.closed = false) (hpeer : m.peerOpen = true)
    (reaction : Reaction σ ε α) :
    ∃ written, carryOut x m reaction = (reaction.leads, { m with written })
      ∧ Wrote x.protocol reaction.sends m { m with written } := by
  have hsend (message : Bytes) : m.send x.protocol message =
      (.ok (), { m with written := m.written ++ segmentsOf m.side (x.protocol, message) }) := by
    simp [send, hopen, hpeer, segmentsOf]
  have hwrote (message : Bytes) : Wrote x.protocol [message] m
      { m with written := m.written ++ segmentsOf m.side (x.protocol, message) } :=
    ⟨rfl, by rw [List.flatMap_singleton]⟩
  cases reaction with
  | await state => exact ⟨m.written, rfl, .nothing rfl rfl⟩
  | fail error => exact ⟨m.written, rfl, .nothing rfl rfl⟩
  | request message state => exact ⟨_, by rw [carryOut, hsend]; rfl, hwrote message⟩
  | conclude farewell value =>
    cases farewell with
    | none => exact ⟨m.written, rfl, .nothing rfl rfl⟩
    | some farewell => exact ⟨_, by rw [carryOut, hsend]; rfl, hwrote farewell⟩

/-- Listening changes nothing but channels. -/
theorem exists_receive_eq (m : Multiplexer) (protocol : MiniProtocol) :
    ∃ channels, (m.receive protocol).2 = { m with channels } := by
  unfold receive
  split
  · exact ⟨_, rfl⟩
  · exact ⟨m.channels, rfl⟩

theorem wrote_receive (m : Multiplexer) (protocol : MiniProtocol) :
    Wrote protocol [] m (m.receive protocol).2 := by
  obtain ⟨channels, hreceive⟩ := exists_receive_eq m protocol
  rw [hreceive]
  exact .nothing rfl rfl

theorem wrote_arrive (protocol : MiniProtocol) (hreading : m.reading = true) (hpeer : m.peerOpen = true)
    (portion : Bytes) :
    Wrote protocol [] m (m.arrive portion) := by
  obtain ⟨channels, hroute⟩ := foldl_route_eq m (Segment.parse (m.partialSegment ++ portion)).1
  rw [arrive_eq hreading hpeer, hroute]
  exact .nothing rfl rfl

end Writing

/-! ## What an end offers -/

/-- What is received, and what stays, is told by the bytes that a mini-protocol holds. -/
theorem Holds.receive_eq {m : Multiplexer} {p : MiniProtocol} {ended : Bool} {bytes : Bytes}
    (h : m.Holds p ended bytes) :
    (m.receive p).1 = (Channel.verdict ended bytes).1
      ∧ (m.receive p).2.Holds p ended (Channel.verdict ended bytes).2 := by
  obtain ⟨channel, hlookup, rfl, rfl⟩ := h
  obtain ⟨after, hreceive, hleft, hended⟩ := channel.receive_eq
  rw [Multiplexer.receive, hlookup]
  simp only [hreceive]
  refine ⟨trivial, after, ?_, hleft, hended⟩
  rw [lookup_updateChannel, if_pos rfl, hlookup]
  rfl

/-- A mini-protocol that holds only the beginning of an item has nothing to give yet. -/
theorem Holds.receive_of_none {m : Multiplexer} {p : MiniProtocol} {ended : Bool} {bytes : Bytes}
    (h : m.Holds p ended bytes) (hfront : itemLength? bytes = .ok none) :
    (m.receive p).1 = (if ended then .closed else .waiting) ∧ (m.receive p).2.Holds p ended bytes := by
  have hverdict : Channel.verdict ended bytes = (if ended then .closed else .waiting, bytes) := by
    rw [Channel.verdict, Channel.ofBuffer?, hfront]
    rfl
  have hreceive := h.receive_eq
  rwa [hverdict] at hreceive

/-- A mini-protocol that holds no item says why. -/
theorem Holds.receive_of_error {m : Multiplexer} {p : MiniProtocol} {ended : Bool} {bytes : Bytes}
    (h : m.Holds p ended bytes) {fault : Cbor.Fault} (hfront : itemLength? bytes = .error fault) :
    (m.receive p).1 = .malformed fault := by
  have hverdict : Channel.verdict ended bytes = (.malformed fault, bytes) := by
    rw [Channel.verdict, Channel.ofBuffer?, hfront]
    rfl
  have hreceive := h.receive_eq
  rw [hverdict] at hreceive
  exact hreceive.1

/-- An open end holds bytes for a mini-protocol, and once these portions have arrived, too, they will have
been these messages, with this to come after them. -/
structure Offers (m : Multiplexer) (protocol : MiniProtocol) (held : Bytes) (portions : List Bytes)
    (messages : List Bytes) (last : Reception) : Prop where
  isOpen : m.closed = false
  reading : m.reading = true
  peer : m.peerOpen = true
  unframed : Segment.next? m.partialSegment = none
  holds : m.Holds protocol false held
  yields : Channel.Yields
    (held ++ payloadsOn protocol (Segment.parse (m.partialSegment ++ portions.flatten)).1) messages last

section Offering

variable {m : Multiplexer} {protocol : MiniProtocol} {held portion : Bytes}
  {portions messages : List Bytes} {last : Reception}

/-- A new end offers what the portions hold for a mini-protocol. -/
theorem offers_new {side : Side} {protocols : List MiniProtocol} (hprotocol : protocol ∈ protocols)
    (h : Channel.Yields (payloadsOn protocol (Segment.parse portions.flatten).1) messages last) :
    (new side protocols).Offers protocol [] portions messages last where
  isOpen := rfl
  reading := rfl
  peer := rfl
  unframed := rfl
  holds := holds_new hprotocol
  yields := h

/-- A new end offers the messages that the other end has sent on a mini-protocol. -/
theorem offers_of_carries {side farSide : Side} {protocols : List MiniProtocol}
    {sends : List (MiniProtocol × Bytes)} {bearer : List Segment}
    (hbearer : Carries protocols (sends.flatMap (segmentsOf side)) bearer)
    (hportions : portions.flatten = (bearer.map Segment.encode).flatten)
    (hprotocol : protocol ∈ protocols) (hitems : ∀ message ∈ onlyOn protocol sends, Cbor.IsItem message) :
    (new farSide protocols).Offers protocol [] portions (onlyOn protocol sends) .closed := by
  refine offers_new hprotocol ?_
  rw [payloadsOn_parse_of_carries hbearer hportions hprotocol]
  exact .flatten hitems

/-- A new end that what a node sends on one mini-protocol arrives at, in two portions. -/
theorem offers_sent (protocol : MiniProtocol) {messages : List Bytes}
    (hitems : ∀ message ∈ messages, Cbor.IsItem message) (cut : Nat) :
    let segments := (messages.map (protocol, ·)).flatMap (segmentsOf .responder)
    let bytes := (segments.map Segment.encode).flatten
    (new .initiator MiniProtocol.all).Offers protocol [] [bytes.take cut, bytes.drop cut] messages .closed := by
  intro segments bytes
  have hmine : onlyOn protocol (messages.map (protocol, ·)) = messages := by
    simp [onlyOn, List.filter_map, Function.comp_def]
  have hbearer := carries_map_sentAt MiniProtocol.all 0 segments
  have hstill : segments.map (Segment.sentAt 0) = segments := by
    refine (List.map_congr_left fun s hs => ?_).trans (List.map_id segments)
    obtain ⟨sent, -, hs⟩ := List.mem_flatMap.mp hs
    obtain ⟨payload, -, -, rfl⟩ := mem_segmentsOf hs
    rfl
  rw [hstill] at hbearer
  have hwhole : [bytes.take cut, bytes.drop cut].flatten = bytes := by simp
  have hprotocol : protocol ∈ MiniProtocol.all := by cases protocol <;> decide
  have hoffers : (new .initiator MiniProtocol.all).Offers protocol [] [bytes.take cut, bytes.drop cut]
      (onlyOn protocol (messages.map (protocol, ·))) .closed :=
    offers_of_carries hbearer hwhole hprotocol (by rwa [hmine])
  rwa [hmine] at hoffers

theorem Offers.wrote (h : m.Offers protocol held portions messages last) {written : List Segment} :
    { m with written }.Offers protocol held portions messages last :=
  ⟨h.isOpen, h.reading, h.peer, h.unframed, h.holds, h.yields⟩

/-- The next portion arrives. -/
theorem Offers.arrive (h : m.Offers protocol held (portion :: portions) messages last) :
    ∃ held', (m.arrive portion).Offers protocol held' portions messages last := by
  have harrive := arrive_eq h.reading h.peer portion
  obtain ⟨channels, hroute⟩ := foldl_route_eq m (Segment.parse (m.partialSegment ++ portion)).1
  have hholds := h.holds.foldl_route (Segment.parse (m.partialSegment ++ portion)).1
  have hparse := Segment.parse_append (m.partialSegment ++ portion) portions.flatten
  have hyields := h.yields
  rw [List.flatten_cons, ← List.append_assoc, hparse, payloadsOn_append, ← List.append_assoc] at hyields
  rw [harrive]
  refine ⟨_, ?_, ?_, ?_, Segment.next?_parse _, hholds, hyields⟩ <;> rw [hroute]
  · exact h.isOpen
  · exact h.reading
  · exact h.peer

/-- A mini-protocol that is listened to gives its next message, has to wait for the rest of one, or has no
message to give any more. -/
theorem Offers.receive_cases (h : m.Offers protocol held portions messages last) :
    (∃ message rest held', messages = message :: rest ∧ (m.receive protocol).1 = .message message
        ∧ (m.receive protocol).2.Offers protocol held' portions rest last ∧ held'.length < held.length)
      ∨ (itemLength? held = .ok none ∧ (m.receive protocol).1 = .waiting
        ∧ (m.receive protocol).2.Offers protocol held portions messages last)
      ∨ (∃ fault, messages = [] ∧ last = .malformed fault
        ∧ (m.receive protocol).1 = .malformed fault) := by
  have hyields := h.yields
  obtain ⟨channels, hafter⟩ := exists_receive_eq m protocol
  have hoffers {held' : Bytes} {rest : List Bytes} (hholds : (m.receive protocol).2.Holds protocol false held')
      (hrest : Channel.Yields (held' ++
        payloadsOn protocol (Segment.parse (m.partialSegment ++ portions.flatten)).1) rest last) :
      (m.receive protocol).2.Offers protocol held' portions rest last := by
    rw [hafter] at hholds ⊢
    exact ⟨h.isOpen, h.reading, h.peer, h.unframed, hholds, hrest⟩
  rcases Cbor.front_cases held with ⟨item, left, rfl, hitem⟩ | hfront | ⟨fault, hfront⟩
  · obtain ⟨hreceive, hholds⟩ := h.holds.receive_cons hitem
    rw [List.append_assoc] at hyields
    obtain ⟨rest, rfl, hrest⟩ := hyields.of_isItem hitem
    have hpos : 0 < item.length := List.length_pos_iff.mpr hitem.1
    exact .inl ⟨item, rest, left, rfl, hreceive, hoffers hholds hrest, by rw [List.length_append]; omega⟩
  · obtain ⟨hreceive, hholds⟩ := h.holds.receive_of_none hfront
    exact .inr (.inl ⟨hfront, hreceive, hoffers hholds hyields⟩)
  · obtain ⟨rfl, rfl⟩ := hyields.of_error (Cbor.itemLength?_append_of_error hfront _)
    exact .inr (.inr ⟨fault, rfl, rfl, h.holds.receive_of_error hfront⟩)

/-- A backlog is what a mini-protocol holds. -/
theorem Holds.backlog_eq {ended : Bool} (h : m.Holds protocol ended held) :
    m.backlog protocol = held.length := by
  obtain ⟨channel, hlookup, rfl, -⟩ := h
  rw [backlog, hlookup, Channel.pending, List.length_append]

end Offering

/-! ## Portions and sessions -/

/-- An exchange on its way to a session: it has ended as the session does, or it waits for the rest of a
message, and the rest of the session is what follows from there. -/
inductive Under (x : Exchange σ ε α) (portions : List Bytes) (last : Reception) (m : Multiplexer)
    (s : Exchange.Session ε α) : Progress σ ε α × Multiplexer → Prop where
  | ended {after : Multiplexer} (hwrote : Wrote x.protocol s.sent m after) :
      Under x portions last m s (.ended s.outcome, after)
  | waiting {state : σ} {after : Multiplexer} {held : Bytes} {sent taken messages : List Bytes}
      (hwrote : Wrote x.protocol sent m after)
      (hoffers : after.Offers x.protocol held portions messages last)
      (hfront : itemLength? held = .ok none)
      (hrest : s = (x.session (x.unreceived (last.failure x.protocol)) messages (.await state)).after
        sent taken) :
      Under x portions last m s (.waiting state, after)

section Portions

variable {x : Exchange σ ε α} {portions messages : List Bytes} {last : Reception} {m m' : Multiplexer}
  {held : Bytes}

/-- What has been sent and taken before belongs to the session. -/
theorem Under.after {s : Exchange.Session ε α} {result : Progress σ ε α × Multiplexer}
    (h : Under x portions last m' s result) {sent : List Bytes} (hwrote : Wrote x.protocol sent m m')
    (taken : List Bytes) : Under x portions last m (s.after sent taken) result := by
  cases h with
  | ended hmore => exact .ended (hwrote.trans hmore)
  | @waiting state after held sent' taken' messages hmore hoffers hfront hrest =>
    rw [hrest, Exchange.Session.after_after]
    exact .waiting (hwrote.trans hmore) hoffers hfront rfl

/-- An exchange goes on over the messages that have arrived, as the session says. -/
theorem under_listen {fuel : Nat} (reaction : Reaction σ ε α)
    (h : m.Offers x.protocol held portions messages last) (hfuel : held.length < fuel) :
    Under x portions last m (x.session (x.unreceived (last.failure x.protocol)) messages reaction)
      (listen x fuel (carryOut x m reaction)) := by
  -- every message takes a byte at least, so the fuel lasts
  induction fuel generalizing m held messages reaction with
  | zero => exact absurd hfuel (Nat.not_lt_zero _)
  | succ fuel ih =>
    obtain ⟨written, hcarry, hwrote⟩ := exists_carryOut_eq x h.isOpen h.peer reaction
    have hoffers : { m with written }.Offers x.protocol held portions messages last := h.wrote
    rw [hcarry]
    generalize { m with written } = m₁ at hoffers hwrote
    cases hleads : reaction.leads with
    | ended outcome =>
      rw [Exchange.session_of_ended hleads]
      exact .ended hwrote
    | waiting state =>
      have hlistens : Wrote x.protocol reaction.sends m (m₁.receive x.protocol).2 := by
        simpa only [List.append_nil] using hwrote.trans (wrote_receive m₁ x.protocol)
      rw [listen]
      rcases hoffers.receive_cases with
        ⟨message, rest, held', rfl, hreceive, hafter, hlength⟩ | ⟨hfront, hreceive, hafter⟩
          | ⟨fault, rfl, rfl, hreceive⟩
      · rw [← Prod.eta (m₁.receive x.protocol), hreceive, Exchange.session_cons hleads]
        have hrest := ih (x.react state message) hafter (by omega)
        exact hrest.after hlistens [message]
      · rw [← Prod.eta (m₁.receive x.protocol), hreceive, Exchange.session_eq_after_await hleads]
        exact .waiting hlistens hafter hfront rfl
      · rw [← Prod.eta (m₁.receive x.protocol), hreceive, Exchange.session_nil hleads]
        exact .ended hlistens

theorem under_resume (reaction : Reaction σ ε α)
    (h : m.Offers x.protocol held portions messages last) :
    Under x portions last m (x.session (x.unreceived (last.failure x.protocol)) messages reaction)
      (resume x reaction m) := by
  rw [resume, h.holds.backlog_eq]
  exact under_listen reaction h (Nat.lt_succ_self _)

/-- Once the other end has gone away, an exchange that waits for the rest of a message fails. -/
theorem resume_peerEnds {state : σ} (h : m.Offers x.protocol held [] messages last)
    (hfront : itemLength? held = .ok none) :
    ∃ after, resume x (.await state) m.peerEnds
        = (.ended (x.session (x.unreceived (last.failure x.protocol)) messages (.await state)).outcome, after)
      ∧ Wrote x.protocol
          (x.session (x.unreceived (last.failure x.protocol)) messages (.await state)).sent m after := by
  have hyields := h.yields
  rw [List.flatten_nil, List.append_nil, Segment.parse_of_next?_eq_none h.unframed, payloadsOn_nil,
    List.append_nil] at hyields
  obtain ⟨rfl, rfl⟩ := hyields.of_none hfront
  have hholds : m.peerEnds.Holds x.protocol true held := by
    have hleaves : m.peerLeaves.Holds x.protocol false held := h.holds
    exact hleaves.stop
  have hreceive := (hholds.receive_of_none hfront).1
  rw [if_pos rfl] at hreceive
  refine ⟨(m.peerEnds.receive x.protocol).2, ?_, ?_⟩
  · rw [resume, carryOut, listen, ← Prod.eta (m.peerEnds.receive x.protocol), hreceive,
      Exchange.session_nil rfl]
    rfl
  · have hends : Wrote x.protocol [] m m.peerEnds := .nothing rfl rfl
    rw [Exchange.session_nil rfl]
    exact hends.trans (wrote_receive m.peerEnds x.protocol)

end Portions

/-- However the bytes of a node arrive, an exchange sends what its session sends and ends as it does. -/
theorem attend_eq (x : Exchange σ ε α) {portions messages : List Bytes} {last : Reception}
    {m : Multiplexer} {held : Bytes} (reaction : Reaction σ ε α)
    (h : m.Offers x.protocol held portions messages last) :
    ∃ after, attend x portions reaction m
        = (.ended (x.session (x.unreceived (last.failure x.protocol)) messages reaction).outcome, after)
      ∧ Wrote x.protocol (x.session (x.unreceived (last.failure x.protocol)) messages reaction).sent
          m after := by
  induction portions generalizing m held messages reaction with
  | nil =>
    have hunder := under_resume reaction h
    rw [attend]
    generalize hresult : resume x reaction m = result at hunder
    cases hunder with
    | ended hwrote => exact ⟨_, rfl, hwrote⟩
    | waiting hwrote hoffers hfront hrest =>
      obtain ⟨final, hresume, hfinal⟩ := resume_peerEnds hoffers hfront
      rw [hrest]
      exact ⟨final, hresume, hwrote.trans hfinal⟩
  | cons portion rest ih =>
    have hunder := under_resume reaction h
    rw [attend]
    generalize hresult : resume x reaction m = result at hunder
    cases hunder with
    | ended hwrote => exact ⟨_, rfl, hwrote⟩
    | waiting hwrote hoffers hfront hrest =>
      obtain ⟨held', harrived⟩ := hoffers.arrive
      obtain ⟨final, hattend, hfinal⟩ := ih (.await _) harrived
      have harrives := wrote_arrive x.protocol hoffers.reading hoffers.peer portion
      refine ⟨final, ?_, ?_⟩
      · rw [hrest]
        exact hattend
      · rw [hrest]
        exact hwrote.trans (harrives.trans hfinal)

/-! ## Exchanges with another value -/

/-- The same with another value at the end. -/
def Progress.map {β : Type} (f : α → β) : Progress σ ε α → Progress σ ε β
  | .ended outcome => .ended (outcome.map f)
  | .waiting state => .waiting state

section Mapping

variable {β : Type} (f : α → β) (x : Exchange σ ε α)

theorem carryOut_map (reaction : Reaction σ ε α) (m : Multiplexer) :
    carryOut (x.map f) m (reaction.map f) = (carryOut x m reaction).map (Progress.map f) id := by
  cases reaction with
  | await state => rfl
  | fail error => rfl
  | request message state =>
    simp only [Reaction.map, carryOut, Exchange.map]
    split <;> rfl
  | conclude farewell value =>
    cases farewell with
    | none => rfl
    | some farewell =>
      simp only [Reaction.map, carryOut, Exchange.map]
      split <;> rfl

theorem listen_map (fuel : Nat) (result : Progress σ ε α × Multiplexer) :
    listen (x.map f) fuel (result.map (Progress.map f) id) = (listen x fuel result).map (Progress.map f) id := by
  induction fuel generalizing result with
  | zero => rfl
  | succ fuel ih =>
    obtain ⟨progress, m⟩ := result
    cases progress with
    | ended outcome => rfl
    | waiting state =>
      have hprotocol : (x.map f).protocol = x.protocol := rfl
      change listen (x.map f) (fuel + 1) (.waiting state, m) = _
      rw [listen, listen, hprotocol]
      generalize m.receive x.protocol = received
      obtain ⟨reception, m⟩ := received
      cases reception with
      | message bytes =>
        rw [← ih]
        exact congrArg (listen (x.map f) fuel) (carryOut_map f x (x.react state bytes) m)
      | _ => rfl

theorem resume_map (reaction : Reaction σ ε α) (m : Multiplexer) :
    resume (x.map f) (reaction.map f) m = (resume x reaction m).map (Progress.map f) id := by
  rw [resume, carryOut_map]
  exact listen_map f x _ _

/-- An exchange with another value goes on in the same way, and ends with that value. -/
theorem attend_map (portions : List Bytes) (reaction : Reaction σ ε α) (m : Multiplexer) :
    attend (x.map f) portions (reaction.map f) m = (attend x portions reaction m).map (Progress.map f) id := by
  induction portions generalizing reaction m with
  | nil =>
    rw [attend, attend, resume_map]
    rcases resume x reaction m with ⟨progress, m⟩
    cases progress with
    | ended outcome => rfl
    | waiting state => exact resume_map f x (.await state) m.peerEnds
  | cons portion rest ih =>
    rw [attend, attend, resume_map]
    rcases resume x reaction m with ⟨progress, m⟩
    cases progress with
    | ended outcome => rfl
    | waiting state => exact ih (.await state) (m.arrive portion)

end Mapping

/-! ## Ends of exchanges -/

/-- How an exchange ends that has waited: it has carried out what it does with a message, or no message has
come. -/
inductive EndsWaiting (x : Exchange σ ε α) : Except ε α → Multiplexer → Prop where
  | reacts {state : σ} {bytes : Bytes} {m after : Multiplexer} {outcome : Except ε α}
      (h : carryOut x m (x.react state bytes) = (.ended outcome, after)) : EndsWaiting x outcome after
  | fails (error : ReceiveError) (after : Multiplexer) : EndsWaiting x (.error (x.unreceived error)) after

section Ends

variable {x : Exchange σ ε α} {reaction : Reaction σ ε α} {state : σ} {outcome : Except ε α}
  {m after : Multiplexer}

theorem endsWaiting_of_listen {fuel : Nat} {result : Progress σ ε α × Multiplexer}
    (h : listen x fuel result = (.ended outcome, after)) :
    result = (.ended outcome, after) ∨ EndsWaiting x outcome after := by
  induction fuel generalizing result with
  | zero => exact .inl h
  | succ fuel ih =>
    obtain ⟨progress, m⟩ := result
    cases progress with
    | ended outcome => exact .inl h
    | waiting state =>
      rw [listen] at h
      generalize m.receive x.protocol = received at h
      obtain ⟨reception, m⟩ := received
      cases reception with
      | message bytes =>
        rcases ih h with hcarry | hlater
        · exact .inr (.reacts hcarry)
        · exact .inr hlater
      | malformed fault =>
        cases h
        exact .inr (.fails _ _)
      | closed =>
        cases h
        exact .inr (.fails _ _)
      | waiting => cases h

/-- An exchange that has something to do ends with that, or after it has waited. -/
theorem endsWaiting_of_attend {portions : List Bytes}
    (h : attend x portions reaction m = (.ended outcome, after)) :
    carryOut x m reaction = (.ended outcome, after) ∨ EndsWaiting x outcome after := by
  have hawait {state : σ} {m : Multiplexer} (hcarry : carryOut x m (.await state) = (.ended outcome, after)) :
      False := by
    cases hcarry
  induction portions generalizing reaction m with
  | nil =>
    rw [attend] at h
    generalize hresume : resume x reaction m = result at h
    obtain ⟨progress, m'⟩ := result
    cases progress with
    | ended outcome => exact endsWaiting_of_listen (hresume.trans h)
    | waiting state => exact .inr ((endsWaiting_of_listen h).resolve_left hawait)
  | cons portion rest ih =>
    rw [attend] at h
    generalize hresume : resume x reaction m = result at h
    obtain ⟨progress, m'⟩ := result
    cases progress with
    | ended outcome => exact endsWaiting_of_listen (hresume.trans h)
    | waiting state => exact .inr ((ih h).resolve_left hawait)

/-- An exchange that is to wait ends at once only if it cannot send what it has to send. -/
theorem carryOut_eq_ended_of_waiting (hleads : reaction.leads = .waiting state)
    (h : carryOut x m reaction = (.ended outcome, after)) : ∃ error, outcome = .error (x.unsent error) := by
  cases reaction with
  | await state => cases h
  | request message state =>
    rw [carryOut] at h
    generalize m.send x.protocol message = sent at h
    obtain ⟨sent, m⟩ := sent
    cases sent with
    | ok => cases h
    | error e =>
      cases h
      exact ⟨e, rfl⟩
  | conclude farewell value => cases hleads
  | fail error => cases hleads

/-- An exchange that takes its leave ends well only if its farewell has been sent. -/
theorem carryOut_farewell_eq_ended {farewell : Bytes} {value : α}
    (h : carryOut x m (.conclude (some farewell) value) = (.ended outcome, after)) :
    (outcome = .ok value ∧ m.send x.protocol farewell = (.ok (), after))
      ∨ ∃ error, outcome = .error (x.unsent error) := by
  rw [carryOut] at h
  generalize m.send x.protocol farewell = sent at h ⊢
  obtain ⟨sent, m⟩ := sent
  cases sent with
  | ok =>
    cases h
    exact .inl ⟨rfl, rfl⟩
  | error e =>
    cases h
    exact .inr ⟨e, rfl⟩

end Ends

end Multiplexer

end BlockFeed
