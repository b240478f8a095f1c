import BlockFeed.Proofs.Node.ForwardWalk

/-!
# Batches of blocks

A node that is asked for blocks sends them one by one between the start and the end of a batch, or says that
it has none. Whatever else it sends is an offence, and so is its going away: the whole batch is lost then
(`BlockFetch.Comes`). The messages up to the offence are a front of a batch (`BlockFetch.Awaits`).

Main statement: however the bytes of the node arrive, asking for blocks comes to a whole batch, to the word
that there is none, or to the first offence; and a block counts as missing only once the session has been
ended in due form (`BlockFetch.batch_of_messages`). The proof follows a stream over a front of a batch
(`BlockFetch.session_front`) and looks at what stands there (`BlockFetch.exists_comes`).
-/

namespace BlockFeed

open Multiplexer (attend Wrote)

namespace BlockFetch

/-! ## Messages of a node -/

/-- Messages that start a batch and bring these blocks. -/
def Streams (bodies : List Bytes) (front : List Bytes) : Prop :=
  front.map Message.decode = .ok .startBatch :: bodies.map fun body => .ok (.block body)

/-- Messages that are a whole batch of these blocks. -/
def IsBatch (bodies : List Bytes) (batch : List Bytes) : Prop :=
  ∃ front done, batch = front ++ [done] ∧ Streams bodies front ∧ Message.decode done = .ok .batchDone

/-- After these messages something is expected. -/
inductive Awaits : Expectation → List Bytes → Prop where
  | batch : Awaits .batch []
  | batchEnd {bodies front : List Bytes} (h : Streams bodies front) : Awaits .batchEnd front

/-- A message is one of those that are expected. -/
def Fits : Expectation → Message → Prop
  | .batch, .startBatch | .batch, .noBlocks | .batchEnd, .block _ | .batchEnd, .batchDone => True
  | _, _ => False

/-- What stands there does not go with what is expected: nothing at all, no message, or another one. -/
def Offends (expected : Expectation) : Option Bytes → Prop
  | none => True
  | some bytes => ∀ message, Message.decode bytes = .ok message → ¬ Fits expected message

/-- The failure on what offends, given the failure when nothing comes. -/
def offence (failure : NodeError) (expected : Expectation) : Option Bytes → NodeError
  | none => failure
  | some bytes =>
    match Message.decode bytes with
    | .ok message => .protocol (.unexpected .blockFetch message.name expected)
    | .error e => .protocol (.decode .blockFetch e)

/-- What messages come to: all blocks of a batch, none, or an offence. -/
inductive Comes (failure : NodeError) : List Bytes → Except NodeError (Option (List Bytes)) → Prop where
  | batch {bodies batch rest : List Bytes} (h : IsBatch bodies batch) :
      Comes failure (batch ++ rest) (.ok (some bodies))
  | noBlocks {message : Bytes} {rest : List Bytes} (h : Message.decode message = .ok .noBlocks) :
      Comes failure (message :: rest) (.ok none)
  | offending {expected : Expectation} {front rest : List Bytes} (hfront : Awaits expected front)
      (hrest : Offends expected rest.head?) :
      Comes failure (front ++ rest) (.error (offence failure expected rest.head?))

section Messages

variable {bodies front rest : List Bytes} {body message : Bytes} {failure : NodeError}

theorem Streams.concat (h : Streams bodies front) (hmessage : Message.decode message = .ok (.block body)) :
    Streams (bodies ++ [body]) (front ++ [message]) := by
  rw [Streams, List.map_append, h, List.map_append, List.map_singleton, hmessage]
  rfl

theorem streams_singleton (h : Message.decode message = .ok .startBatch) : Streams [] [message] :=
  congrArg (· :: []) h

theorem offends_of_decode_eq_error {expected : Expectation} {e : DecodeError}
    (h : Message.decode message = .error e) : Offends expected (some message) := by
  intro other hother
  rw [h] at hother
  cases hother

theorem offends_of_decode_eq_ok {expected : Expectation} {m : Message} (h : Message.decode message = .ok m)
    (hfits : ¬ Fits expected m) : Offends expected (some message) := by
  intro other hother
  rw [h] at hother
  cases hother
  exact hfits

/-- A batch that has been started comes to something. -/
theorem exists_comes_of_streams (h : Streams bodies front) (rest : List Bytes) :
    ∃ outcome, Comes failure (front ++ rest) outcome := by
  induction rest generalizing bodies front with
  | nil => exact ⟨_, .offending (.batchEnd h) trivial⟩
  | cons message rest ih =>
    have hoffending (hrest : Offends .batchEnd (some message)) :
        ∃ outcome, Comes failure (front ++ message :: rest) outcome :=
      ⟨_, .offending (.batchEnd h) hrest⟩
    cases hdecode : Message.decode message with
    | error e => exact hoffending (offends_of_decode_eq_error hdecode)
    | ok m =>
      cases m with
      | block body =>
        have hmore := ih (h.concat hdecode)
        rwa [List.append_assoc] at hmore
      | batchDone =>
        have hbatch : IsBatch bodies (front ++ [message]) := ⟨front, message, rfl, h, hdecode⟩
        have hcomes : Comes failure (front ++ [message] ++ rest) _ := .batch hbatch
        rw [List.append_assoc] at hcomes
        exact ⟨_, hcomes⟩
      | _ => exact hoffending (offends_of_decode_eq_ok hdecode id)

/-- Messages come to something. -/
theorem exists_comes (failure : NodeError) (messages : List Bytes) :
    ∃ outcome, Comes failure messages outcome := by
  cases messages with
  | nil =>
    have hnothing : Comes failure ([] ++ []) _ := .offending .batch trivial
    exact ⟨_, hnothing⟩
  | cons message rest =>
    have hoffending (hrest : Offends .batch (some message)) :
        ∃ outcome, Comes failure (message :: rest) outcome := by
      have hcomes : Comes failure ([] ++ message :: rest) _ := .offending .batch hrest
      exact ⟨_, hcomes⟩
    cases hdecode : Message.decode message with
    | error e => exact hoffending (offends_of_decode_eq_error hdecode)
    | ok m =>
      cases m with
      | startBatch => exact exists_comes_of_streams (streams_singleton hdecode) rest
      | noBlocks => exact ⟨_, .noBlocks hdecode⟩
      | _ => exact hoffending (offends_of_decode_eq_ok hdecode id)

end Messages

/-! ## Sessions of a stream -/

/-- What a stream expects. -/
def StreamState.expects : StreamState → Expectation
  | .asked => .batch
  | .streaming _ => .batchEnd

section Sessions

variable {first final : Point} {farewell : Option Message} {failure : NodeError}
  {bodies front : List Bytes} {message : Bytes} {state : StreamState}

theorem react_of_decode_eq_ok {m : Message} (h : Message.decode message = .ok m) :
    (requestRange first final farewell).react state message = streamMessage farewell state m := by
  change Reaction.ofExcept (received message >>= fun m => pure (streamMessage farewell state m)) = _
  rw [received, h]
  rfl

/-- What offends ends a stream. -/
theorem react_of_offends (failure : NodeError) (h : Offends state.expects (some message)) :
    (requestRange first final farewell).react state message
      = .fail (offence failure state.expects (some message)) := by
  cases hdecode : Message.decode message with
  | error e =>
    change Reaction.ofExcept (received message >>= fun m => pure (streamMessage farewell state m)) = _
    rw [received, offence, hdecode]
    rfl
  | ok m =>
    have hfits := h m hdecode
    rw [react_of_decode_eq_ok hdecode, offence, hdecode]
    cases state <;> cases m <;> first | rfl | exact absurd trivial hfits

/-- A stream that waits where something offends fails. -/
theorem session_of_offends {reaction : Reaction StreamState NodeError (Option (List Bytes))}
    (hleads : reaction.leads = .waiting state) {rest : List Bytes} (h : Offends state.expects rest.head?) :
    (requestRange first final farewell).session failure rest reaction
      = ⟨reaction.sends, rest.head?.toList, .error (offence failure state.expects rest.head?)⟩ := by
  cases rest with
  | nil => exact Exchange.session_nil hleads
  | cons message rest =>
    rw [Exchange.session_cons hleads, react_of_offends failure h, Exchange.session_of_ended rfl]
    simp [Exchange.Session.after, Reaction.sends]

/-- A stream takes blocks, one by one. -/
theorem session_blocks {blocks passed : List Bytes}
    (h : blocks.map Message.decode = bodies.map fun body => .ok (.block body)) (rest : List Bytes) :
    (requestRange first final farewell).session failure (blocks ++ rest) (.await (.streaming passed))
      = ((requestRange first final farewell).session failure rest
          (.await (.streaming (bodies.reverse ++ passed)))).after [] blocks := by
  induction bodies generalizing blocks passed with
  | nil =>
    obtain rfl : blocks = [] := List.map_eq_nil_iff.mp h
    rfl
  | cons body bodies ih =>
    obtain ⟨message, blocks, rfl, hmessage, hblocks⟩ := List.map_eq_cons_iff.mp h
    rw [List.cons_append, Exchange.session_cons rfl, react_of_decode_eq_ok hmessage]
    change ((requestRange first final farewell).session failure (blocks ++ rest)
      (.await (.streaming (body :: passed)))).after _ _ = _
    rw [ih hblocks, Exchange.Session.after_after, List.reverse_cons, List.append_assoc]
    rfl

/-- A stream takes the front of a batch, for which it has asked. -/
theorem session_front (h : Streams bodies front) (rest : List Bytes) :
    (requestRange first final farewell).session failure (front ++ rest)
        (requestRange first final farewell).start
      = ((requestRange first final farewell).session failure rest
          (.await (.streaming bodies.reverse))).after [(Message.requestRange first final).encode] front := by
  obtain ⟨message, blocks, rfl, hmessage, hblocks⟩ := List.map_eq_cons_iff.mp h
  rw [List.cons_append, Exchange.session_cons rfl, react_of_decode_eq_ok hmessage]
  change ((requestRange first final farewell).session failure (blocks ++ rest)
    (.await (.streaming []))).after _ _ = _
  rw [session_blocks hblocks, Exchange.Session.after_after, List.append_nil]
  rfl

/-- What is sent at the end of a stream: the farewell, if the stream has come to an answer. -/
def farewells (farewell : Option Message) : Except NodeError (Option (List Bytes)) → List Bytes
  | .ok _ => farewell.toList.map Message.encode
  | .error _ => []

/-- A stream that waits ends with an answer. -/
theorem session_of_concludes {reaction : Reaction StreamState NodeError (Option (List Bytes))}
    (hleads : reaction.leads = .waiting state) {m : Message} (hdecode : Message.decode message = .ok m)
    {found : Option (List Bytes)}
    (h : streamMessage farewell state m = .conclude (farewell.map Message.encode) found) (rest : List Bytes) :
    (requestRange first final farewell).session failure (message :: rest) reaction
      = ⟨reaction.sends ++ farewells farewell (.ok found), [message], .ok found⟩ := by
  rw [Exchange.session_cons hleads, react_of_decode_eq_ok hdecode, h, Exchange.session_of_ended rfl]
  cases farewell <;> rfl

/-- A session ends with what the messages come to. -/
theorem session_of_comes {messages : List Bytes} {outcome : Except NodeError (Option (List Bytes))}
    (h : Comes failure messages outcome) :
    let s := (requestRange first final farewell).session failure messages
      (requestRange first final farewell).start
    s.outcome = outcome ∧ s.sent = (Message.requestRange first final).encode :: farewells farewell outcome := by
  cases h with
  | batch h =>
    obtain ⟨front, done, rfl, hfront, hdone⟩ := h
    rw [List.append_assoc, session_front hfront, List.singleton_append, session_of_concludes rfl hdone rfl,
      List.reverse_reverse]
    exact ⟨rfl, rfl⟩
  | noBlocks h =>
    rw [session_of_concludes rfl h rfl]
    exact ⟨rfl, rfl⟩
  | offending hfront hrest =>
    cases hfront with
    | batch =>
      have hasks : (requestRange first final farewell).start.leads = .waiting .asked := rfl
      rw [List.nil_append, session_of_offends hasks hrest]
      exact ⟨rfl, rfl⟩
    | @batchEnd bodies _ h =>
      have hwaits : (Reaction.await (.streaming bodies.reverse) :
          Reaction StreamState NodeError (Option (List Bytes))).leads = .waiting (.streaming bodies.reverse) := rfl
      rw [session_front h, session_of_offends hwaits hrest]
      exact ⟨rfl, rfl⟩

/-- A session ends with nothing else. -/
theorem outcome_session_iff {messages : List Bytes} {outcome : Except NodeError (Option (List Bytes))} :
    ((requestRange first final farewell).session failure messages
        (requestRange first final farewell).start).outcome = outcome ↔ Comes failure messages outcome := by
  refine ⟨?_, fun h => (session_of_comes h).1⟩
  rintro rfl
  obtain ⟨outcome, hcomes⟩ := exists_comes failure messages
  rwa [(session_of_comes hcomes).1]

end Sessions

/-! ## Ends of a stream -/

section Ends

variable {first final point : Point} {farewell : Message} {failure : NodeError}

theorem isRetryable_ofReceive (error : ReceiveError) : (NodeError.ofReceive error).isRetryable = true := by
  cases error <;> rfl

/-- The failure on what offends is worth another attempt if the failure when nothing comes is. -/
theorem isRetryable_offence (h : failure.isRetryable = true) (expected : Expectation) (frame : Option Bytes) :
    (offence failure expected frame).isRetryable = true := by
  cases frame with
  | none => exact h
  | some bytes =>
    rw [offence]
    cases Message.decode bytes <;> rfl

/-- What a stream does with a message: it goes on, gives an answer or fails for a cause that is worth another
attempt. -/
theorem react_cases (farewell : Option Message) (state : StreamState) (message : Bytes) :
    (∃ next, (requestRange first final farewell).react state message = .await next)
      ∨ (∃ found, (requestRange first final farewell).react state message
        = .conclude (farewell.map Message.encode) found)
      ∨ ∃ cause, (requestRange first final farewell).react state message = .fail cause
        ∧ cause.isRetryable = true := by
  cases hdecode : Message.decode message with
  | error e =>
    have hoffends : Offends state.expects (some message) := offends_of_decode_eq_error hdecode
    exact .inr (.inr ⟨_, react_of_offends (.connection .closed) hoffends, isRetryable_offence rfl _ _⟩)
  | ok m =>
    rw [react_of_decode_eq_ok hdecode]
    cases state <;> cases m <;>
      first
        | exact .inl ⟨_, rfl⟩
        | exact .inr (.inl ⟨_, rfl⟩)
        | exact .inr (.inr ⟨_, rfl, rfl⟩)

/-- An outcome is an answer, and the farewell has been the last thing that was sent, or it is a failure that is
worth another attempt. -/
def Settled {α : Type} (farewell : Message) (after : Multiplexer) : Except NodeError α → Prop
  | .ok _ => ∃ before : Multiplexer, before.send .blockFetch farewell.encode = (.ok (), after)
  | .error cause => cause.isRetryable = true

theorem settled_of_endsWaiting {outcome : Except NodeError (Option Bytes)} {after : Multiplexer}
    (h : Multiplexer.EndsWaiting (requestBlock point (some farewell)) outcome after) :
    Settled farewell after outcome := by
  cases h with
  | @reacts state bytes m _ _ h =>
    have hreact : (requestBlock point (some farewell)).react state bytes
        = ((requestRange point point (some farewell)).react state bytes).map fun bodies =>
          bodies.bind List.head? := rfl
    rw [hreact] at h
    rcases react_cases (some farewell) state bytes with ⟨next, hnext⟩ | ⟨found, hfound⟩ | ⟨cause, hfail, hcause⟩
    · rw [hnext] at h
      cases h
    · rw [hfound] at h
      rcases Multiplexer.carryOut_farewell_eq_ended h with ⟨rfl, hsent⟩ | ⟨error, rfl⟩
      · exact ⟨m, hsent⟩
      · exact (rfl : NodeError.isRetryable (.connection error) = true)
    · rw [hfail] at h
      cases h
      exact hcause
  | fails error => exact isRetryable_ofReceive error

end Ends

end BlockFetch

/-- A conversation that was to wait for the node, at whatever end, has come to an outcome. -/
def Conversation.CameTo (c : Conversation) (outcome : Except NodeError c.Result) (after : Multiplexer) : Prop :=
  ∃ reaction state portions m, reaction.leads = .waiting state
    ∧ attend c.exchange portions reaction m = (.ended outcome, after)

/-- What is made of an answer for the block at a point. -/
def BlockFetch.delivered (point : Point) : Option Bytes → Except NodeError Bytes
  | some body => .ok body
  | none => .error (.notFound (.block point))

variable {σ : Type}

/-- What comes of fetching a block is what came of its conversation, and a block that the node does not have
is missing. -/
theorem Attempt.fetchBlock_of_ends {s : NodeSettings} {point : Point} {before after : σ}
    {log : List Link.Event} {outcome : Except NodeError Bytes}
    (h : ((Attempt.fetchBlock s point).start before).Ends log after outcome) :
    ∃ came : Except NodeError (Option Bytes), Spoken s (.fetchBlock point) log came
      ∧ outcome = came.bind (BlockFetch.delivered point) := by
  have hkeeps : (Attempt.fetchBlock s point : Attempt σ Bytes).Keeps (recorded Link σ)
      (fun log _ body => ∃ came : Except NodeError (Option Bytes), Spoken s (.fetchBlock point) log came
        ∧ .ok body = came.bind (BlockFetch.delivered point))
      (fun log _ cause => ∃ came : Except NodeError (Option Bytes), Spoken s (.fetchBlock point) log came
        ∧ .error cause = came.bind (BlockFetch.delivered point)) [] before := by
    refine Routine.keeps_bind.mpr ((keeps_converse s _ before).mono ?_ ?_)
    · intro log memory (found : Option Bytes) hspoken
      cases found with
      | none => exact ⟨_, hspoken, rfl⟩
      | some body => exact ⟨_, hspoken, rfl⟩
    · intro log memory cause hspoken
      exact ⟨_, hspoken, rfl⟩
  have hended := Run.keeps_recorded_iff.mp hkeeps log after outcome h
  cases outcome <;> exact hended

namespace BlockFetch

/-- An answer can be told from what is made of it, and from failures that are worth another attempt. -/
theorem bind_delivered_eq_iff {point : Point} {came : Except NodeError (Option Bytes)}
    (h : ∀ cause, came = .error cause → cause.isRetryable = true) (found : Option Bytes) :
    came.bind (delivered point) = delivered point found ↔ came = .ok found := by
  refine ⟨fun hbind => ?_, fun hcame => hcame ▸ rfl⟩
  cases came with
  | error cause =>
    have hcause : cause.isRetryable = true := h cause rfl
    cases found with
    | none =>
      cases hbind
      cases hcause
    | some body => cases hbind
  | ok value =>
    cases value with
    | none =>
      cases found with
      | none => rfl
      | some body => cases hbind
    | some body =>
      cases found with
      | none => cases hbind
      | some other =>
        cases hbind
        rfl

theorem settled_of_cameTo {point : Point} {outcome : Except NodeError (Option Bytes)} {after : Multiplexer}
    (h : (Conversation.fetchBlock point).CameTo outcome after) : Settled .clientDone after outcome := by
  obtain ⟨reaction, state, portions, m, hleads, hattend⟩ := h
  rcases Multiplexer.endsWaiting_of_attend hattend with hcarry | hends
  · obtain ⟨error, rfl⟩ := Multiplexer.carryOut_eq_ended_of_waiting hleads hcarry
    exact (rfl : NodeError.isRetryable (.connection error) = true)
  · exact settled_of_endsWaiting hends

/-- Blocks come as a whole batch or not at all. However the bytes of a node arrive, asking for blocks comes to
all bodies of a batch, in their order, if and only if the first messages of the node are that batch; to none
if and only if the first message says so; and otherwise to the failure of the first message that does not go
with what is expected, or of there being no more, which is noticed after the last message, as `attend` has it.
The farewell is sent if and only if there is an answer. Asking for one block comes to the first body of that
batch. A conversation about one block has an answer only once its farewell has been sent, at whatever end; and
fetching the block then comes to its body, or to the failure that the block is missing if there is none,
provided that the connection ends in time. -/
theorem batch_of_messages :
    (∀ (m : Multiplexer) (held : Bytes) (portions messages : List Bytes) (last : Reception),
      m.Offers .blockFetch held portions messages last →
      ∀ (first final : Point) (farewell : Option Message),
        let x := requestRange first final farewell
        let failure := NodeError.ofReceive (last.failure .blockFetch)
        ∃ outcome after, attend x portions x.start m = (.ended outcome, after)
          ∧ Wrote .blockFetch ((Message.requestRange first final).encode :: farewells farewell outcome) m after
          ∧ (∀ bodies, outcome = .ok (some bodies) ↔
            ∃ batch rest, messages = batch ++ rest ∧ IsBatch bodies batch)
          ∧ (outcome = .ok none ↔
            ∃ message rest, messages = message :: rest ∧ Message.decode message = .ok .noBlocks)
          ∧ ∀ cause, outcome = .error cause ↔
            ∃ expected front rest, messages = front ++ rest ∧ Awaits expected front
              ∧ Offends expected rest.head? ∧ cause = offence failure expected rest.head?) ∧
    (∀ (m : Multiplexer) (portions : List Bytes) (point : Point) (farewell : Option Message),
      attend (requestBlock point farewell) portions (requestBlock point farewell).start m
        = (attend (requestRange point point farewell) portions (requestRange point point farewell).start m).map
          (Multiplexer.Progress.map fun bodies => bodies.bind List.head?) id) ∧
    (∀ (point : Point) (found : Option Bytes) (after : Multiplexer),
      (Conversation.fetchBlock point).CameTo (.ok found) after →
      ∃ before : Multiplexer, before.send .blockFetch Message.clientDone.encode = (.ok (), after)) ∧
    ∀ (settings : NodeSettings) (point : Point) (before after : σ) (log : List Link.Event)
      (outcome : Except NodeError Bytes),
      ((Attempt.fetchBlock settings point).start before).Ends log after outcome →
      (∀ came, (⟨.converse (.fetchBlock point), some came⟩ : Link.Event) ∈ log →
        ∃ final, (Conversation.fetchBlock point).CameTo came final) →
      ∀ found : Option Bytes, outcome = delivered point found ↔
        (⟨.converse (.fetchBlock point), some (.ok found)⟩ : Link.Event) ∈ log
          ∧ log.getLast? = some ⟨.hangUp, some ()⟩ := by
  refine ⟨?_, ?_, fun point found after hcame => settled_of_cameTo hcame, ?_⟩
  · intro m held portions messages last hoffers first final farewell x failure
    obtain ⟨after, hattend, hwrote⟩ := Multiplexer.attend_eq x x.start hoffers
    obtain ⟨outcome, hcomes⟩ := exists_comes failure messages
    obtain ⟨houtcome, hsent⟩ : (x.session failure messages x.start).outcome = outcome
        ∧ (x.session failure messages x.start).sent
          = (Message.requestRange first final).encode :: farewells farewell outcome := session_of_comes hcomes
    have hiff {other : Except NodeError (Option (List Bytes))} :
        outcome = other ↔ Comes failure messages other := houtcome ▸ outcome_session_iff
    refine ⟨outcome, after, ?_, ?_, fun bodies => hiff.trans ?_, hiff.trans ?_, fun cause => hiff.trans ?_⟩
    · rw [← houtcome]
      exact hattend
    · rw [← hsent]
      exact hwrote
    · constructor
      · rintro ⟨h⟩
        exact ⟨_, _, rfl, h⟩
      · rintro ⟨batch, rest, rfl, h⟩
        exact .batch h
    · constructor
      · rintro ⟨⟩
        exact ⟨_, _, rfl, ‹_›⟩
      · rintro ⟨message, rest, rfl, h⟩
        exact .noBlocks h
    · constructor
      · rintro ⟨⟩
        exact ⟨_, _, _, rfl, ‹_›, ‹_›, rfl⟩
      · rintro ⟨expected, front, rest, rfl, hfront, hrest, rfl⟩
        exact .offending hfront hrest
  · intro m portions point farewell
    let x := requestRange point point farewell
    exact Multiplexer.attend_map (fun bodies => bodies.bind List.head?) x portions x.start m
  · intro settings point before after log outcome hends hgenuine found
    obtain ⟨came, hspoken, rfl⟩ := Attempt.fetchBlock_of_ends hends
    refine (bind_delivered_eq_iff (fun cause hcame => ?_) found).trans (hspoken.eq_ok_iff found)
    subst hcame
    -- a failure that is final would be what the conversation has come to, which never says so
    cases hcause : cause.isRetryable with
    | true => rfl
    | false =>
      obtain ⟨final, hsettled⟩ := hgenuine _ (hspoken.mem_of_final hcause)
      exact hcause.symm.trans (settled_of_cameTo hsettled)

/-- A batch of two blocks. -/
def sampleBatch : List Bytes :=
  [Message.startBatch.encode, (Message.block [0x80]).encode, (Message.block [0x01, 0x02]).encode,
    Message.batchDone.encode]

theorem isItem_sampleBatch : ∀ message ∈ sampleBatch, Cbor.IsItem message := by
  simp only [sampleBatch, List.forall_mem_cons]
  exact ⟨⟨by decide, rfl⟩, ⟨by decide, rfl⟩, ⟨by decide, rfl⟩, ⟨by decide, rfl⟩, nofun⟩

/-- A node that can be reached and has no block. -/
def barren : Behaviour Link
  | _, .converse (.fetchBlock _) => some (.ok (none : Option Bytes))
  | log, query => ChainSync.stranger log query

/-- How fetching the origin from that node ends. -/
def sampleEnding : Run.Ending Link Unit (Except NodeError Bytes) :=
  ((Attempt.fetchBlock {} .origin).start ()).against barren

theorem log_sampleEnding : sampleEnding.log
    = [⟨.tryGate, true⟩, ⟨.connect (NodeSettings.address {}) (NodeSettings.connectTimeout {}), some .connected⟩,
      ⟨.track, ()⟩,
      ⟨.negotiate 764824073 (NodeSettings.handshakeTimeout {}), some (.ok Handshake.spokenVersion)⟩,
      ⟨.leaveGate, ()⟩, ⟨.note (.connectionAttempt "ok"), ()⟩,
      ⟨.converse (.fetchBlock .origin), some (.ok (none : Option Bytes))⟩, ⟨.hangUp, some ()⟩] := rfl

/-- A node that says that it has no blocks leads to that answer. -/
theorem cameTo_barren :
    ∃ final, (Conversation.fetchBlock .origin).CameTo (.ok (none : Option Bytes)) final := by
  have hitem : Cbor.IsItem Message.noBlocks.encode := ⟨by decide, rfl⟩
  have hoffers := Multiplexer.offers_sent .blockFetch (List.forall_mem_singleton.mpr hitem) 3
  obtain ⟨final, hattend, -⟩ := Multiplexer.attend_eq (requestBlock .origin (some .clientDone))
    (requestBlock .origin (some .clientDone)).start hoffers
  exact ⟨final, _, .asked, _, _, rfl, hattend⟩

/-- The batch of two blocks is cut in the middle of the first one. Another node has no blocks. -/
theorem batch_of_messages_sample :
    let m := Multiplexer.new .initiator MiniProtocol.all
    let x := requestRange .origin .origin (some .clientDone)
    (∃ portions, m.Offers .blockFetch [] portions sampleBatch .closed ∧
      ∃ after, attend x portions x.start m = (.ended (.ok (some [[0x80], [0x01, 0x02]])), after)
        ∧ Wrote .blockFetch [(Message.requestRange .origin .origin).encode, Message.clientDone.encode] m after) ∧
      ∃ final, (Conversation.fetchBlock .origin).CameTo (.ok (none : Option Bytes)) final ∧
        (∃ before : Multiplexer, before.send .blockFetch Message.clientDone.encode = (.ok (), final)) ∧
        sampleEnding.value = .error (.notFound (.block .origin)) := by
  intro m x
  obtain ⟨hblocks, -, hfarewell, hfetch⟩ := batch_of_messages
  have hoffers := Multiplexer.offers_sent .blockFetch isItem_sampleBatch 14
  obtain ⟨outcome, after, hattend, hwrote, hbatch, -⟩ :=
    hblocks m [] _ sampleBatch .closed hoffers .origin .origin (some .clientDone)
  have hsample : IsBatch [[0x80], [0x01, 0x02]] sampleBatch :=
    ⟨sampleBatch.take 3, Message.batchDone.encode, rfl, rfl, rfl⟩
  obtain rfl := (hbatch _).mpr ⟨sampleBatch, [], rfl, hsample⟩
  obtain ⟨final, hcame⟩ := cameTo_barren
  have hends := Run.ends_against ((Attempt.fetchBlock {} .origin).start ()) barren
  have hgenuine : ∀ came, (⟨.converse (.fetchBlock .origin), some came⟩ : Link.Event) ∈ sampleEnding.log →
      ∃ final, (Conversation.fetchBlock .origin).CameTo came final := by
    intro came hmem
    simp only [log_sampleEnding, List.mem_cons, List.not_mem_nil, or_false] at hmem
    rcases hmem with h | h | h | h | h | h | h | h <;> cases h
    exact cameTo_barren
  have hmissing := (hfetch {} .origin () _ sampleEnding.log _ hends hgenuine none).mpr
    ⟨by simp [log_sampleEnding], by simp [log_sampleEnding]⟩
  exact ⟨⟨_, hoffers, after, hattend, hwrote⟩, final, hcame, hfarewell .origin none final hcame, hmissing⟩

end BlockFetch

end BlockFeed
