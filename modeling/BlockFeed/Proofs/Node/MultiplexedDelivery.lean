import BlockFeed.Node.Multiplexer
import BlockFeed.Proofs.Wire.Framing
import BlockFeed.Proofs.Wire.Reassembly

/-!
# Delivery through two multiplexers

Messages of several mini-protocols are sent through one multiplexer, and what it writes travels over
a bearer to another one. The bearer keeps the order of bytes, but it may carry segments of other
conversations in between, and its bytes may arrive in any portions.

Main statement: every segment that is written is well formed, and each mini-protocol of the other end
receives exactly the messages that were sent on it, in order, whatever the order in which the
mini-protocols are listened to (`delivery_of_items`).

The proof follows the bytes of one mini-protocol. `payloadsOn` collects them from segments;
`Holds` says that they are what a channel has still to give. Routing adds to them (`Holds.route`),
and receiving takes one item away (`Holds.receive_cons`).
-/

namespace BlockFeed

/-- A segment that is sent at a time. -/
def Segment.sentAt (time : UInt32) (s : Segment) : Segment :=
  { s with header := { s.header with timestamp := time } }

namespace Multiplexer

open Cbor (IsItem)

/-- Sends messages one after the other, each on its mini-protocol. -/
def sendAll (m : Multiplexer) : List (MiniProtocol × Bytes) → Except ConnectionError Multiplexer
  | [] => .ok m
  | (protocol, message) :: rest =>
    match m.send protocol message with
    | (.ok _, m) => m.sendAll rest
    | (.error e, _) => .error e

/-- Listens to mini-protocols, one after the other, for one message each. -/
def receiveEach (m : Multiplexer) : List MiniProtocol → List (MiniProtocol × Reception)
  | [] => []
  | protocol :: rest =>
    match m.receive protocol with
    | (reception, m) => (protocol, reception) :: m.receiveEach rest

/-- What concerns one mini-protocol. -/
def onlyOn {α : Type} (protocol : MiniProtocol) (entries : List (MiniProtocol × α)) : List α :=
  (entries.filter (·.1 = protocol)).map (·.2)

/-- A segment is for none of the mini-protocols: of its number 15 bits count. -/
def IsForeign (protocols : List MiniProtocol) (s : Segment) : Prop :=
  s.IsFramed ∧ ∀ p ∈ protocols, s.header.protocolId.toNat % Segment.responderBit ≠ p.id.toNat

/-- A bearer carries what has been written, each segment sent at some time, with foreign segments in
between. -/
inductive Carries (protocols : List MiniProtocol) : List Segment → List Segment → Prop
  | idle : Carries protocols [] []
  | own {written bearer : List Segment} (s : Segment) (time : UInt32)
      (rest : Carries protocols written bearer) :
      Carries protocols (s :: written) (s.sentAt time :: bearer)
  | foreign {written bearer : List Segment} {s : Segment} (hs : IsForeign protocols s)
      (rest : Carries protocols written bearer) : Carries protocols written (s :: bearer)

/-- Segments are those of a message that one end sends: together they hold it, none is empty or too
large, and the header of each is read back whenever it is sent. -/
structure CutFrom (side : Side) (sent : MiniProtocol × Bytes) (segments : List Segment) : Prop where
  whole : (segments.map Segment.payload).flatten = sent.2
  size : ∀ s ∈ segments, 1 ≤ s.payload.length ∧ s.payload.length ≤ 12288
  header : ∀ s ∈ segments, ∀ time, ∃ length : UInt16, length.toNat = s.payload.length ∧
    Segment.Header.decode (s.sentAt time).header.encode = ⟨time, side, sent.1.id, length⟩

/-! ## Writing -/

/-- The segments of a message, stamped with no time. -/
def segmentsOf (side : Side) (sent : MiniProtocol × Bytes) : List Segment :=
  Segment.ofMessage (fun _ => 0) side sent.1 sent.2

theorem mem_segmentsOf {side : Side} {sent : MiniProtocol × Bytes} {s : Segment}
    (h : s ∈ segmentsOf side sent) :
    ∃ payload, 1 ≤ payload.length ∧ payload.length ≤ 12288 ∧
      s = Segment.make 0 side sent.1 payload := by
  rw [segmentsOf, Segment.ofMessage, List.mem_mapIdx] at h
  obtain ⟨i, hi, rfl⟩ := h
  obtain ⟨hpos, hmax⟩ := Segment.length_of_mem_cut (List.getElem_mem hi)
  exact ⟨_, hpos, hmax, rfl⟩

/-- The length of a payload of a segment fits its header. -/
theorem isFramed_of_mem_segmentsOf {side : Side} {sent : MiniProtocol × Bytes} {s : Segment}
    (h : s ∈ segmentsOf side sent) : s.IsFramed := by
  obtain ⟨payload, -, hmax, rfl⟩ := mem_segmentsOf h
  have hlength : (UInt16.ofNat payload.length).toNat = payload.length := by
    rw [UInt16.toNat_ofNat']
    omega
  exact hlength.symm

theorem cutFrom_segmentsOf (side : Side) (sent : MiniProtocol × Bytes) :
    CutFrom side sent (segmentsOf side sent) where
  whole := by rw [segmentsOf, Segment.map_payload_ofMessage, Segment.flatten_cut]
  size s hs := by
    obtain ⟨payload, hpos, hmax, rfl⟩ := mem_segmentsOf hs
    exact ⟨hpos, hmax⟩
  header s hs time := by
    have hframed := isFramed_of_mem_segmentsOf hs
    obtain ⟨payload, -, -, rfl⟩ := mem_segmentsOf hs
    refine ⟨UInt16.ofNat payload.length, hframed.symm, ?_⟩
    exact (Segment.Header.decode_encode _).trans
      (Segment.Header.onWire_of_known (h := ⟨time, side, sent.1.id, _⟩) rfl)

/-- An open end writes the segments of every message in order. -/
theorem sendAll_eq {m : Multiplexer} (hopen : m.closed = false) (hpeer : m.peerOpen = true)
    (sends : List (MiniProtocol × Bytes)) :
    m.sendAll sends
      = .ok { m with written := m.written ++ sends.flatMap (segmentsOf m.side) } := by
  induction sends generalizing m with
  | nil => simp [sendAll]
  | cons sent rest ih =>
    obtain ⟨protocol, message⟩ := sent
    have hsend : m.send protocol message =
        (.ok (), { m with written := m.written ++ segmentsOf m.side (protocol, message) }) := by
      simp [send, hopen, hpeer, segmentsOf]
    rw [sendAll, hsend]
    simp only
    have hrest := ih (m := { m with written := m.written ++ segmentsOf m.side (protocol, message) })
      hopen hpeer
    rw [hrest, List.flatMap_cons, List.append_assoc]

/-! ## Routing -/

/-- The bytes of one mini-protocol in segments. -/
def payloadsOn (protocol : MiniProtocol) (segments : List Segment) : Bytes :=
  ((segments.filter fun s => MiniProtocol.ofId? s.header.protocolId = some protocol).map
    Segment.payload).flatten

@[simp] theorem payloadsOn_nil (protocol : MiniProtocol) : payloadsOn protocol [] = [] := rfl

theorem payloadsOn_cons (protocol : MiniProtocol) (s : Segment) (segments : List Segment) :
    payloadsOn protocol (s :: segments) =
      (if MiniProtocol.ofId? s.header.protocolId = some protocol then s.payload else [])
        ++ payloadsOn protocol segments := by
  unfold payloadsOn
  by_cases h : MiniProtocol.ofId? s.header.protocolId = some protocol <;> simp [h]

theorem payloadsOn_append (protocol : MiniProtocol) (front back : List Segment) :
    payloadsOn protocol (front ++ back) = payloadsOn protocol front ++ payloadsOn protocol back := by
  simp [payloadsOn]

/-- The channel of a mini-protocol has some bytes still to give. -/
def Holds (m : Multiplexer) (protocol : MiniProtocol) (ended : Bool) (bytes : Bytes) : Prop :=
  ∃ channel, m.channels.lookup protocol = some channel ∧ channel.pending = bytes ∧
    channel.ended = ended

/-- Channels that change, each as its mini-protocol has it, are found where they were. -/
theorem lookup_map_channels (channels : List (MiniProtocol × Channel)) (protocol : MiniProtocol)
    (f : MiniProtocol → Channel → Channel) :
    (channels.map fun entry => (entry.1, f entry.1 entry.2)).lookup protocol
      = (channels.lookup protocol).map (f protocol) := by
  induction channels with
  | nil => rfl
  | cons entry rest ih =>
    obtain ⟨key, channel⟩ := entry
    rw [List.map_cons, List.lookup_cons, List.lookup_cons]
    by_cases hkey : protocol = key
    · subst hkey
      simp
    · have hne : (protocol == key) = false := by simpa using hkey
      simpa only [hne] using ih

theorem lookup_updateChannel (m : Multiplexer) (changed protocol : MiniProtocol)
    (f : Channel → Channel) :
    (m.updateChannel changed f).channels.lookup protocol =
      if protocol = changed then (m.channels.lookup protocol).map f
      else m.channels.lookup protocol := by
  have hchannels : (m.updateChannel changed f).channels = m.channels.map fun entry =>
      (entry.1, if entry.1 = changed then f entry.2 else entry.2) := by
    unfold updateChannel
    dsimp only
    congr 1
    funext entry
    by_cases hentry : entry.1 = changed <;> simp [hentry]
  rw [hchannels, lookup_map_channels m.channels protocol fun key channel =>
    if key = changed then f channel else channel]
  by_cases hchanged : protocol = changed <;> simp [hchanged]

/-- Routing a segment gives its payload to its mini-protocol and to no other. -/
theorem Holds.route {m : Multiplexer} {protocol : MiniProtocol} {ended : Bool} {bytes : Bytes}
    (h : m.Holds protocol ended bytes) (s : Segment) :
    (m.route s).Holds protocol ended (bytes ++ payloadsOn protocol [s]) := by
  obtain ⟨channel, hlookup, hpending, hended⟩ := h
  rw [payloadsOn_cons, payloadsOn_nil, List.append_nil]
  unfold Multiplexer.route
  cases hid : MiniProtocol.ofId? s.header.protocolId with
  | none => exact ⟨channel, hlookup, by simp [hpending], hended⟩
  | some target =>
    by_cases htarget : protocol = target
    · refine ⟨channel.deliver s.payload, ?_, ?_, hended⟩
      · rw [lookup_updateChannel, if_pos htarget, hlookup]
        rfl
      · rw [Channel.pending_deliver, hpending, if_pos (by rw [htarget])]
    · refine ⟨channel, ?_, ?_, hended⟩
      · rw [lookup_updateChannel, if_neg htarget, hlookup]
      · rw [hpending, if_neg (by simpa using Ne.symm htarget), List.append_nil]

theorem Holds.foldl_route {m : Multiplexer} {protocol : MiniProtocol} {ended : Bool} {bytes : Bytes}
    (h : m.Holds protocol ended bytes) (segments : List Segment) :
    (segments.foldl Multiplexer.route m).Holds protocol ended
      (bytes ++ payloadsOn protocol segments) := by
  induction segments generalizing m bytes with
  | nil => simpa using h
  | cons s rest ih =>
    have hstep := ih (h.route s)
    rwa [List.append_assoc, ← payloadsOn_append, List.singleton_append] at hstep

/-- Routing touches nothing but channels. -/
theorem foldl_route_eq (m : Multiplexer) (segments : List Segment) :
    ∃ channels, segments.foldl Multiplexer.route m = { m with channels } := by
  induction segments generalizing m with
  | nil => exact ⟨m.channels, rfl⟩
  | cons s rest ih =>
    have hroute : ∃ channels, m.route s = { m with channels } := by
      unfold Multiplexer.route
      split
      · exact ⟨_, rfl⟩
      · exact ⟨m.channels, rfl⟩
    obtain ⟨channels, hs⟩ := hroute
    obtain ⟨after, hrest⟩ := ih (m.route s)
    exact ⟨after, by rw [List.foldl_cons, hrest, hs]⟩

/-- Routing does not look at what is left of a segment. -/
theorem foldl_route_partial (m : Multiplexer) (left : Bytes) (segments : List Segment) :
    segments.foldl Multiplexer.route { m with partialSegment := left }
      = { segments.foldl Multiplexer.route m with partialSegment := left } := by
  induction segments generalizing m with
  | nil => rfl
  | cons s rest ih =>
    have hroute : Multiplexer.route { m with partialSegment := left } s
        = { m.route s with partialSegment := left } := by
      unfold Multiplexer.route
      split <;> rfl
    rw [List.foldl_cons, List.foldl_cons, hroute, ih]

/-! ## Arrival -/

/-- An end that reads and whose peer is there routes what has arrived completely and keeps the
rest. -/
theorem arrive_eq {m : Multiplexer} (hreading : m.reading = true) (hpeer : m.peerOpen = true)
    (bytes : Bytes) :
    m.arrive bytes = { (Segment.parse (m.partialSegment ++ bytes)).1.foldl Multiplexer.route m with
      partialSegment := (Segment.parse (m.partialSegment ++ bytes)).2 } := by
  rw [arrive, if_neg (by simp [hreading, hpeer])]
  exact foldl_route_partial m _ _

theorem reading_arrive {m : Multiplexer} (hreading : m.reading = true) (hpeer : m.peerOpen = true)
    (bytes : Bytes) : (m.arrive bytes).reading = true ∧ (m.arrive bytes).peerOpen = true := by
  obtain ⟨channels, hroute⟩ := foldl_route_eq m (Segment.parse (m.partialSegment ++ bytes)).1
  rw [arrive_eq hreading hpeer, hroute]
  exact ⟨hreading, hpeer⟩

/-- Bytes may arrive in two portions. -/
theorem arrive_arrive {m : Multiplexer} (hreading : m.reading = true) (hpeer : m.peerOpen = true)
    (bytes more : Bytes) : (m.arrive bytes).arrive more = m.arrive (bytes ++ more) := by
  obtain ⟨hreading', hpeer'⟩ := reading_arrive hreading hpeer bytes
  have hparse := Segment.parse_append (m.partialSegment ++ bytes) more
  rw [List.append_assoc] at hparse
  rw [arrive_eq hreading' hpeer', arrive_eq hreading hpeer, arrive_eq hreading hpeer, hparse,
    List.foldl_append, foldl_route_partial]

/-- Bytes may arrive in any portions. -/
theorem foldl_arrive {m : Multiplexer} (hreading : m.reading = true) (hpeer : m.peerOpen = true)
    (hleft : Segment.next? m.partialSegment = none) (portions : List Bytes) :
    portions.foldl arrive m = m.arrive portions.flatten := by
  induction portions generalizing m with
  | nil =>
    rw [List.flatten_nil, arrive_eq hreading hpeer, List.append_nil,
      Segment.parse_of_next?_eq_none hleft]
    rfl
  | cons portion rest ih =>
    obtain ⟨hreading', hpeer'⟩ := reading_arrive hreading hpeer portion
    have hleft' : Segment.next? (m.arrive portion).partialSegment = none := by
      rw [arrive_eq hreading hpeer]
      exact Segment.next?_parse _
    rw [List.foldl_cons, ih hreading' hpeer' hleft', arrive_arrive hreading hpeer,
      List.flatten_cons]

/-- A bearer may carry what has been written and nothing else, all of it sent at one time. -/
theorem carries_map_sentAt (protocols : List MiniProtocol) (time : UInt32) (written : List Segment) :
    Carries protocols written (written.map (Segment.sentAt time)) := by
  induction written with
  | nil => exact .idle
  | cons s rest ih => exact ih.own s time

theorem Carries.isFramed {protocols : List MiniProtocol} {written bearer : List Segment}
    (h : Carries protocols written bearer) (hw : ∀ s ∈ written, s.IsFramed) :
    ∀ s ∈ bearer, s.IsFramed := by
  induction h with
  | idle => exact hw
  | own s time rest ih =>
    intro t ht
    rcases List.mem_cons.mp ht with rfl | ht
    · exact hw s List.mem_cons_self
    · exact ih (fun u hu => hw u (List.mem_cons_of_mem _ hu)) t ht
  | foreign hs rest ih =>
    intro t ht
    rcases List.mem_cons.mp ht with rfl | ht
    · exact hs.1
    · exact ih hw t ht

/-- A foreign segment is nothing to any of the mini-protocols, as it arrives. -/
theorem IsForeign.ofId?_ne {protocols : List MiniProtocol} {s : Segment}
    (h : IsForeign protocols s) {p : MiniProtocol} (hp : p ∈ protocols) :
    MiniProtocol.ofId? s.onWire.header.protocolId ≠ some p := by
  rw [Ne, MiniProtocol.ofId?_eq_some_iff]
  intro hid
  refine h.2 p hp ?_
  have hlow : s.header.protocolId.toNat % Segment.responderBit < Segment.responderBit :=
    Nat.mod_lt _ (by decide)
  rw [Segment.responderBit] at hlow ⊢
  rw [hid, Segment.onWire, Segment.Header.onWire, Segment.responderBit]
  exact (UInt16.toNat_ofNat_of_lt' (by rw [UInt16.size]; omega)).symm

/-- A mini-protocol finds on the bearer what has been written for it. -/
theorem Carries.payloadsOn_eq {protocols : List MiniProtocol} {written bearer : List Segment}
    (h : Carries protocols written bearer)
    (hw : ∀ s ∈ written, ∃ p : MiniProtocol, s.header.protocolId = p.id) {p : MiniProtocol}
    (hp : p ∈ protocols) :
    payloadsOn p (bearer.map Segment.onWire) = payloadsOn p written := by
  induction h with
  | idle => rfl
  | own s time rest ih =>
    obtain ⟨q, hq⟩ := hw s List.mem_cons_self
    have hwire : (s.sentAt time).onWire = s.sentAt time := by
      have hheader : (s.sentAt time).header.onWire = (s.sentAt time).header :=
        Segment.Header.onWire_of_known (p := q) hq
      rw [Segment.onWire, hheader]
    rw [List.map_cons, hwire, payloadsOn_cons, payloadsOn_cons,
      ih fun t ht => hw t (List.mem_cons_of_mem _ ht)]
    rfl
  | foreign hs rest ih =>
    rw [List.map_cons, payloadsOn_cons, if_neg (hs.ofId?_ne hp), List.nil_append, ih hw]

/-- What has been written for a mini-protocol are the messages that were sent on it. -/
theorem payloadsOn_segmentsOf (side : Side) (sends : List (MiniProtocol × Bytes))
    (p : MiniProtocol) :
    payloadsOn p (sends.flatMap (segmentsOf side)) = (onlyOn p sends).flatten := by
  induction sends with
  | nil => rfl
  | cons sent rest ih =>
    have hid : ∀ s ∈ segmentsOf side sent,
        MiniProtocol.ofId? s.header.protocolId = some sent.1 := by
      intro s hs
      obtain ⟨payload, -, -, rfl⟩ := mem_segmentsOf hs
      exact MiniProtocol.ofId?_id sent.1
    rw [List.flatMap_cons, payloadsOn_append, ih]
    by_cases hsent : sent.1 = p
    · have hall : (segmentsOf side sent).filter
          (fun s => MiniProtocol.ofId? s.header.protocolId = some p) = segmentsOf side sent :=
        List.filter_eq_self.mpr fun s hs => by simp [hid s hs, hsent]
      rw [payloadsOn, hall, (cutFrom_segmentsOf side sent).whole]
      simp [onlyOn, hsent]
    · have hnone : (segmentsOf side sent).filter
          (fun s => MiniProtocol.ofId? s.header.protocolId = some p) = [] :=
        List.filter_eq_nil_iff.mpr fun s hs => by simp [hid s hs, hsent]
      rw [payloadsOn, hnone]
      simp [onlyOn, hsent]

/-! ## Receiving -/

/-- Listening to one mini-protocol leaves the others as they are. -/
theorem Holds.receive_other {m : Multiplexer} {p q : MiniProtocol} {ended : Bool} {bytes : Bytes}
    (h : m.Holds p ended bytes) (hq : q ≠ p) : (m.receive q).2.Holds p ended bytes := by
  obtain ⟨channel, hlookup, hrest⟩ := h
  unfold Multiplexer.receive
  split
  · refine ⟨channel, ?_, hrest⟩
    rw [lookup_updateChannel, if_neg hq.symm, hlookup]
  · exact ⟨channel, hlookup, hrest⟩

/-- The next message of a mini-protocol is the first item it holds. -/
theorem Holds.receive_cons {m : Multiplexer} {p : MiniProtocol} {ended : Bool} {item more : Bytes}
    (h : m.Holds p ended (item ++ more)) (hitem : IsItem item) :
    (m.receive p).1 = .message item ∧ (m.receive p).2.Holds p ended more := by
  obtain ⟨channel, hlookup, hpending, hended⟩ := h
  obtain ⟨after, hreceive, hleft, hended'⟩ := Channel.receive_of_pending_eq hitem hpending
  rw [Multiplexer.receive, hlookup]
  simp only
  rw [hreceive]
  refine ⟨rfl, after, ?_, hleft, hended'.trans hended⟩
  rw [lookup_updateChannel, if_pos rfl, hlookup]
  rfl

/-- A mini-protocol that holds nothing has nothing to give. -/
theorem Holds.receive_nil {m : Multiplexer} {p : MiniProtocol} {ended : Bool}
    (h : m.Holds p ended []) :
    (m.receive p).1 = (if ended then .closed else .waiting) ∧ (m.receive p).2.Holds p ended [] := by
  obtain ⟨channel, hlookup, hpending, hended⟩ := h
  obtain ⟨after, hreceive, hleft, hended'⟩ := Channel.receive_of_pending_eq_nil hpending
  rw [Multiplexer.receive, hlookup]
  simp only [hreceive]
  refine ⟨by rw [Channel.exhausted, hended], after, ?_, hleft, hended'.trans hended⟩
  rw [lookup_updateChannel, if_pos rfl, hlookup]
  rfl

/-- However mini-protocols are listened to, each gives its messages in order and then nothing. -/
theorem Holds.onlyOn_receiveEach {m : Multiplexer} {p : MiniProtocol} {ended : Bool}
    {messages : List Bytes} (h : m.Holds p ended messages.flatten)
    (hitems : ∀ message ∈ messages, IsItem message) (calls : List MiniProtocol) :
    onlyOn p (m.receiveEach calls) =
      (messages.map Reception.message ++
        List.replicate (calls.count p) (if ended then Reception.closed else .waiting)).take
        (calls.count p) := by
  induction calls generalizing m messages with
  | nil => simp [receiveEach, onlyOn]
  | cons q rest ih =>
    by_cases hq : q = p
    · subst hq
      cases messages with
      | nil =>
        obtain ⟨hreception, hafter⟩ := h.receive_nil
        have hleft : (m.receive q).2.Holds q ended ([] : List Bytes).flatten := hafter
        have hrest := ih hleft hitems
        simp only [onlyOn, receiveEach, hreception, List.map_nil, List.nil_append] at hrest ⊢
        simp [hrest, List.replicate_succ]
      | cons message more =>
        obtain ⟨hreception, hafter⟩ := h.receive_cons (hitems message List.mem_cons_self)
        have hrest := ih hafter fun t ht => hitems t (List.mem_cons_of_mem _ ht)
        simp only [onlyOn, receiveEach, hreception] at hrest ⊢
        -- the next message takes one call, and the calls after the last message are as many as before
        have hpad : min (rest.count q - more.length) (rest.count q + 1)
            = min (rest.count q - more.length) (rest.count q) := by omega
        simp [hrest, List.take_append, List.take_replicate, hpad]
    · have hrest := ih (h.receive_other hq) hitems
      have hcount : (q :: rest).count p = rest.count p := List.count_cons_of_ne hq
      simp only [onlyOn, receiveEach] at hrest ⊢
      rw [hcount, ← hrest]
      simp [hq]

/-! ## Delivery -/

/-- A new end holds nothing. -/
theorem holds_new {side : Side} {protocols : List MiniProtocol} {p : MiniProtocol}
    (hp : p ∈ protocols) : (new side protocols).Holds p false [] := by
  refine ⟨{}, ?_, rfl, rfl⟩
  unfold new
  induction protocols with
  | nil => cases hp
  | cons q rest ih =>
    by_cases hq : p = q
    · simp [hq]
    · have hne : (p == q) = false := by simpa using hq
      have hrest := ih ((List.mem_cons.mp hp).resolve_left hq)
      simpa [hne, List.lookup_cons] using hrest

/-- Stopping changes nothing but what comes after the last message. -/
theorem Holds.stop {m : Multiplexer} {p : MiniProtocol} {bytes : Bytes}
    (h : m.Holds p false bytes) : m.stop.Holds p true bytes := by
  obtain ⟨channel, hlookup, hpending, -⟩ := h
  refine ⟨channel.finish, ?_, hpending, rfl⟩
  have hlookup' := lookup_map_channels m.channels p fun _ channel => channel.finish
  rw [hlookup] at hlookup'
  exact hlookup'

/-- What has been sent on a mini-protocol is what a reader of the bearer finds for it. -/
theorem payloadsOn_parse_of_carries {side : Side} {protocols : List MiniProtocol}
    {sends : List (MiniProtocol × Bytes)} {bearer : List Segment}
    (hbearer : Carries protocols (sends.flatMap (segmentsOf side)) bearer) {portions : List Bytes}
    (hportions : portions.flatten = (bearer.map Segment.encode).flatten) {p : MiniProtocol}
    (hp : p ∈ protocols) :
    payloadsOn p (Segment.parse portions.flatten).1 = (onlyOn p sends).flatten := by
  have hframed : ∀ s ∈ bearer, s.IsFramed := by
    refine hbearer.isFramed fun s hs => ?_
    obtain ⟨sent, -, hs⟩ := List.mem_flatMap.mp hs
    exact isFramed_of_mem_segmentsOf hs
  have hknown : ∀ s ∈ sends.flatMap (segmentsOf side),
      ∃ q : MiniProtocol, s.header.protocolId = q.id := by
    intro s hs
    obtain ⟨sent, -, hs⟩ := List.mem_flatMap.mp hs
    obtain ⟨payload, -, -, rfl⟩ := mem_segmentsOf hs
    exact ⟨sent.1, rfl⟩
  rw [hportions, Segment.parse_flatten_encode hframed, ← payloadsOn_segmentsOf side,
    ← hbearer.payloadsOn_eq hknown hp]

/-- What the other end holds once everything on the bearer has arrived. -/
theorem holds_of_carries {side farSide : Side} {protocols : List MiniProtocol}
    {sends : List (MiniProtocol × Bytes)} {bearer : List Segment}
    (hbearer : Carries protocols (sends.flatMap (segmentsOf side)) bearer) {portions : List Bytes}
    (hportions : portions.flatten = (bearer.map Segment.encode).flatten) {p : MiniProtocol}
    (hp : p ∈ protocols) :
    (portions.foldl arrive (new farSide protocols)).Holds p false (onlyOn p sends).flatten := by
  rw [foldl_arrive rfl rfl rfl, arrive_eq rfl rfl, ← payloadsOn_parse_of_carries hbearer hportions hp]
  exact (holds_new hp).foldl_route _

/-- Sending never fails, every segment is well formed, and every mini-protocol of the other end
receives exactly what was sent on it. -/
theorem delivery_of_items (side farSide : Side) (own protocols : List MiniProtocol)
    {sends : List (MiniProtocol × Bytes)} (hitems : ∀ sent ∈ sends, IsItem sent.2) :
    ∃ sender, (new side own).sendAll sends = .ok sender ∧
      sender.written = sends.flatMap (segmentsOf side) ∧
      (∀ sent ∈ sends, CutFrom side sent (segmentsOf side sent)) ∧
      ∀ bearer, Carries protocols sender.written bearer →
      ∀ portions : List Bytes, portions.flatten = (bearer.map Segment.encode).flatten →
      ∀ (ended : Bool) (calls : List MiniProtocol), ∀ p ∈ protocols,
        let far := portions.foldl arrive (new farSide protocols)
        onlyOn p ((if ended then far.stop else far).receiveEach calls) =
          ((onlyOn p sends).map Reception.message ++
            List.replicate (calls.count p) (if ended then Reception.closed else .waiting)).take
            (calls.count p) := by
  refine ⟨_, sendAll_eq rfl rfl sends, rfl, fun sent _ => cutFrom_segmentsOf side sent, ?_⟩
  intro bearer hbearer portions hportions ended calls p hp
  have hholds : (portions.foldl arrive (new farSide protocols)).Holds p false
      (onlyOn p sends).flatten := holds_of_carries hbearer hportions hp
  have hmine : ∀ message ∈ onlyOn p sends, IsItem message := by
    intro message hmessage
    obtain ⟨sent, hsent, rfl⟩ := List.mem_map.mp hmessage
    exact hitems sent (List.mem_filter.mp hsent).1
  cases ended with
  | false => exact hholds.onlyOn_receiveEach hmine calls
  | true => exact hholds.stop.onlyOn_receiveEach hmine calls

/-- A message of two segments and one of a single byte arrive after a segment of an unknown
mini-protocol, in two portions that cut a segment. -/
theorem delivery_of_items_large :
    let large : Bytes := 0x59 :: 0x40 :: 0x00 :: List.replicate 0x4000 0x5A
    let sends := [(MiniProtocol.chainSync, large), (.blockFetch, [0x01]), (.chainSync, [0x80])]
    let stray : Segment := ⟨⟨0, .responder, 77, 2⟩, [0x01, 0x02]⟩
    (∀ sent ∈ sends, IsItem sent.2) ∧
      ∃ sender, (new .initiator [.chainSync, .blockFetch]).sendAll sends = .ok sender ∧
        let bytes := ((stray :: sender.written.map (Segment.sentAt 7)).map Segment.encode).flatten
        let far := [bytes.take 5000, bytes.drop 5000].foldl arrive
          (new .responder [.blockFetch, .chainSync])
        onlyOn .chainSync (far.receiveEach [.chainSync, .blockFetch, .chainSync, .chainSync])
          = [.message large, .message [0x80], .waiting] := by
  intro large sends stray
  have hitems : ∀ sent ∈ sends, IsItem sent.2 := by
    intro sent hsent
    simp only [sends, List.mem_cons, List.not_mem_nil, or_false] at hsent
    rcases hsent with rfl | rfl | rfl
    · exact .of_long_string List.length_replicate.symm
    · exact .of_token (List.cons_ne_nil _ _) rfl
    · exact ⟨List.cons_ne_nil _ _, rfl⟩
  refine ⟨hitems, ?_⟩
  obtain ⟨sender, hsender, -, -, hfar⟩ := delivery_of_items .initiator .responder
    [.chainSync, .blockFetch] [.blockFetch, .chainSync] hitems
  refine ⟨sender, hsender, ?_⟩
  intro bytes far
  have hstray : IsForeign [.blockFetch, .chainSync] stray := ⟨rfl, by decide⟩
  have hbytes : [bytes.take 5000, bytes.drop 5000].flatten = bytes := by simp
  exact hfar _ (.foreign hstray (carries_map_sentAt _ 7 _)) _ hbytes false
    [.chainSync, .blockFetch, .chainSync, .chainSync] .chainSync (by decide)

end Multiplexer

end BlockFeed
