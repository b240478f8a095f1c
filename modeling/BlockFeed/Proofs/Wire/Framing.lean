import BlockFeed.Wire.Segment

/-!
# Segments on a stream

What `Segment.cut` makes of a message, and what `Segment.parse` makes of a stream of segments.

A message is the concatenation of the payloads it is cut into, and each of them has between one and
`maxPayload` bytes. Segments that are written one after the other are read back in order
(`parse_flatten_encode`), and reading a stream in two goes is reading it at once (`parse_append`), so
it does not matter in which portions the stream arrives.
-/

namespace BlockFeed.Segment

/-! ## Cutting -/

theorem flatten_cutWith {fuel : Nat} {message : Bytes} (h : message.length ≤ fuel) :
    (cutWith fuel message).flatten = message := by
  induction fuel generalizing message with
  | zero =>
    rw [List.length_eq_zero_iff.mp (Nat.le_zero.mp h)]
    rfl
  | succ fuel ih =>
    rw [cutWith]
    split
    · rename_i hempty
      rw [List.isEmpty_iff.mp hempty]
      rfl
    · rename_i hne
      have hpos : 0 < message.length := by
        rw [List.length_pos_iff]
        simpa using hne
      have hdrop : (message.drop maxPayload).length ≤ fuel := by
        rw [List.length_drop, maxPayload]
        omega
      rw [List.flatten_cons, ih hdrop, List.take_append_drop]

theorem length_of_mem_cutWith {fuel : Nat} {message payload : Bytes}
    (h : payload ∈ cutWith fuel message) : 1 ≤ payload.length ∧ payload.length ≤ maxPayload := by
  induction fuel generalizing message with
  | zero => cases h
  | succ fuel ih =>
    rw [cutWith] at h
    split at h
    · cases h
    · rename_i hne
      have hpos : 0 < message.length := by
        rw [List.length_pos_iff]
        simpa using hne
      rcases List.mem_cons.mp h with rfl | h
      · rw [List.length_take]
        exact ⟨Nat.le_min.mpr ⟨by decide, hpos⟩, Nat.min_le_left _ _⟩
      · exact ih h

/-- A message is cut into pieces and nothing is lost. -/
theorem flatten_cut (message : Bytes) : (cut message).flatten = message :=
  flatten_cutWith (Nat.le_refl _)

/-- No piece is empty, and none exceeds the largest payload. -/
theorem length_of_mem_cut {message payload : Bytes} (h : payload ∈ cut message) :
    1 ≤ payload.length ∧ payload.length ≤ maxPayload :=
  length_of_mem_cutWith h

/-- The payloads of the segments of a message are its pieces. -/
theorem map_payload_ofMessage (clock : Nat → UInt32) (side : Side) (protocol : MiniProtocol)
    (message : Bytes) :
    (ofMessage clock side protocol message).map Segment.payload = cut message := by
  refine List.ext_getElem (by simp [ofMessage]) fun i _ _ => ?_
  simp [ofMessage, make]

/-! ## Headers on the wire -/

/-- The header that arrives: of the number of the mini-protocol 15 bits are kept. -/
def Header.onWire (h : Header) : Header :=
  { h with protocolId := UInt16.ofNat (h.protocolId.toNat % responderBit) }

/-- The segment that arrives. -/
def onWire (s : Segment) : Segment := { s with header := s.header.onWire }

/-- The length that a header gives is that of the payload after it. -/
def IsFramed (s : Segment) : Prop := s.payload.length = s.header.length.toNat

/-- The numbers of known mini-protocols fit the wire. -/
theorem id_mod_responderBit (p : MiniProtocol) : p.id.toNat % responderBit = p.id.toNat := by
  cases p <;> rfl

/-- The header of a known mini-protocol arrives as it was sent. -/
theorem Header.onWire_of_known {h : Header} {p : MiniProtocol} (hp : h.protocolId = p.id) :
    h.onWire = h := by
  rw [Header.onWire, hp, id_mod_responderBit, UInt16.ofNat_toNat, ← hp]

theorem length_encode_segment (s : Segment) :
    s.encode.length = headerLength + s.payload.length := by
  rw [encode, List.length_append, Header.length_encode]

/-- A segment at the front of a stream is read, and what follows it is left. -/
theorem next?_encode_append {s : Segment} (h : s.IsFramed) (more : Bytes) :
    next? (s.encode ++ more) = some (s.onWire, more) := by
  have hlen : s.header.onWire.length.toNat = s.payload.length := h.symm
  have hhead : (s.encode ++ more).take headerLength = s.header.encode := by
    rw [encode, List.append_assoc, List.take_left' (Header.length_encode _)]
  have htail : (s.encode ++ more).drop headerLength = s.payload ++ more := by
    rw [encode, List.append_assoc, List.drop_left' (Header.length_encode _)]
  have hdecode : Header.decode s.header.encode = s.header.onWire := Header.decode_encode _
  simp only [next?]
  rw [hhead, htail, hdecode, hlen, if_neg, if_neg, List.take_left, List.drop_left, onWire]
  · rw [List.length_append]
    omega
  · rw [List.length_append, length_encode_segment]
    omega

/-! ## Reading a stream -/

/-- A segment takes its header at least. -/
theorem length_rest_of_next? {stream rest : Bytes} {s : Segment}
    (h : next? stream = some (s, rest)) : rest.length + headerLength ≤ stream.length := by
  simp only [next?] at h
  split at h
  · cases h
  · split at h
    · cases h
    · cases h
      rw [List.length_drop, List.length_drop]
      omega

/-- A segment that has arrived is read whatever follows it. -/
theorem next?_append {stream rest : Bytes} {s : Segment} (h : next? stream = some (s, rest))
    (more : Bytes) : next? (stream ++ more) = some (s, rest ++ more) := by
  simp only [next?] at h
  split at h
  · cases h
  · rename_i hlong
    have hhead : headerLength ≤ stream.length := Nat.le_of_not_lt hlong
    split at h
    · cases h
    · rename_i hpayload
      cases h
      -- header and payload are complete, so neither reaches into what follows
      simp only [next?]
      rw [List.take_append_of_le_length hhead, List.drop_append_of_le_length hhead, if_neg, if_neg,
        List.take_append_of_le_length (Nat.le_of_not_lt hpayload),
        List.drop_append_of_le_length (Nat.le_of_not_lt hpayload)]
      · rw [List.length_append]
        omega
      · rw [List.length_append]
        omega

/-- Every segment takes a byte at least, so fuel beyond the length of the stream is not used. -/
theorem parseWith_fuel {n m : Nat} {stream : Bytes} (hn : stream.length ≤ n)
    (hm : stream.length ≤ m) : parseWith n stream = parseWith m stream := by
  have hempty (n : Nat) : parseWith n [] = ([], []) := by
    cases n <;> rfl
  induction n generalizing m stream with
  | zero => rw [List.length_eq_zero_iff.mp (Nat.le_zero.mp hn), hempty, hempty]
  | succ n ih =>
    cases m with
    | zero => rw [List.length_eq_zero_iff.mp (Nat.le_zero.mp hm), hempty, hempty]
    | succ m =>
      rw [parseWith, parseWith]
      cases hnext : next? stream with
      | none => rfl
      | some p =>
        have hrest := length_rest_of_next? hnext
        rw [headerLength] at hrest
        simp only
        rw [ih (m := m) (by omega) (by omega)]

theorem parse_of_next?_eq_none {stream : Bytes} (h : next? stream = none) :
    parse stream = ([], stream) := by
  rw [parse]
  cases stream.length with
  | zero => rfl
  | succ n => rw [parseWith, h]

theorem parse_of_next?_eq_some {stream rest : Bytes} {s : Segment}
    (h : next? stream = some (s, rest)) :
    parse stream = (s :: (parse rest).1, (parse rest).2) := by
  have hrest := length_rest_of_next? h
  rw [headerLength] at hrest
  rw [parse, parseWith_fuel (Nat.le_refl _) (Nat.le_succ _), parseWith, h]
  simp only
  rw [parseWith_fuel (m := rest.length) (by omega) (Nat.le_refl _), parse]

/-- What is left over does not hold a segment. -/
theorem next?_parse (stream : Bytes) : next? (parse stream).2 = none := by
  induction hn : stream.length using Nat.strongRecOn generalizing stream with
  | _ n ih =>
    cases h : next? stream with
    | none => rw [parse_of_next?_eq_none h, h]
    | some p =>
      have hrest := length_rest_of_next? h
      rw [headerLength] at hrest
      rw [parse_of_next?_eq_some h]
      exact ih p.2.length (by omega) p.2 rfl

/-- A stream can be read in two goes, the second one beginning with what the first one left over. -/
theorem parse_append (stream more : Bytes) :
    parse (stream ++ more) = ((parse stream).1 ++ (parse ((parse stream).2 ++ more)).1,
      (parse ((parse stream).2 ++ more)).2) := by
  induction hn : stream.length using Nat.strongRecOn generalizing stream with
  | _ n ih =>
    cases h : next? stream with
    | none => rw [parse_of_next?_eq_none h, List.nil_append]
    | some p =>
      have hrest := length_rest_of_next? h
      rw [headerLength] at hrest
      rw [parse_of_next?_eq_some h, parse_of_next?_eq_some (next?_append h more),
        ih p.2.length (by omega) p.2 rfl, List.cons_append]

/-- Segments that are written one after the other are read back in order. -/
theorem parse_flatten_encode {segments : List Segment} (h : ∀ s ∈ segments, s.IsFramed) :
    parse (segments.map encode).flatten = (segments.map onWire, []) := by
  induction segments with
  | nil => rfl
  | cons s rest ih =>
    have hnext := next?_encode_append (h s List.mem_cons_self) (rest.map encode).flatten
    have hrest := ih fun t ht => h t (List.mem_cons_of_mem _ ht)
    rw [List.map_cons, List.flatten_cons, parse_of_next?_eq_some hnext, hrest, List.map_cons]

end BlockFeed.Segment
