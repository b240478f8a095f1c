import BlockFeed.Proofs.Node.ForwardWalk

/-!
# Steps back during a walk

Of the replies that a walk takes, all are told again in what it comes to, in order: the tips, and at the end
the step back. Only the first reply is different. If it is a step back the walk passes it over and asks again,
wherever the step leads (`counting_told`). For that reason a step back is never lost if the first reply is
none, or leads to the point the walk begins at (`surfaced_of_attended`); but a node that leaves that point's
chain between placing the walk and its first reply is followed to the other chain without a word
(`lost_of_attended`).
-/

namespace BlockFeed.ChainSync

open Multiplexer (attend)

variable {start : Option Point} {limit : UInt64} {failure : NodeError}

/-- The replies to a walk that a session has taken. The first message places a walk after a point, and is no
reply to it. -/
def told (start : Option Point) (s : Exchange.Session NodeError NextPoints) : List Reply :=
  replies (s.taken.drop start.toList.length)

/-- What a walk comes to tells all replies again but the first one if it is a step back. -/
theorem counting_told {messages : List Bytes} {next : NextPoints}
    (h : ((walkForward start limit).session failure messages (walkForward start limit).start).outcome
      = .ok next) :
    counting (told start
        ((walkForward start limit).session failure messages (walkForward start limit).start))
      = next.tips.map .forward ++ next.rolledBackTo.toList.map .backward := by
  cases start with
  | none =>
    obtain ⟨tips, htips, htold⟩ := (collects_session_start messages).told next h
    rw [htips]
    exact htold
  | some point =>
    cases messages with
    | nil =>
      rw [Exchange.session_nil (leads_start_some point)] at h
      cases h
    | cons message rest =>
      rw [session_from_cons] at h ⊢
      cases hplaced : placed message with
      | error e =>
        simp only [hplaced] at h
        rw [Exchange.session_of_ended rfl] at h
        cases h
      | ok intersection =>
        cases intersection with
        | found point' tip =>
          simp only [hplaced] at h ⊢
          obtain ⟨tips, htips, htold⟩ := (collects_session_start rest).told next h
          rw [htips]
          exact htold
        | notFound tip =>
          simp only [hplaced] at h ⊢
          rw [Exchange.session_of_ended rfl] at h ⊢
          cases h
          rfl

/-- A step back among further tips and a last step back can only be the last one. -/
theorem eq_nil_of_backward {tips : List Tip} {back : Option Point} {before after : List Reply} {point : Point}
    (h : tips.map Reply.forward ++ back.toList.map .backward = before ++ .backward point :: after) :
    after = [] ∧ back = some point ∧ before = tips.map .forward := by
  induction tips generalizing before with
  | nil =>
    cases back with
    | none => simp at h
    | some other =>
      cases before with
      | nil => simp_all
      | cons => simp at h
  | cons tip rest ih =>
    cases before with
    | nil => simp at h
    | cons reply more =>
      simp only [List.map_cons, List.cons_append, List.cons.injEq] at h
      obtain ⟨rfl, hmore⟩ := h
      obtain ⟨hafter, hback, hbefore⟩ := ih hmore
      exact ⟨hafter, hback, by rw [hbefore, List.map_cons]⟩

/-- A step back that is not the first reply has been the last one, and is told. -/
theorem surfaced_of_append {all before after : List Reply} {point : Point} {next : NextPoints}
    (hall : counting all = next.tips.map .forward ++ next.rolledBackTo.toList.map .backward)
    (hsplit : all = before ++ .backward point :: after) (hbefore : before ≠ []) :
    after = [] ∧ next.rolledBackTo = some point := by
  obtain ⟨reply, more, rfl⟩ := List.exists_cons_of_ne_nil hbefore
  have hcounting : ∃ front, counting all = front ++ .backward point :: after := by
    rw [hsplit]
    cases reply with
    | backward => exact ⟨more, rfl⟩
    | forward tip => exact ⟨.forward tip :: more, rfl⟩
    | unusable error => exact ⟨.unusable error :: more, rfl⟩
  obtain ⟨front, hfront⟩ := hcounting
  obtain ⟨hafter, hback, -⟩ := eq_nil_of_backward (hall.symm.trans hfront)
  exact ⟨hafter, hback⟩

/-- A walk that ends well, however the messages of the node arrive, has taken the first of them and tells all
replies among these again, in order, but the first reply if that is a step back: wherever it leads, what the
walk tells is what follows. Any later step back is the last reply and is told. So no step back is lost but
to where the first one leads. The end of the node is noticed after its last reply, as `attend` has it. -/
theorem surfaced_of_attended (start : Option Point) (limit : UInt64) {m after : Multiplexer} {held : Bytes}
    {portions messages : List Bytes} {last : Reception} {next : NextPoints}
    (hoffers : m.Offers .chainSync held portions messages last)
    (hend : attend (walkForward start limit) portions (walkForward start limit).start m
      = (.ended (.ok next), after)) :
    let s := (walkForward start limit).session (.ofReceive (last.failure .chainSync)) messages
      (walkForward start limit).start
    s.taken <+: messages
      ∧ counting (told start s) = next.tips.map .forward ++ next.rolledBackTo.toList.map .backward
      ∧ (∀ before point rest, told start s = before ++ .backward point :: rest → before ≠ [] →
        rest = [] ∧ next.rolledBackTo = some point)
      ∧ ∀ home, (∀ point, (told start s).head? = some (.backward point) → point = home) →
        ∀ point ≠ home, .backward point ∈ told start s →
          next.rolledBackTo = some point ∧ (told start s).getLast? = some (.backward point) := by
  intro s
  obtain ⟨final, hattend, -⟩ := Multiplexer.attend_eq (walkForward start limit)
    (walkForward start limit).start hoffers
  rw [hend] at hattend
  simp only [Prod.mk.injEq, Multiplexer.Progress.ended.injEq] at hattend
  have htold := counting_told hattend.1.symm
  refine ⟨Exchange.taken_isPrefix messages _, htold, ?_, ?_⟩
  · intro before point rest hsplit hbefore
    exact surfaced_of_append htold hsplit hbefore
  · intro home hhome point hpoint hmem
    obtain ⟨before, rest, hsplit⟩ := List.append_of_mem hmem
    have hbefore : before ≠ [] := by
      rintro rfl
      exact hpoint (hhome point (by rw [hsplit]; rfl))
    obtain ⟨rfl, hback⟩ := surfaced_of_append htold hsplit hbefore
    exact ⟨hback, by rw [hsplit, List.getLast?_append]; rfl⟩

/-- A node places a walk after the sample point. -/
def sampleFound : Bytes := (Message.intersectFound samplePoint ⟨.origin, 0⟩).encode

theorem isItem_sampleFound : Cbor.IsItem sampleFound := by
  have hlength : Cbor.itemLength? sampleFound = .ok (some 41) := rfl
  exact ⟨by decide, hlength⟩

/-- After a walk has been placed, the node steps back to a point, brings a header and steps back again. -/
def sampleAnswers (first second : Point) : List Bytes :=
  [sampleFound, sampleBackward first, sampleForward, sampleBackward second]

theorem isItem_sampleAnswers {first second : Point} (hfirst : Cbor.IsItem (sampleBackward first))
    (hsecond : Cbor.IsItem (sampleBackward second)) :
    ∀ message ∈ sampleAnswers first second, Cbor.IsItem message := by
  simp only [sampleAnswers, List.forall_mem_cons]
  exact ⟨isItem_sampleFound, hfirst, isItem_sampleForward, hsecond, nofun⟩

theorem isItem_sampleBackward_origin : Cbor.IsItem (sampleBackward .origin) := ⟨by decide, rfl⟩

/-- The node steps back to where it has placed the walk, brings a header and steps back to the origin. -/
theorem surfaced_of_attended_sample :
    let x := walkForward (some samplePoint) 2
    ∃ m portions after next,
      m.Offers .chainSync [] portions (sampleAnswers samplePoint .origin) .closed
        ∧ attend x portions x.start m = (.ended (.ok next), after)
        ∧ next.tips = [sampleTip] ∧ next.rolledBackTo = some .origin := by
  intro x
  have hoffers := Multiplexer.offers_sent .chainSync
    (isItem_sampleAnswers isItem_sampleBackward isItem_sampleBackward_origin) 20
  obtain ⟨after, hattend, -⟩ := Multiplexer.attend_eq x x.start hoffers
  have hend : attend x _ x.start _ = (.ended (.ok ⟨[sampleTip], some .origin⟩), after) := hattend
  obtain ⟨-, -, -, hhome⟩ := surfaced_of_attended (some samplePoint) 2 hoffers hend
  have hback := hhome samplePoint (by rintro point ⟨⟩; rfl) .origin (by decide) (by decide)
  exact ⟨_, _, after, _, hoffers, hend, rfl, hback.1⟩

/-- Not every step back to another point than where the walk begins is told. The node that has placed a walk
steps back to the origin at once and brings a header of the chain that it is on now: that header is all the walk
tells. -/
theorem lost_of_attended :
    ¬ ∀ (start : Option Point) (limit : UInt64) (m after : Multiplexer) (held : Bytes)
      (portions messages : List Bytes) (last : Reception) (next : NextPoints),
      m.Offers .chainSync held portions messages last →
      attend (walkForward start limit) portions (walkForward start limit).start m
        = (.ended (.ok next), after) →
      let s := (walkForward start limit).session (.ofReceive (last.failure .chainSync)) messages
        (walkForward start limit).start
      ∀ point ≠ start.getD .origin, .backward point ∈ told start s →
        next.rolledBackTo = some point ∧ (told start s).getLast? = some (.backward point) := by
  intro hclaim
  have hoffers := Multiplexer.offers_sent .chainSync
    (isItem_sampleAnswers isItem_sampleBackward_origin isItem_sampleBackward) 20
  obtain ⟨after, hattend, -⟩ := Multiplexer.attend_eq (walkForward (some samplePoint) 1)
    (walkForward (some samplePoint) 1).start hoffers
  have hend : attend (walkForward (some samplePoint) 1) _ (walkForward (some samplePoint) 1).start _
      = (.ended (.ok ⟨[sampleTip], none⟩), after) := hattend
  have hback := hclaim (some samplePoint) 1 _ after [] _ _ _ _ hoffers hend .origin (by decide) (by decide)
  cases hback.1

end BlockFeed.ChainSync
