import BlockFeed.Proofs.Contract
import BlockFeed.Proofs.PointCache
import BlockFeed.Proofs.Walker.Course
import BlockFeed.Proofs.Walker.Order
import BlockFeed.Proofs.Walker.Search

/-!
# The upkeep of the cache

A walker keeps what it writes in order, whatever fails on the way and wherever it is given up. Bootstrap,
a pass over cached points, a walk and the ways of moving the cursor back each do so in their own way, and
have one lemma each (`upholds_bootstrap` and those below it).

If the node keeps one chain, the walker asks for points only while its cursor stands at the highest tip
that has been published. A pass over cached points brings the cursor there (`upholds_fastForward`), so all
that matters about a failure is that such a pass comes after it.

Main statement: the calls of a walker keep the contract `upkeep` (`keeps_work`).
-/

namespace BlockFeed

/-- The failure says that the node's chain has left the cursor. -/
def WalkerError.turnsBack : WalkerError → Bool
  | .rolledBack _ | .intersectNotFound _ => true
  | _ => false

namespace Walker

open Surroundings (Query)

namespace Terms

/-- The next points are those after a cursor. -/
structure Follows (terms : Terms) (cursor : Tip) (next : NextPoints) : Prop where
  numbered : next.tips.map (·.number.toNat)
    = List.range' (cursor.number.toNat + 1) next.tips.length
  fits : ∀ tip ∈ next.tips, terms.fits tip
  goesOn : terms.steady → next.tips ≠ [] ∧ next.rolledBackTo = none

/-- In a call that began with a memory, the walker remembers what is in order, and a recovery does not
raise the cursor. -/
structure Tended (terms : Terms) (call : Call) (began : Walker) (written : List (String × String))
    (memory : Walker) : Prop extends terms.InOrder written memory where
  lowered : call.recovers = true → memory.cursor.number.toNat ≤ began.cursor.number.toNat

/-- What a walker may ask in a call that began with a memory. -/
def MayAsk (terms : Terms) (began : Walker) (written : List (String × String)) (memory : Walker) :
    Query → Prop
  | .pointsAfter start limit => memory.cursor = began.cursor ∧ start = memory.cursor.point ∧
      (terms.steady → IsTop written memory.cursor ∧ limit ≠ 0 ∧
        memory.cursor.number.toNat < terms.last)
  | .writeCache key text _ => (key = cursorKey ∧ text = memory.cursor.toCacheText) ∨
      ∃ tip, key = heightKey tip.number ∧ text = tip.toCacheText ∧ terms.fits tip ∧
        tip.number.toNat = memory.cursor.number.toNat + 1 ∧
        (terms.steady → IsTop written memory.cursor)
  | .findIntersect _ => ¬ terms.steady
  | .tipHeader | .fetchBlock _ | .hints _ _ => False
  | _ => True

/-- What a walker may be told, with all that has been written then. A write that fails may have come
off. -/
def MayTell (terms : Terms) (began : Walker) (written : List (String × String)) :
    (query : Query) → query.Answer → List (String × String) → Prop
  | .readCache key, answer, written' =>
    written' = written ∧ ∀ text, answer = .ok text → text = written.lookup key
  | .writeCache key text _, answer, written' =>
    written' = (key, text) :: written ∧ answer ≠ .error .overflow ∨ written' = written ∧ answer ≠ .ok ()
  | .pointsAfter _ _, answer, written' =>
    written' = written ∧ ∀ next, answer = .ok next → terms.Follows began.cursor next
  | .bestHeight, best, written' => written' = written ∧
    (terms.steady → (Word.satSub best terms.settings.confirmationDepth).toNat ≤ terms.last)
  | _, _, written' => written' = written

/-- What a walker may write leaves what is written in order. -/
theorem Tended.served {terms : Terms} {call : Call} {began memory : Walker}
    {written : List (String × String)} {key text : String} {lifetime : Duration}
    (h : terms.Tended call began written memory)
    (hmay : terms.MayAsk began written memory (.writeCache key text lifetime)) :
    terms.Tended call began ((key, text) :: written) memory := by
  refine ⟨?_, h.lowered⟩
  rcases hmay with ⟨rfl, rfl⟩ | ⟨tip, rfl, rfl, hfits, hnumber, htop⟩
  · exact h.toInOrder.store
  · exact (h.toInOrder.publish hfits hnumber htop).1

end Terms

/-- What is asked of a walker in a call that began with a memory. -/
def upkeep (terms : Terms) (call : Call) (began : Walker) :
    Contract Surroundings Walker (List (String × String)) where
  allows written memory query :=
    terms.Tended call began written memory ∧ terms.MayAsk began written memory query
  answers := terms.MayTell began

/-- How a call may end before its time if the node keeps one chain: by no failure that leads to a
recovery which moves the cursor, and by a number that leaves its range only where nothing lies above. -/
def Excused (written : List (String × String)) (memory : Walker) : Abort WalkerError → Prop
  | .failed error => error.turnsBack = false
  | .overflow => IsTop written memory.cursor

/-- Work of a walker that keeps what is written in order. -/
def Upholds {α : Type} (terms : Terms) (call : Call) (began : Walker)
    (written : List (String × String)) (memory : Walker) (task : Task α)
    (fact : List (String × String) → Walker → α → Prop) : Prop :=
  task.Keeps (upkeep terms call began)
    (fun written memory value => terms.Tended call began written memory ∧ fact written memory value)
    (fun written memory cause => terms.Tended call began written memory ∧
      (terms.steady → Excused written memory cause)) written memory

/-- Work that only asks: it writes nothing, leaves the memory as it is, and fails only if the node or the
cache does. -/
def Consults {α : Type} (terms : Terms) (call : Call) (began : Walker)
    (written : List (String × String)) (memory : Walker) (task : Task α) (fact : α → Prop) : Prop :=
  task.Keeps (upkeep terms call began)
    (fun written' memory' value => written' = written ∧ memory' = memory ∧ fact value)
    (fun written' memory' cause => written' = written ∧ memory' = memory ∧
      ∃ error, cause = .failed error ∧ error.turnsBack = false) written memory

section
variable {α β : Type} {terms : Terms} {call : Call} {began memory : Walker}
  {written : List (String × String)} {tip : Tip}

/-! ## Ways of composing -/

theorem Consults.bind {fact : α → Prop} {fact' : β → Prop} {task : Task α} {f : α → Task β}
    (h : Consults terms call began written memory task fact)
    (hf : ∀ value, fact value → Consults terms call began written memory (f value) fact') :
    Consults terms call began written memory (task >>= f) fact' := by
  refine Routine.keeps_bind.mpr (Routine.Keeps.mono h ?_ fun _ _ _ hfailed => hfailed)
  rintro _ _ value ⟨rfl, rfl, hfact⟩
  exact hf value hfact

theorem Consults.pure {fact : α → Prop} {value : α} (h : fact value) :
    Consults terms call began written memory (Pure.pure value) fact :=
  Routine.keeps_pure.mpr ⟨rfl, rfl, h⟩

theorem Consults.fail {fact : α → Prop} {error : WalkerError} (h : error.turnsBack = false) :
    Consults terms call began written memory (Work.fail error) fact :=
  Routine.keeps_fail.mpr ⟨rfl, rfl, error, rfl, h⟩

/-- A question after which nothing else has been written. -/
theorem Consults.ask (h : terms.Tended call began written memory) (query : Query)
    (hmay : terms.MayAsk began written memory query)
    (hsame : ∀ answer written', terms.MayTell began written query answer written' → written' = written) :
    Consults terms call began written memory (Routine.ask (I := Surroundings) query)
      fun answer => terms.MayTell began written query answer written := by
  refine Routine.keeps_ask.mpr ⟨⟨h, hmay⟩, fun answer written' htold => ?_⟩
  obtain rfl := hsame answer written' htold
  exact ⟨rfl, rfl, htold⟩

/-- An answer that is no failure need only be looked at for its value. -/
theorem consults_ofAnswer_bind {ε : Type} {rename : ε → WalkerError} {answer : Except ε α}
    {f : α → Task β} {fact : β → Prop} (hrename : ∀ cause, (rename cause).turnsBack = false)
    (h : ∀ value, answer = .ok value → Consults terms call began written memory (f value) fact) :
    Consults terms call began written memory (Work.ofAnswer rename answer >>= f) fact := by
  cases answer with
  | ok value => exact h value rfl
  | error cause => exact .fail (hrename cause)

theorem Upholds.bind {fact : List (String × String) → Walker → α → Prop}
    {fact' : List (String × String) → Walker → β → Prop} {task : Task α} {f : α → Task β}
    (h : Upholds terms call began written memory task fact)
    (hf : ∀ written memory value, terms.Tended call began written memory →
      fact written memory value → Upholds terms call began written memory (f value) fact') :
    Upholds terms call began written memory (task >>= f) fact' := by
  refine Routine.keeps_bind.mpr (Routine.Keeps.mono h ?_ fun _ _ _ hfailed => hfailed)
  rintro written memory value ⟨htended, hfact⟩
  exact hf written memory value htended hfact

theorem Upholds.pure {fact : List (String × String) → Walker → α → Prop} {value : α}
    (h : terms.Tended call began written memory) (hfact : fact written memory value) :
    Upholds terms call began written memory (Pure.pure value) fact :=
  Routine.keeps_pure.mpr ⟨h, hfact⟩

theorem Upholds.fail {fact : List (String × String) → Walker → α → Prop} {cause : Abort WalkerError}
    (h : terms.Tended call began written memory) (hcause : terms.steady → Excused written memory cause) :
    Upholds terms call began written memory (Routine.fail cause) fact :=
  Routine.keeps_fail.mpr ⟨h, hcause⟩

theorem Upholds.mono {fact fact' : List (String × String) → Walker → α → Prop} {task : Task α}
    (h : Upholds terms call began written memory task fact)
    (himp : ∀ written memory value, fact written memory value → fact' written memory value) :
    Upholds terms call began written memory task fact' := by
  refine Routine.Keeps.mono h ?_ fun _ _ _ hfailed => hfailed
  rintro written memory value ⟨htended, hfact⟩
  exact ⟨htended, himp written memory value hfact⟩

/-- Work that only asks keeps what is written in order. -/
theorem Consults.upholds {fact : α → Prop} {task : Task α}
    (h : Consults terms call began written memory task fact)
    (htended : terms.Tended call began written memory) :
    Upholds terms call began written memory task fun written' memory' value =>
      written' = written ∧ memory' = memory ∧ fact value := by
  refine Routine.Keeps.mono h ?_ ?_
  · rintro _ _ value ⟨rfl, rfl, hfact⟩
    exact ⟨htended, rfl, rfl, hfact⟩
  · rintro _ _ _ ⟨rfl, rfl, error, rfl, herror⟩
    exact ⟨htended, fun _ => herror⟩

/-- Other work may come after work that only asks. -/
theorem Consults.upholds_bind {fact : α → Prop}
    {fact' : List (String × String) → Walker → β → Prop} {task : Task α} {f : α → Task β}
    (h : Consults terms call began written memory task fact)
    (htended : terms.Tended call began written memory)
    (hf : ∀ value, fact value → Upholds terms call began written memory (f value) fact') :
    Upholds terms call began written memory (task >>= f) fact' := by
  refine (h.upholds htended).bind ?_
  rintro _ _ value - ⟨rfl, rfl, hfact⟩
  exact hf value hfact

/-- A failure that is passed over leaves what is written in order as well. -/
theorem Upholds.regardless {fact : List (String × String) → Walker → Unit → Prop} {task : Task Unit}
    (h : Upholds terms call began written memory task fact) :
    Upholds terms call began written memory (Work.regardless task) fun _ _ _ => True := by
  refine Work.keeps_regardless.mpr (Routine.Keeps.mono h ?_ ?_)
  · exact fun _ _ _ hok => ⟨hok.1, trivial⟩
  · rintro _ _ (cause | _) hfailed
    · exact ⟨hfailed.1, trivial⟩
    · exact ⟨hfailed.1, hfailed.2⟩

/-! ## Asking -/

theorem consults_cursorNow :
    Consults terms call began written memory cursorNow fun cursor => cursor = memory.cursor :=
  Routine.keeps_bind.mpr (Routine.keeps_current.mpr (Routine.keeps_pure.mpr ⟨rfl, rfl, rfl⟩))

theorem consults_note (h : terms.Tended call began written memory) (m : Measurement) :
    Consults terms call began written memory (Work.note m) fun _ => True := by
  refine Routine.Keeps.mono (Consults.ask h (.note m) trivial fun _ _ hsame => hsame) ?_ ?_
  · exact fun _ _ _ hok => ⟨hok.1, hok.2.1, trivial⟩
  · exact fun _ _ _ hfailed => hfailed

theorem consults_showHeight (h : terms.Tended call began written memory) :
    Consults terms call began written memory showHeight fun _ => True :=
  consults_cursorNow.bind fun _ _ => consults_note h _

/-- What has been written under a key, read as a tip. -/
theorem consults_readTip (h : terms.Tended call began written memory) (key : String) :
    Consults terms call began written memory (Work.readTip .cache key) fun found =>
      (found = none → written.lookup key = none) ∧
      ∀ tip, found = some tip →
        ∃ text, written.lookup key = some text ∧ Tip.ofCacheText? text = some tip := by
  refine (Consults.ask h (.readCache key) trivial fun _ _ hsame => hsame.1).bind fun answer htold => ?_
  refine consults_ofAnswer_bind (fun _ => rfl) fun text htext => ?_
  have hlookup := htold.2 text htext
  cases text with
  | none => exact .pure ⟨fun _ => hlookup.symm, nofun⟩
  | some text =>
    cases hdecode : Tip.ofCacheText? text with
    | none =>
      rw [decodeCached, hdecode]
      exact .fail rfl
    | some tip =>
      rw [decodeCached, hdecode]
      refine .pure ⟨nofun, fun tip' htip' => ?_⟩
      cases htip'
      exact ⟨text, hlookup.symm, hdecode⟩

/-- A height is read as the tip that has been published there. -/
theorem consults_tipAt (h : terms.Tended call began written memory) (height : UInt64) :
    Consults terms call began written memory (Work.tipAt .cache height) fun found =>
      (found = none → ¬ Cached written height) ∧
      ∀ tip, found = some tip → tip ∈ published written ∧ tip.number = height := by
  refine Routine.Keeps.mono (consults_readTip h (heightKey height)) ?_ fun _ _ _ hfailed => hfailed
  rintro _ _ found ⟨hwritten, hmemory, hnone, hsome⟩
  refine ⟨hwritten, hmemory, fun hfound => h.not_cached (hnone hfound), fun tip hfound => ?_⟩
  obtain ⟨text, hlookup, hdecoded⟩ := hsome tip hfound
  obtain ⟨other, hother, hnumber, rfl⟩ := h.of_lookup hlookup
  rw [Tip.ofCacheText?_toCacheText] at hdecoded
  cases hdecoded
  exact ⟨hother, hnumber⟩

/-! ## Moving and storing the cursor -/

theorem upholds_enter (h : terms.Tended call began written memory) (stage : Stage) :
    Upholds terms call began written memory (enter stage) fun written' memory' _ =>
      written' = written ∧ memory' = { memory with stage } :=
  Routine.keeps_remember.mpr
    ⟨⟨⟨h.records, h.descends, h.placed, h.unskipped⟩, h.lowered⟩, rfl, rfl⟩

theorem upholds_moveTo (h : terms.Tended call began written memory) (htip : terms.Placed written tip)
    (hlow : call.recovers = true → tip.number.toNat ≤ began.cursor.number.toNat) :
    Upholds terms call began written memory (moveTo tip) fun written' memory' _ =>
      written' = written ∧ memory' = { memory with cursor := tip } :=
  Routine.keeps_remember.mpr ⟨⟨h.toInOrder.moveTo htip, hlow⟩, rfl, rfl⟩

theorem upholds_writeTip (h : terms.Tended call began written memory) {key : String}
    {lifetime : Duration}
    (hmay : terms.MayAsk began written memory (.writeCache key tip.toCacheText lifetime))
    (htop : terms.steady → IsTop written memory.cursor) :
    Upholds terms call began written memory (Work.writeTip .cache key tip lifetime)
      fun written' memory' _ => written' = (key, tip.toCacheText) :: written ∧ memory' = memory := by
  refine Routine.keeps_bind.mpr (Routine.keeps_ask.mpr ⟨⟨h, hmay⟩, ?_⟩)
  rintro answer written' (⟨rfl, htold⟩ | ⟨rfl, hfailed⟩)
  · match answer with
    | .ok () => exact Upholds.pure (h.served hmay) ⟨rfl, rfl⟩
    | .error (.failed _) => exact Upholds.fail (h.served hmay) fun _ => rfl
    | .error .overflow => exact absurd rfl htold
  · match answer with
    | .ok () => exact absurd rfl hfailed
    | .error (.failed _) => exact Upholds.fail h fun _ => rfl
    | .error .overflow => exact Upholds.fail h htop

theorem upholds_storeCursor (h : terms.Tended call began written memory)
    (htop : terms.steady → IsTop written memory.cursor) :
    Upholds terms call began written memory (storeCursor terms.settings) fun written' memory' _ =>
      published written' = published written ∧ memory' = memory := by
  refine consults_cursorNow.upholds_bind h ?_
  rintro _ rfl
  refine (upholds_writeTip h (.inl ⟨rfl, rfl⟩) htop).bind ?_
  rintro _ _ _ h₁ ⟨rfl, rfl⟩
  refine ((consults_showHeight h₁).upholds h₁).mono ?_
  rintro _ _ _ ⟨rfl, rfl, -⟩
  exact ⟨published_cons_cursor _, rfl⟩

/-! ## The steps -/

/-- The walker goes back to the cursor that has been stored, or to the checkpoint. -/
theorem upholds_bootstrap (h : terms.Tended .advance began written memory) :
    Upholds terms .advance began written memory (bootstrap terms.settings) fun _ _ _ => True := by
  refine (consults_readTip h cursorKey).upholds_bind h ?_
  rintro stored ⟨-, hstored⟩
  have hplaced : terms.Placed written (stored.getD terms.checkpoint) := by
    cases stored with
    | none => exact terms.placed_checkpoint written
    | some tip =>
      obtain ⟨text, hlookup, hdecoded⟩ := hstored tip rfl
      obtain ⟨cursor, hcursor, rfl⟩ := h.of_lookup_cursor hlookup
      rw [Tip.ofCacheText?_toCacheText] at hdecoded
      cases hdecoded
      exact hcursor
  refine (upholds_moveTo h hplaced nofun).bind fun _ _ _ h₁ _ => ?_
  exact ((consults_showHeight h₁).upholds h₁).mono fun _ _ _ _ => trivial

/-- A pass over cached points ends at the top: it goes on as long as there is a tip right above the
cursor, and there are no holes. -/
theorem upholds_adoptCached (h : terms.Tended .advance began written memory) {above : Nat}
    (habove : memory.cursor.number.toNat + above = UInt64.size) :
    Upholds terms .advance began written memory (adoptCached above) fun written' memory' _ =>
      IsTop written' memory'.cursor := by
  induction above generalizing memory with
  | zero => exact absurd memory.cursor.number.toNat_lt_size (by omega)
  | succ above ih =>
    refine consults_cursorNow.upholds_bind h ?_
    rintro _ rfl
    cases hadd : Word.add memory.cursor.number 1 with
    | error =>
      -- the cursor is at the largest height, and nothing lies above it
      have hlargest : UInt64.size ≤ memory.cursor.number.toNat + 1 := by
        refine Nat.le_of_not_lt fun hlt => ?_
        rw [Word.add, UInt64.toNat_one, if_pos hlt] at hadd
        cases hadd
      refine Upholds.fail h fun _ other _ => ?_
      have := other.number.toNat_lt_size
      omega
    | ok next =>
      have hnext : next.toNat = memory.cursor.number.toNat + 1 := Word.add_eq_ok_iff.mp hadd
      refine (consults_tipAt h next).upholds_bind h ?_
      rintro found ⟨hnone, hsome⟩
      cases found with
      | none =>
        refine Upholds.pure h (h.isTop fun height hheight => ?_)
        rw [UInt64.toNat_inj.mp (hheight.trans hnext.symm)]
        exact hnone rfl
      | some tip =>
        obtain ⟨htip, rfl⟩ := hsome tip rfl
        dsimp only
        rw [if_pos rfl]
        refine (upholds_moveTo h (h.of_published htip).1 nofun).bind ?_
        rintro _ _ _ h₁ ⟨rfl, rfl⟩
        exact ih h₁ (by show tip.number.toNat + above = _; omega)

/-- If the node keeps one chain, a pass over cached points is never left out and ends at the top. -/
theorem upholds_fastForward (h : terms.Tended .advance began written memory) :
    Upholds terms .advance began written memory (fastForward terms.settings)
      fun written' memory' _ => terms.steady → IsTop written' memory'.cursor := by
  refine Routine.keeps_bind.mpr (Routine.keeps_current.mpr ?_)
  by_cases hskip : memory.skipFastForward = true
  · rw [if_pos hskip]
    have hfree : ¬ terms.steady := fun hsteady => by
      rw [h.unskipped hsteady] at hskip
      cases hskip
    exact Routine.keeps_remember.mpr
      ⟨⟨⟨h.records, h.descends, h.placed, fun _ => rfl⟩, h.lowered⟩, fun hsteady => absurd hsteady hfree⟩
  · rw [if_neg hskip]
    have hcount : memory.cursor.number.toNat + (UInt64.size - memory.cursor.number.toNat)
        = UInt64.size := Nat.add_sub_of_le (Nat.le_of_lt memory.cursor.number.toNat_lt_size)
    refine (upholds_adoptCached h hcount).bind fun written₁ memory₁ _ h₁ htop => ?_
    refine consults_cursorNow.upholds_bind h₁ ?_
    rintro _ rfl
    by_cases hmoved : memory₁.cursor ≠ memory.cursor
    · rw [if_pos hmoved]
      refine (upholds_storeCursor h₁ fun _ => htop).mono ?_
      rintro _ _ _ ⟨hsame, rfl⟩ -
      rw [IsTop, hsame]
      exact htop
    · rw [if_neg hmoved]
      exact .pure h₁ fun _ => htop

/-- Publishing the tips after the cursor moves it over them. -/
theorem upholds_publish (h : terms.Tended .advance began written memory) {tips : List Tip}
    (hnumbered : tips.map (·.number.toNat)
      = List.range' (memory.cursor.number.toNat + 1) tips.length)
    (hfits : ∀ tip ∈ tips, terms.fits tip) (htop : terms.steady → IsTop written memory.cursor) :
    Upholds terms .advance began written memory (publish terms.settings tips)
      fun written' memory' _ => terms.steady → IsTop written' memory'.cursor := by
  induction tips generalizing written memory with
  | nil => exact .pure h htop
  | cons tip rest ih =>
    rw [List.map_cons, List.length_cons, List.range'_succ] at hnumbered
    obtain ⟨hnumber, hrest⟩ := List.cons.inj hnumbered
    obtain ⟨hpublished, hplaced⟩ := h.publish (hfits tip List.mem_cons_self) hnumber htop
    refine consults_cursorNow.upholds_bind h ?_
    rintro _ rfl
    have hforward : isForward memory.cursor tip = true := by
      have hlt : memory.cursor.number < tip.number := UInt64.lt_iff_toNat_lt.mpr (by omega)
      simp [isForward, hlt]
    rw [if_pos hforward]
    refine (upholds_writeTip h
      (.inr ⟨tip, rfl, rfl, hfits tip List.mem_cons_self, hnumber, htop⟩) htop).bind ?_
    rintro _ _ _ h₁ ⟨rfl, rfl⟩
    refine (upholds_moveTo h₁ hplaced nofun).bind ?_
    rintro _ _ _ h₂ ⟨rfl, rfl⟩
    have hnext : rest.map (·.number.toNat) = List.range' (tip.number.toNat + 1) rest.length := by
      rw [hrest, hnumber]
    refine (ih h₂ hnext (fun other hother => hfits other (List.mem_cons_of_mem _ hother))
      fun hsteady other hother => ?_).bind fun _ _ _ h₃ htop₃ => .pure h₃ htop₃
    rw [published_cons_tip] at hother
    rcases List.mem_cons.mp hother with rfl | hother
    · exact Nat.le_refl _
    · have := htop hsteady other hother
      show other.number.toNat ≤ tip.number.toNat
      omega

/-- At its end a walk fails if the node has stepped back, which it does not on one chain. -/
theorem upholds_walkEnd (h : terms.Tended .advance began written memory)
    (htop : terms.steady → IsTop written memory.cursor) {back : Option Point}
    (hback : terms.steady → back = none) :
    Upholds terms .advance began written memory
      (match back with
        | some point => Work.fail (.rolledBack point)
        | none => Pure.pure Step.progressed)
      fun written' memory' _ => terms.steady → IsTop written' memory'.cursor := by
  cases back with
  | some point => exact .fail h fun hsteady => nomatch hback hsteady
  | none => exact .pure h htop

/-- A walk that begins at the top ends at the top, if the node keeps one chain; it does not end in a failure
then that leads the cursor back. -/
theorem upholds_walk (h : terms.Tended .advance began written memory)
    (hbegan : memory.cursor = began.cursor) (htop : terms.steady → IsTop written memory.cursor) :
    Upholds terms .advance began written memory (walk terms.settings)
      fun written' memory' _ => terms.steady → IsTop written' memory'.cursor := by
  refine (Consults.ask h .bestHeight trivial fun _ _ hsame => hsame.1).upholds_bind h ?_
  rintro best ⟨-, hbest⟩
  refine consults_cursorNow.upholds_bind h ?_
  rintro _ rfl
  by_cases hsize : batchSize terms.settings best memory.cursor = 0
  · rw [if_pos hsize]
    exact .pure h htop
  · rw [if_neg hsize]
    have hmay : terms.MayAsk began written memory (.pointsAfter memory.cursor.point
        (batchSize terms.settings best memory.cursor)) := by
      refine ⟨hbegan, rfl, fun hsteady => ⟨htop hsteady, hsize, ?_⟩⟩
      have hle := hbest hsteady
      have hpos := mt UInt64.toNat_inj.mp hsize
      unfold batchSize at hpos
      simp only [Word.toNat_min, Word.toNat_satSub, UInt64.toNat_zero] at hpos
      omega
    refine (Consults.ask h _ hmay fun _ _ hsame => hsame.1).upholds_bind h ?_
    rintro answer ⟨-, htold⟩
    cases answer with
    | error error => exact .fail h fun _ => rfl
    | ok next =>
      have hfollows := htold next rfl
      rw [← hbegan] at hfollows
      show Upholds terms .advance began written memory (if _ then _ else _) _
      split
      · rename_i hempty
        refine .fail h fun hsteady => ?_
        have hnone := (hfollows.goesOn hsteady).1
        simp [hnone] at hempty
      · refine (upholds_publish h hfollows.numbered hfollows.fits htop).bind
          fun written₁ memory₁ count h₁ htop₁ => ?_
        by_cases hcount : 0 < count
        · rw [if_pos hcount]
          refine (upholds_storeCursor h₁ htop₁).bind ?_
          rintro written₂ _ _ h₂ ⟨hsame, rfl⟩
          refine upholds_walkEnd h₂ (fun hsteady => ?_) fun hsteady => (hfollows.goesOn hsteady).2
          rw [IsTop, hsame]
          exact htop₁ hsteady
        · rw [if_neg hcount]
          exact upholds_walkEnd h₁ htop₁ fun hsteady => (hfollows.goesOn hsteady).2

/-- While the walker walks or idles, its cursor is at the top. -/
def WalksAtTop (written : List (String × String)) (memory : Walker) : Prop :=
  memory.stage = .walking ∨ memory.stage = .idle → IsTop written memory.cursor

theorem upholds_advance (h : terms.Tended .advance memory written memory)
    (htop : terms.steady → WalksAtTop written memory) :
    Upholds terms .advance memory written memory (advance terms.settings)
      fun written' memory' _ => terms.steady → WalksAtTop written' memory' := by
  have hwalk : ∀ stage : Step → Stage, memory.stage = .walking ∨ memory.stage = .idle →
      Upholds terms .advance memory written memory (do
        let step ← walk terms.settings
        enter (stage step)
        return step) fun written' memory' _ => terms.steady → WalksAtTop written' memory' := by
    intro stage hstage
    refine (upholds_walk h rfl fun hsteady => htop hsteady hstage).bind
      fun written₁ memory₁ step h₁ htop₁ => ?_
    refine (upholds_enter h₁ _).bind ?_
    rintro _ _ _ h₂ ⟨rfl, rfl⟩
    exact .pure h₂ fun hsteady _ => htop₁ hsteady
  refine Routine.keeps_bind.mpr (Routine.keeps_current.mpr ?_)
  cases hstage : memory.stage with
  | bootstrap =>
    refine (upholds_bootstrap h).bind fun _ _ _ h₁ _ => (upholds_enter h₁ _).bind ?_
    rintro _ _ _ h₂ ⟨rfl, rfl⟩
    exact .pure h₂ fun _ => by rintro (hstage | hstage) <;> cases hstage
  | fastForward =>
    refine (upholds_fastForward h).bind fun _ _ _ h₁ htop₁ => (upholds_enter h₁ _).bind ?_
    rintro _ _ _ h₂ ⟨rfl, rfl⟩
    exact .pure h₂ fun hsteady _ => htop₁ hsteady
  | walking => exact hwalk _ (.inl hstage)
  | idle => exact hwalk _ (.inr hstage)
  | recovering =>
    refine (upholds_enter h _).bind ?_
    rintro _ _ _ h₁ ⟨rfl, rfl⟩
    exact .pure h₁ fun _ => by rintro (hstage | hstage) <;> cases hstage

/-! ## Recovery -/

/-- Published tips are found, and nothing else is written or remembered meanwhile. -/
theorem consults_finds (h : terms.Tended call began written memory) :
    Finds (upkeep terms call began) (fun written' memory' => written' = written ∧ memory' = memory)
      (fun _ height tip => tip ∈ published written ∧ tip.number = height)
      (fun written' memory' cause => written' = written ∧ memory' = memory ∧
        ∃ error, cause = .failed error ∧ error.turnsBack = false) := by
  rintro _ _ height ⟨rfl, rfl⟩
  refine Routine.Keeps.mono (consults_tipAt h height) ?_ fun _ _ _ hfailed => hfailed
  rintro _ _ _ ⟨hwritten, hmemory, -, hsome⟩
  exact ⟨⟨hwritten, hmemory⟩, hsome⟩

theorem consults_findAmong (h : terms.Tended call began written memory) (point : Point)
    (heights : List UInt64) :
    Consults terms call began written memory (findAmong point heights) fun found =>
      ∀ tip, found = some tip → tip ∈ published written ∧ tip.number ∈ heights := by
  refine Routine.Keeps.mono ((consults_finds h).findAmong point heights ⟨rfl, rfl⟩) ?_
    fun _ _ _ hfailed => hfailed
  rintro _ _ _ ⟨⟨hwritten, hmemory⟩, hfound⟩
  refine ⟨hwritten, hmemory, fun tip htip => ?_⟩
  obtain ⟨-, height, hheight, htip, rfl⟩ := hfound tip htip
  exact ⟨htip, hheight⟩

theorem consults_probeAmong (h : terms.Tended call began written memory) (hfree : ¬ terms.steady)
    (top : UInt64) (offsets : List UInt64) :
    Consults terms call began written memory (probeAmong top offsets) fun found =>
      ∀ tip, found = some tip → tip ∈ published written ∧ ∃ offset ∈ offsets, tip.number = top - offset := by
  have hasks : ∀ (height : UInt64) (tip : Tip), tip ∈ published written ∧ tip.number = height →
      Consults terms call began written memory (do
        let answer ← Routine.ask (I := Surroundings) (.findIntersect tip.point)
        Work.ofAnswer .node answer : Task Intersection) fun intersection =>
          ∀ nodeTip, intersection = .found tip.point nodeTip →
            tip ∈ published written ∧ tip.number = height := by
    intro height tip htip
    refine (Consults.ask h (.findIntersect tip.point) hfree fun _ _ hsame => hsame).bind fun answer _ => ?_
    cases answer with
    | ok => exact .pure fun _ _ => htip
    | error => exact .fail rfl
  refine Routine.Keeps.mono ((consults_finds h).probeAmong
    (fun _ height tip => tip ∈ published written ∧ tip.number = height) ?_ top offsets ⟨rfl, rfl⟩) ?_
    fun _ _ _ hfailed => hfailed
  · rintro _ _ height tip ⟨rfl, rfl⟩ htip
    refine Routine.Keeps.mono (hasks height tip htip) ?_ fun _ _ _ hfailed => hfailed
    exact fun _ _ _ hok => ⟨⟨hok.1, hok.2.1⟩, hok.2.2⟩
  · rintro _ _ _ ⟨⟨hwritten, hmemory⟩, hfound⟩
    refine ⟨hwritten, hmemory, fun tip htip => ?_⟩
    obtain ⟨offset, hoffset, hmem, hnumber⟩ := hfound tip htip
    exact ⟨hmem, offset, hoffset, hnumber⟩

/-- The target of a rewind has been published, at or below the cursor. -/
theorem consults_findTarget (h : terms.Tended call began written memory) (target : Option Point) :
    Consults terms call began written memory (findTarget target) fun found =>
      ∀ tip, found = some tip →
        tip ∈ published written ∧ tip.number.toNat ≤ memory.cursor.number.toNat := by
  cases target with
  | none => exact .pure nofun
  | some point =>
    dsimp only [findTarget]
    by_cases horigin : point.isOrigin = true
    · rw [if_pos horigin]
      exact .pure nofun
    · rw [if_neg horigin]
      refine consults_cursorNow.bind ?_
      rintro _ rfl
      refine Routine.Keeps.mono (consults_findAmong h point _) ?_ fun _ _ _ hfailed => hfailed
      rintro _ _ found ⟨hwritten, hmemory, hfound⟩
      exact ⟨hwritten, hmemory, fun tip htip =>
        ⟨(hfound tip htip).1, toNat_le_of_mem_heightsBelow (hfound tip htip).2⟩⟩

theorem consults_probeIntersection (h : terms.Tended call began written memory)
    (hfree : ¬ terms.steady) :
    Consults terms call began written memory probeIntersection fun found =>
      ∀ tip, found = some tip →
        tip ∈ published written ∧ tip.number.toNat ≤ memory.cursor.number.toNat := by
  refine consults_cursorNow.bind ?_
  rintro _ rfl
  refine Routine.Keeps.mono (consults_probeAmong h hfree _ _) ?_ fun _ _ _ hfailed => hfailed
  rintro _ _ found ⟨hwritten, hmemory, hfound⟩
  refine ⟨hwritten, hmemory, fun tip htip => ?_⟩
  obtain ⟨hmem, offset, hoffset, hnumber⟩ := hfound tip htip
  rw [hnumber]
  exact ⟨hmem, Nat.le_of_lt (toNat_sub_lt_of_mem_probeOffsets hoffset)⟩

/-- A rewind moves the cursor to a published tip at or below it, or to the checkpoint. -/
theorem upholds_rewind (h : terms.Tended call began written memory)
    (hbegan : memory.cursor = began.cursor) (hfree : ¬ terms.steady) (target : Option Point) :
    Upholds terms call began written memory (rewind terms.settings target) fun _ _ _ => True := by
  have hmove : ∀ onChain : Option Tip, (∀ tip, onChain = some tip →
        tip ∈ published written ∧ tip.number.toNat ≤ memory.cursor.number.toNat) →
      Upholds terms call began written memory (do
        moveTo (onChain.getD terms.checkpoint)
        Routine.remember fun w => { w with skipFastForward := true }
        storeCursor terms.settings) fun _ _ _ => True := by
    intro onChain honChain
    have hplaced : terms.Placed written (onChain.getD terms.checkpoint) ∧
        (onChain.getD terms.checkpoint).number.toNat ≤ memory.cursor.number.toNat := by
      cases onChain with
      | none => exact ⟨terms.placed_checkpoint written, h.placed.low⟩
      | some tip => exact ⟨(h.of_published (honChain tip rfl).1).1, (honChain tip rfl).2⟩
    refine (upholds_moveTo h hplaced.1 fun _ => hbegan ▸ hplaced.2).bind ?_
    rintro _ _ _ h₁ ⟨rfl, rfl⟩
    have hskip : terms.Tended call began _
        { memory with cursor := onChain.getD terms.checkpoint, skipFastForward := true } :=
      ⟨⟨h₁.records, h₁.descends, h₁.placed, fun hsteady => absurd hsteady hfree⟩, h₁.lowered⟩
    exact Routine.keeps_bind.mpr (Routine.keeps_remember.mpr
      ((upholds_storeCursor hskip fun hsteady => absurd hsteady hfree).mono fun _ _ _ _ => trivial))
  refine (consults_findTarget h target).upholds_bind h fun found hfound => ?_
  cases found with
  | some tip => exact hmove (some tip) hfound
  | none => exact (consults_probeIntersection h hfree).upholds_bind h hmove

/-- A recovery does not move the cursor if the node keeps one chain. -/
theorem upholds_recover {error : WalkerError}
    (h : terms.Tended (.recover error) memory written memory)
    (herror : terms.steady → error.turnsBack = false) :
    Upholds terms (.recover error) memory written memory (recover terms.settings error)
      fun written' memory' _ => terms.steady → WalksAtTop written' memory' := by
  refine (consults_note h _).upholds_bind h fun _ _ => ?_
  refine (upholds_enter h .recovering).bind ?_
  rintro _ _ _ h₁ ⟨rfl, rfl⟩
  have hrests : Upholds terms (.recover error) memory _ { memory with stage := .recovering }
      (Pure.pure () : Task Unit) fun written' memory' _ => terms.steady → WalksAtTop written' memory' :=
    .pure h₁ fun _ => by rintro (hstage | hstage) <;> cases hstage
  have hrewind : ¬ terms.steady → ∀ target, Upholds terms (.recover error) memory _
      { memory with stage := .recovering } (Work.regardless (rewind terms.settings target))
      fun written' memory' _ => terms.steady → WalksAtTop written' memory' := fun hfree target =>
    (upholds_rewind h₁ rfl hfree target).regardless.mono fun _ _ _ _ hsteady => absurd hsteady hfree
  cases error with
  | rolledBack point => exact hrewind (fun hsteady => nomatch herror hsteady) (some point)
  | intersectNotFound => exact hrewind (fun hsteady => nomatch herror hsteady) none
  | node | cache | stalled => exact hrests

/-! ## Calls -/

/-- What is in order between two calls, the first of which has left a failure behind or none. -/
structure Terms.Rests (terms : Terms) (written : List (String × String)) (memory : Walker)
    (owed : Option WalkerError) : Prop extends terms.InOrder written memory where
  atTop : terms.steady → owed = none → WalksAtTop written memory
  stays : terms.steady → ∀ error, owed = some error → error.turnsBack = false

/-- A call keeps what is written in order. -/
theorem keeps_work {owed : Option WalkerError} (h : terms.Rests written memory owed)
    (hdue : terms.steady → call.IsDue owed) :
    (call.work terms.settings memory).Keeps (upkeep terms call memory)
      (fun written' memory' failure => terms.Tended call memory written' memory' ∧
        terms.Rests written' memory' failure) written := by
  have htended : terms.Tended call memory written memory := ⟨h.toInOrder, fun _ => Nat.le_refl _⟩
  have hends : ∀ {α : Type} {task : Task α}, Upholds terms call memory written memory task
        (fun written' memory' _ => terms.steady → WalksAtTop written' memory') →
      ((task.start memory).map Call.failure?).Keeps (upkeep terms call memory)
        (fun written' memory' failure => terms.Tended call memory written' memory' ∧
          terms.Rests written' memory' failure) written := by
    intro α task htask
    refine Run.keeps_bind.mpr (Run.Keeps.mono htask fun written' memory' outcome houtcome => ?_)
    cases outcome with
    | ok =>
      obtain ⟨h₁, htop⟩ := houtcome
      exact ⟨h₁, h₁.toInOrder, fun hsteady _ => htop hsteady, nofun⟩
    | error cause =>
      obtain ⟨h₁, hcause⟩ := houtcome
      cases cause with
      | overflow => exact ⟨h₁, h₁.toInOrder, fun hsteady _ _ => hcause hsteady, nofun⟩
      | failed error =>
        refine ⟨h₁, h₁.toInOrder, fun _ => nofun, fun hsteady error' herror => ?_⟩
        cases herror
        exact hcause hsteady
  cases call with
  | advance => exact hends (upholds_advance htended fun hsteady => h.atTop hsteady (hdue hsteady))
  | recover error =>
    exact hends (upholds_recover htended fun hsteady => h.stays hsteady error (hdue hsteady))

end

end Walker

end BlockFeed
