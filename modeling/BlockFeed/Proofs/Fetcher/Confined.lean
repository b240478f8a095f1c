import BlockFeed.Fetcher
import BlockFeed.Proofs.Contract

/-!
# What an iteration asks for

An iteration reads the observed heights, the cache and the state of the queue, asks the node for blocks and
the hint service for hints, and takes measurements down. It writes nothing that others share with it, but
for what enters the queue when a batch is handed on. None of its parts changes what the fetcher remembers,
but for the last one, after the batch.

There is one lemma for each part. They leave open which blocks are wanted and what is known of the memory.
-/

namespace BlockFeed.Fetcher

open Surroundings (Query)

/-- Questions of an iteration that wants blocks at some points and may hand blocks on. -/
def AsksFor (wanted : Point → Prop) (handing : Prop) : Query → Prop
  | .fetchBlock point => wanted point
  | .send _ | .commit _ => handing
  | .writeCache _ _ _ | .publishBest _ | .publishFinalized _ | .tipHeader | .pointsAfter _ _
  | .findIntersect _ => False
  | _ => True

section
variable {plan : Plan} {window : Window} {latest : UInt64} {tips : List Tip} {wanted : Point → Prop}
  {handing : Prop} {holds : BypassRanges → Prop}

theorem confined_note (m : Measurement) :
    (Work.note m : Task Unit).Confined holds (AsksFor wanted handing) :=
  Routine.confined_ask trivial

/-! ## Planning -/

theorem confined_nextHeight : (nextHeight plan).Confined holds (AsksFor wanted handing) := by
  refine (Routine.confined_ask trivial).bind fun buffered => ?_
  cases buffered with
  | none => exact Routine.confined_pure _
  | some height => exact Routine.confined_ofExcept _ _

theorem confined_latestHeight (useFinalized : Bool) :
    (Work.latestHeight useFinalized : Task UInt64).Confined holds (AsksFor wanted handing) := by
  cases useFinalized with
  | true => exact Routine.confined_ask trivial
  | false => exact Routine.confined_ask trivial

/-! ## Tips -/

theorem confined_requireTip (height : UInt64) :
    (requireTip height).Confined holds (AsksFor wanted handing) := by
  have hread : (Work.tipAt .cache height : Task (Option Tip)).Confined holds
      (AsksFor wanted handing) :=
    (Routine.confined_ask trivial).bind fun _ => (Routine.confined_ofExcept _ _).bind fun _ =>
      Routine.confined_ofExcept _ _
  refine hread.bind fun found => ?_
  cases found with
  | some tip => exact Routine.confined_pure _
  | none => exact Routine.confined_fail _

theorem confined_requireTips (heights : List UInt64) :
    (requireTips heights).Confined holds (AsksFor wanted handing) := by
  induction heights with
  | nil => exact Routine.confined_pure _
  | cons height rest ih =>
    exact (confined_requireTip height).bind fun _ => ih.bind fun _ => Routine.confined_pure _

theorem confined_windowTips : (windowTips window).Confined holds (AsksFor wanted handing) :=
  (Routine.confined_ofExcept _ _).bind fun last => (confined_requireTip last).bind fun _ =>
    (confined_requireTips _).bind fun _ => Routine.confined_pure _

/-! ## Blocks -/

theorem confined_noteSkipped (reason : String) (count : UInt64) :
    (noteSkipped reason count).Confined holds (AsksFor wanted handing) := by
  unfold noteSkipped
  split
  · exact Routine.confined_pure _
  · exact confined_note _

theorem confined_stripBypass (heights : List UInt64) :
    (stripBypass heights).Confined holds (AsksFor wanted handing) :=
  Routine.confined_current.bind fun _ => (confined_noteSkipped _ _).bind fun _ => Routine.confined_pure _

theorem confined_consultHints :
    (consultHints plan window latest).Confined holds (AsksFor wanted handing) := by
  unfold consultHints
  cases plan.hinting with
  | none => exact Routine.confined_pure _
  | some selection =>
    refine (Routine.confined_ofExcept _ _).bind fun last => ?_
    refine (Routine.confined_ofExcept _ _).bind fun distance => ?_
    split
    · exact Routine.confined_pure _
    · refine (Routine.confined_ask trivial).bind fun reply => ?_
      cases reply with
      | none => exact (confined_note _).bind fun _ => Routine.confined_pure _
      | some reply => exact Routine.confined_pure _

theorem confined_fetchHeights
    (hwanted : ∀ height tip, tipFor? window tips height = some tip → wanted tip.point)
    (heights : List UInt64) :
    (fetchHeights window tips heights).Confined holds (AsksFor wanted handing) := by
  induction heights with
  | nil => exact Routine.confined_pure _
  | cons height rest ih =>
    unfold fetchHeights
    cases htip : tipFor? window tips height with
    | none => exact Routine.confined_fail _
    | some tip =>
      refine (Routine.confined_ask (hwanted height tip htip)).bind fun answer => ?_
      exact (Routine.confined_ofExcept _ _).bind fun body => ih.bind fun _ => Routine.confined_pure _

theorem confined_fetchPlanned
    (hwanted : ∀ height tip, tipFor? window tips height = some tip → wanted tip.point)
    (hint : Option Hint) :
    (fetchPlanned window tips hint).Confined holds (AsksFor wanted handing) := by
  cases hint with
  | some hint =>
    have hfetched : (fetchHinted window tips hint).Confined holds (AsksFor wanted handing) :=
      (confined_stripBypass _).bind fun _ => (Routine.confined_ofExcept _ _).bind fun _ =>
        (Routine.confined_ofExcept _ _).bind fun _ => (confined_noteSkipped _ _).bind fun _ =>
          confined_fetchHeights hwanted _
    exact hfetched.bind fun _ => Routine.confined_pure _
  | none =>
    have hfetched : (fetchWindow window tips).Confined holds (AsksFor wanted handing) :=
      (Routine.confined_ofExcept _ _).bind fun _ => (confined_stripBypass _).bind fun _ =>
        confined_fetchHeights hwanted _
    exact hfetched.bind fun _ => (Routine.confined_ofExcept _ _).bind fun _ => Routine.confined_pure _

/-! ## Batches -/

theorem confined_sendAll (hhanding : handing) (blocks : List Block) :
    (sendAll blocks).Confined holds (AsksFor wanted handing) := by
  induction blocks with
  | nil => exact Routine.confined_pure _
  | cons block rest ih =>
    refine (Routine.confined_ask hhanding).bind fun taken => ?_
    cases taken with
    | true => exact ih
    | false => exact Routine.confined_fail _

theorem confined_enqueue (hhanding : handing) (blocks : List Block) (height : UInt64) :
    (enqueue blocks height).Confined holds (AsksFor wanted handing) :=
  (Routine.confined_ask trivial).bind fun _ => (Routine.confined_ofExcept _ _).bind fun _ =>
    (confined_sendAll hhanding blocks).bind fun _ => Routine.confined_ask hhanding

end

end BlockFeed.Fetcher
