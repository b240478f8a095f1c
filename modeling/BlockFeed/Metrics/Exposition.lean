import BlockFeed.Bytes
import BlockFeed.Metrics.Basic
import BlockFeed.Metrics.Target
import BlockFeed.Text.Numeral
import BlockFeed.Text.Shortest

/-!
# The exposition of metrics

Metrics are shown as lines of text. Each family has a line of help, a line with its type and then
its samples; families are in the order of their names, samples in the order of their label values,
and a labelled family without samples is left out. Every number is shown as the shortest decimal of
the 64-bit float nearest to it.

`respond` is the answer to a request for the page of metrics.
-/

namespace BlockFeed.Metrics

/-- The kind of a family. -/
inductive FamilyKind where
  | counter
  | gauge
  | histogram
  deriving DecidableEq, Repr

/-- The name of a kind. -/
def FamilyKind.name : FamilyKind → String
  | .counter => "counter"
  | .gauge => "gauge"
  | .histogram => "histogram"

/-- A line with a value: what follows the name of the family, the labels, and the number. -/
structure Sample where
  part : String := ""
  labels : List (String × String) := []
  number : Float

/-- A family of samples. -/
structure Family where
  name : String
  help : String
  kind : FamilyKind
  samples : List Sample

/-- The escaped form of a character of a label value. -/
def escapeLabel (c : Char) : List Char :=
  if c = '\\' then ['\\', '\\']
  else if c = '"' then ['\\', '"']
  else if c = '\n' then ['\\', 'n']
  else [c]

/-- A label with its value. -/
def labelText (label : String × String) : String :=
  label.1 ++ "=\"" ++ String.ofList (label.2.toList.flatMap escapeLabel) ++ "\""

/-- The line of a sample. -/
def Sample.line (family : String) (s : Sample) : String :=
  let labels := if s.labels.isEmpty then ""
    else "\x7b" ++ ",".intercalate (s.labels.map labelText) ++ "\x7d"
  family ++ s.part ++ labels ++ " " ++ Shortest.ofFloat s.number

/-- The lines of a family. -/
def Family.lines (f : Family) : List String :=
  if f.samples.isEmpty then []
  else
    ("# HELP " ++ f.name ++ " " ++ f.help) :: ("# TYPE " ++ f.name ++ " " ++ f.kind.name)
      :: f.samples.map (·.line f.name)

/-- A gauge. -/
def gaugeFamily (name help : String) (value : Int) : Family :=
  ⟨name, help, .gauge, [{ number := Float.ofInt value }]⟩

/-- A counter without labels. -/
def counterFamily (name help : String) (count : UInt64) : Family :=
  ⟨name, help, .counter, [{ number := count.toFloat }]⟩

/-- Lists of texts are compared at their first difference, texts by their bytes. -/
def textsPrecede : List String → List String → Bool
  | [], _ => true
  | _ :: _, [] => false
  | a :: as, b :: bs =>
    match Bytes.compare (Bytes.ofText a) (Bytes.ofText b) with
    | .lt => true
    | .eq => textsPrecede as bs
    | .gt => false

/-- Label values in the order in which samples are shown. -/
def valuesPrecede (a b : List String × UInt64) : Bool := textsPrecede a.1 b.1

/-- A labelled counter, with its labels in the order of their names. -/
def labelledFamily (name help : String) (labels : List String) (counts : LabelledCounts) : Family :=
  ⟨name, help, .counter, (counts.mergeSort valuesPrecede).map fun (values, count) =>
    { labels := labels.zip values, number := count.toFloat }⟩

/-- A counter that was kept under two labels, with the labels swapped. -/
def swapLabels (counts : LabelledCounts) : LabelledCounts :=
  counts.map fun (values, count) => (values.reverse, count)

/-- The number of times up to a bound. -/
def countUpTo (bound : Float) (times : List Float) : Float :=
  Float.ofNat (times.filter (· ≤ bound)).length

/-- The times that batches took. -/
def fetchTimeFamily (name help : String) (times : List Float) : Family :=
  let total := Float.ofNat times.length
  let buckets := fetchTimeBounds.map fun bound =>
    { part := "_bucket", labels := [("le", Shortest.ofFloat bound)], number := countUpTo bound times }
  ⟨name, help, .histogram, buckets ++ [
    { part := "_bucket", labels := [("le", "+Inf")], number := total },
    { part := "_sum", number := times.foldr (fun time sum => sum + time) 0 },
    { part := "_count", number := total }]⟩

/-- All families, in the order of their names. -/
def families (m : Metrics) : List Family := [
  fetchTimeFamily "feed_batch_fetch_time_seconds" "Time taken to fetch one batch of blocks"
    m.fetchTimes,
  gaugeFamily "feed_best_height" "Best height reported by the node" m.bestHeight,
  counterFamily "feed_blocks_fetched_total" "Total number of blocks fetched from the node"
    m.blocksFetched,
  gaugeFamily "feed_buffered_height" "Highest height handed to the dispatcher" m.bufferedHeight,
  labelledFamily "feed_connection_attempts_total" "Total number of node connection attempts"
    ["result"] m.connectionAttempts,
  gaugeFamily "feed_finalized_height" "Finalized height derived from the node tip"
    m.finalizedHeight,
  labelledFamily "feed_heights_skipped_total"
    "Total number of heights advanced past without a fetch" ["reason"] m.heightsSkipped,
  counterFamily "feed_hint_fallbacks_total"
    "Total number of iterations that fell back to sequential fetch" m.hintFallbacks,
  labelledFamily "feed_node_call_failures_total"
    "Total number of node calls that failed after all attempts" ["kind", "operation"]
    (swapLabels m.callFailures),
  labelledFamily "feed_node_call_retries_total" "Total number of retried node calls" ["operation"]
    m.callRetries,
  gaugeFamily "feed_open_connections" "Number of node connections currently open"
    m.openConnections,
  gaugeFamily "feed_walker_height" "Height of the last point cached by the walker" m.walkerHeight,
  labelledFamily "feed_walker_restarts_total" "Total number of point walker restarts" ["reason"]
    m.walkerRestarts]

/-- The lines that show all metrics. -/
def lines (m : Metrics) : List String := m.families.flatMap Family.lines

/-- The lines with values, but for the buckets and the sum of fetch times, which depend on the
clock. -/
def stableLines (m : Metrics) : List String :=
  m.families.flatMap fun f =>
    (f.samples.filter fun s => s.part ≠ "_bucket" && s.part ≠ "_sum").map (·.line f.name)

/-- The answer to a request: its status and the lines of its body. -/
structure Response where
  status : Nat
  body : List String
  deriving DecidableEq, Repr

/-- Answers a request. There is one page. -/
def respond (m : Metrics) (method target : String) : Response :=
  if Target.path? target ≠ some "/metrics" then ⟨404, []⟩
  else if method = "GET" then ⟨200, m.lines⟩
  else if method = "HEAD" then ⟨200, []⟩
  else ⟨405, []⟩

end BlockFeed.Metrics
