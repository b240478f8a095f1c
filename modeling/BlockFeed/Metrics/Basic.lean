/-!
# Metrics

What the feed counts and measures. Gauges hold a signed word, counters an unsigned one, which wraps
around; a height too large for a gauge is shown as the largest that fits. Labelled counters have one
count for each combination of label values that has been seen. Fetch times are sorted into buckets
by their upper bounds.
-/

namespace BlockFeed

/-- Something to be counted or measured. -/
inductive Measurement where
  | openConnections (count : Int)
  | connectionAttempt (result : String)
  | callRetry (operation : String)
  | callFailure (operation kind : String)
  | bestHeight (height : UInt64)
  | finalizedHeight (height : UInt64)
  | walkerHeight (height : UInt64)
  | walkerRestart (reason : String)
  | bufferedHeight (height : UInt64)
  | blocksFetched (count : UInt64)
  | heightsSkipped (reason : String) (count : UInt64)
  | hintFallback
  /-- The time one batch took, in seconds. -/
  | batchFetchTime (seconds : Float)

/-- Counts by label values. -/
abbrev LabelledCounts := List (List String × UInt64)

/-- Adds to the count under some label values, which are there from then on. -/
def LabelledCounts.add (values : List String) (count : UInt64) : LabelledCounts → LabelledCounts
  | [] => [(values, count)]
  | (present, n) :: rest =>
    if present = values then (present, n + count) :: rest
    else (present, n) :: LabelledCounts.add values count rest

/-- The upper bounds of the buckets of fetch times, in seconds. -/
def fetchTimeBounds : List Float := [0.05, 0.1, 0.25, 0.5, 1.0, 2.5, 5.0, 10.0, 30.0]

/-- The counts and gauges of the feed. -/
structure Metrics where
  openConnections : Int := 0
  connectionAttempts : LabelledCounts := []
  callRetries : LabelledCounts := []
  callFailures : LabelledCounts := []
  bestHeight : Int := 0
  finalizedHeight : Int := 0
  walkerHeight : Int := 0
  walkerRestarts : LabelledCounts := []
  bufferedHeight : Int := 0
  blocksFetched : UInt64 := 0
  heightsSkipped : LabelledCounts := []
  hintFallbacks : UInt64 := 0
  /-- The fetch times, the latest first. -/
  fetchTimes : List Float := []
  deriving Inhabited

namespace Metrics

/-- The value of a gauge that shows a height. -/
def gauge (height : UInt64) : Int := min height.toNat 0x7FFFFFFFFFFFFFFF

/-- Takes a measurement down. -/
def note (m : Metrics) : Measurement → Metrics
  | .openConnections count => { m with openConnections := count }
  | .connectionAttempt result =>
    { m with connectionAttempts := m.connectionAttempts.add [result] 1 }
  | .callRetry operation => { m with callRetries := m.callRetries.add [operation] 1 }
  | .callFailure operation kind =>
    { m with callFailures := m.callFailures.add [operation, kind] 1 }
  | .bestHeight height => { m with bestHeight := gauge height }
  | .finalizedHeight height => { m with finalizedHeight := gauge height }
  | .walkerHeight height => { m with walkerHeight := gauge height }
  | .walkerRestart reason => { m with walkerRestarts := m.walkerRestarts.add [reason] 1 }
  | .bufferedHeight height => { m with bufferedHeight := gauge height }
  | .blocksFetched count => { m with blocksFetched := m.blocksFetched + count }
  | .heightsSkipped reason count =>
    { m with heightsSkipped := m.heightsSkipped.add [reason] count }
  | .hintFallback => { m with hintFallbacks := m.hintFallbacks + 1 }
  | .batchFetchTime seconds => { m with fetchTimes := seconds :: m.fetchTimes }

end Metrics

end BlockFeed
