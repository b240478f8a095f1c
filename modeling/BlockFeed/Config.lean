import BlockFeed.Chain.Point
import BlockFeed.DataSource
import BlockFeed.Text.Address
import BlockFeed.Text.Duration

/-!
# Configuration

The settings of the feed with their defaults, the conditions a configuration must meet before it is
used, and what follows from one: the checkpoint the walk begins at, and the heights that are never
fetched.
-/

namespace BlockFeed

/-- The node and how it is called. -/
structure NodeSettings where
  /-- Host and port of the node. -/
  endpoint : String := "127.0.0.1:3001"
  networkMagic : UInt64 := 764824073
  connectTimeoutMs : UInt64 := 5000
  handshakeTimeoutMs : UInt64 := 5000
  /-- The bound on one attempt of a call, connecting included. -/
  callTimeoutMs : UInt64 := 10000
  maxAttempts : UInt32 := 5
  retryBaseDelayMs : UInt64 := 250
  retryMaxDelayMs : UInt64 := 8000
  deriving DecidableEq, Repr, Inhabited

/-- Where the walk begins when no cursor is cached. Without a hash that is the origin. -/
structure Checkpoint where
  slot : UInt64 := 0
  hash : Option BlockHash := none
  blockNumber : UInt64 := 0
  deriving DecidableEq, Inhabited

/-- The tip of a checkpoint. -/
def Checkpoint.tip (c : Checkpoint) : Tip :=
  match c.hash with
  | some hash => ⟨⟨c.slot, hash⟩, c.blockNumber⟩
  | none => ⟨.origin, c.blockNumber⟩

/-- The walk over the chain. -/
structure WalkerSettings where
  startPoint : Checkpoint := {}
  maxBatchSize : UInt64 := 50
  /-- Blocks kept between the cursor and the best height. -/
  confirmationDepth : UInt64 := 0
  pointTtlSecs : UInt64 := 86400
  startPointTtlSecs : UInt64 := 2592000
  idleDelayMs : UInt64 := 1000
  restartDelayMs : UInt64 := 3000
  watchdogMs : UInt64 := 120000
  deriving DecidableEq, Inhabited

/-- The fetching of blocks. -/
structure FetchSettings where
  /-- The first height handed on when nothing is buffered yet. -/
  initialHeight : UInt64 := 0
  maxBatchSize : UInt64 := 100
  /-- Fetch up to the finalized height instead of the best one. -/
  useFinalized : Bool := false
  waitMs : UInt64 := 1000
  deriving DecidableEq, Repr, Inhabited

/-- The polling of heights. -/
structure PollerSettings where
  bestIntervalMs : UInt64 := 6000
  finalizedIntervalMs : UInt64 := 6000
  /-- Blocks by which the finalized height trails the tip. -/
  finalityDepth : UInt64 := 0
  deriving DecidableEq, Repr, Inhabited

/-- Where metrics are served. -/
structure MetricsSettings where
  enabled : Bool := true
  address : Address := .localhost
  port : UInt16 := 9615
  deriving DecidableEq, Repr, Inhabited

/-- The settings of the feed. -/
structure Config where
  node : NodeSettings := {}
  walker : WalkerSettings := {}
  fetch : FetchSettings := {}
  pollers : PollerSettings := {}
  dataSources : List DataSource := []
  bypassBlocks : List Bypass.Entry := []
  metrics : MetricsSettings := {}
  deriving DecidableEq, Inhabited

/-- Why a configuration cannot be used. -/
inductive ConfigError where
  /-- The file cannot be read; the kind of failure is named. -/
  | unreadable (kind : String)
  /-- The text is not a document of the expected form. -/
  | malformed
  /-- No attempt at a call would be made. -/
  | noAttempts
  /-- A batch could hold nothing. -/
  | emptyBatch
  /-- A data source selects heights by a modulus of zero. -/
  | zeroModulus (startBlock : UInt64)
  /-- An entry of the heights to bypass is bad. -/
  | bypass (error : Bypass.RangeError)
  deriving DecidableEq, Repr

/-- The wording of a configuration error. -/
def ConfigError.message : ConfigError → String
  | .unreadable kind => kind
  | .malformed => "failed to parse config file"
  | .noAttempts => "node.max_attempts must be at least 1"
  | .emptyBatch => "batch sizes must be at least 1"
  | .zeroModulus start =>
    "data source starting at " ++ Numeral.ofNat start.toNat ++ " has a zero block_modulo"
  | .bypass e => "invalid bypass_blocks: " ++ e.message

namespace Config

/-- The conditions on a configuration, in the order in which they are reported. -/
def validate (c : Config) : Except ConfigError Unit :=
  if c.node.maxAttempts = 0 then .error .noAttempts
  else if c.walker.maxBatchSize = 0 || c.fetch.maxBatchSize = 0 then .error .emptyBatch
  else
    match c.dataSources.find? (·.blockModulo = some 0) with
    | some source => .error (.zeroModulus source.startBlock)
    | none =>
      match BypassRanges.ofEntries c.bypassBlocks with
      | .ok _ => .ok ()
      | .error e => .error (.bypass e)

/-- The heights that are never fetched: the configured ones, and those from the initial height on
that no data source wants. -/
def bypassRanges (c : Config) : Except Bypass.RangeError BypassRanges := do
  let configured ← BypassRanges.ofEntries c.bypassBlocks
  let gaps := BypassRanges.ofActivationGaps c.fetch.initialHeight
    (c.dataSources.map DataSource.activation)
  return configured.merge gaps

end Config

namespace NodeSettings

def connectTimeout (s : NodeSettings) : Duration := .ofMillis s.connectTimeoutMs
def handshakeTimeout (s : NodeSettings) : Duration := .ofMillis s.handshakeTimeoutMs
def callTimeout (s : NodeSettings) : Duration := .ofMillis s.callTimeoutMs
def retryBaseDelay (s : NodeSettings) : Duration := .ofMillis s.retryBaseDelayMs
def retryMaxDelay (s : NodeSettings) : Duration := .ofMillis s.retryMaxDelayMs

end NodeSettings

namespace WalkerSettings

def pointTtl (s : WalkerSettings) : Duration := .ofSeconds s.pointTtlSecs
def startPointTtl (s : WalkerSettings) : Duration := .ofSeconds s.startPointTtlSecs
def idleDelay (s : WalkerSettings) : Duration := .ofMillis s.idleDelayMs
def restartDelay (s : WalkerSettings) : Duration := .ofMillis s.restartDelayMs
def watchdog (s : WalkerSettings) : Duration := .ofMillis s.watchdogMs

end WalkerSettings

namespace FetchSettings

def wait (s : FetchSettings) : Duration := .ofMillis s.waitMs

end FetchSettings

namespace PollerSettings

def bestInterval (s : PollerSettings) : Duration := .ofMillis s.bestIntervalMs
def finalizedInterval (s : PollerSettings) : Duration := .ofMillis s.finalizedIntervalMs

end PollerSettings

end BlockFeed
