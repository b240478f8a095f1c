import BlockFeed.Config
import BlockFeed.Yaml.Node
import BlockFeed.Yaml.Scalar

/-!
# Reading the configuration

A configuration is a mapping of sections, each a mapping of settings. A setting or section left out
keeps its default, and a section whose value is left out is all defaults. A setting may occur once;
names that mean nothing are passed over however often they occur.

Values are read from the nodes of a document, in which an alias stands for another node; so a
`Reading` has the document at hand.

`ofText` reads a whole document and checks the conditions that `Config.validate` states. A document
without content is the default configuration.
-/

namespace BlockFeed.Config

open Yaml (Document Node Scalar)

/-- A value read from a document, if it is well formed. -/
abbrev Reading (α : Type) := ReaderT Document Option α

/-- The node that an alias stands for; any other node stands for itself. -/
def resolve : Node → Reading Node
  | .alias number => fun d => d.target? number
  | node => return node

/-- The settings of one section that are known and given, each once. -/
structure Section where
  fields : List (String × Node)

namespace Section

/-- The text of a name, which must be a scalar. -/
def name? (node : Node) : Reading String := do
  match ← resolve node with
  | .scalar s => return s.text
  | _ => failure

/-- The names occur once each. -/
def areDistinct : List (String × Node) → Bool
  | [] => true
  | (name, _) :: rest => !(rest.any (·.1 = name)) && areDistinct rest

/-- Reads a section with the given names of settings. -/
def ofNode? (known : List String) (node : Node) : Reading Section := do
  match ← resolve node with
  | .mapping fields =>
    let named ← fields.mapM fun (key, value) => return (← name? key, value)
    let given := named.filter fun field => known.contains field.1
    if areDistinct given then return ⟨given⟩ else failure
  | node => if node.isOmitted then return ⟨[]⟩ else failure

/-- The value of a setting, or its default. -/
def get {α : Type} (s : Section) (name : String) (default : α) (read : Node → Reading α) :
    Reading α :=
  match s.fields.lookup name with
  | some node => read node
  | none => return default

end Section

/-- A value read from the scalar that a node is. -/
def scalar? {α : Type} (read : Scalar → Option α) (node : Node) : Reading α := do
  match ← resolve node with
  | .scalar s => liftM (read s)
  | _ => failure

/-- A number below a bound. -/
def natBelow? (bound : Nat) : Node → Reading Nat := scalar? (·.toNatBelow? bound)

/-- A 64-bit word. -/
def word? (node : Node) : Reading UInt64 := return .ofNat (← natBelow? UInt64.size node)

/-- A 32-bit word. -/
def word32? (node : Node) : Reading UInt32 := return .ofNat (← natBelow? UInt32.size node)

/-- A 16-bit word. -/
def word16? (node : Node) : Reading UInt16 := return .ofNat (← natBelow? UInt16.size node)

/-- A truth value. -/
def bool? : Node → Reading Bool := scalar? (·.toBool?)

/-- The text of any scalar. -/
def text? : Node → Reading String := scalar? fun s => some s.text

/-- A value that may be nothing. -/
def optional? {α : Type} (read : Node → Reading α) (node : Node) : Reading (Option α) := do
  match ← resolve node with
  | .scalar s => if ← liftM s.isNothing? then return none else return some (← read node)
  | node => return some (← read node)

/-- A sequence, empty when its value is left out. -/
def list? {α : Type} (read : Node → Reading α) (node : Node) : Reading (List α) := do
  match ← resolve node with
  | .sequence items => items.mapM read
  | node => if node.isOmitted then return [] else failure

/-- A block hash. -/
def hash? (node : Node) : Reading BlockHash := do
  liftM (BlockHash.ofText (← text? node)).toOption

/-- A network address. -/
def address? (node : Node) : Reading Address := do
  liftM (Address.ofText? (← text? node))

/-- An entry of the heights to bypass: a whole number is a height, a text is that of a range, and
nothing else is an entry. -/
def entryOfScalar? (s : Scalar) : Option Bypass.Entry := do
  match ← s.value? with
  | .int i => return .height (.ofNat (← i.toNat?.filter (· < UInt64.size)))
  | .text t => return .text t
  | _ => none

/-- An entry of the heights to bypass. -/
def bypassEntry? : Node → Reading Bypass.Entry := scalar? entryOfScalar?

/-- The node and how it is called. -/
def nodeSettings? (node : Node) : Reading NodeSettings := do
  let s ← Section.ofNode? ["endpoint", "network_magic", "connect_timeout_ms",
    "handshake_timeout_ms", "call_timeout_ms", "max_attempts", "retry_base_delay_ms",
    "retry_max_delay_ms"] node
  let d : NodeSettings := {}
  return {
    endpoint := ← s.get "endpoint" d.endpoint text?
    networkMagic := ← s.get "network_magic" d.networkMagic word?
    connectTimeoutMs := ← s.get "connect_timeout_ms" d.connectTimeoutMs word?
    handshakeTimeoutMs := ← s.get "handshake_timeout_ms" d.handshakeTimeoutMs word?
    callTimeoutMs := ← s.get "call_timeout_ms" d.callTimeoutMs word?
    maxAttempts := ← s.get "max_attempts" d.maxAttempts word32?
    retryBaseDelayMs := ← s.get "retry_base_delay_ms" d.retryBaseDelayMs word?
    retryMaxDelayMs := ← s.get "retry_max_delay_ms" d.retryMaxDelayMs word? }

/-- Where the walk begins. -/
def checkpoint? (node : Node) : Reading Checkpoint := do
  let s ← Section.ofNode? ["slot", "hash", "block_number"] node
  return {
    slot := ← s.get "slot" 0 word?
    hash := ← s.get "hash" none (optional? hash?)
    blockNumber := ← s.get "block_number" 0 word? }

/-- The walk over the chain. -/
def walkerSettings? (node : Node) : Reading WalkerSettings := do
  let s ← Section.ofNode? ["start_point", "max_batch_size", "confirmation_depth", "point_ttl_secs",
    "start_point_ttl_secs", "idle_delay_ms", "restart_delay_ms", "watchdog_ms"] node
  let d : WalkerSettings := {}
  return {
    startPoint := ← s.get "start_point" d.startPoint checkpoint?
    maxBatchSize := ← s.get "max_batch_size" d.maxBatchSize word?
    confirmationDepth := ← s.get "confirmation_depth" d.confirmationDepth word?
    pointTtlSecs := ← s.get "point_ttl_secs" d.pointTtlSecs word?
    startPointTtlSecs := ← s.get "start_point_ttl_secs" d.startPointTtlSecs word?
    idleDelayMs := ← s.get "idle_delay_ms" d.idleDelayMs word?
    restartDelayMs := ← s.get "restart_delay_ms" d.restartDelayMs word?
    watchdogMs := ← s.get "watchdog_ms" d.watchdogMs word? }

/-- The fetching of blocks. -/
def fetchSettings? (node : Node) : Reading FetchSettings := do
  let s ← Section.ofNode? ["initial_height", "max_batch_size", "use_finalized", "wait_ms"] node
  let d : FetchSettings := {}
  return {
    initialHeight := ← s.get "initial_height" d.initialHeight word?
    maxBatchSize := ← s.get "max_batch_size" d.maxBatchSize word?
    useFinalized := ← s.get "use_finalized" d.useFinalized bool?
    waitMs := ← s.get "wait_ms" d.waitMs word? }

/-- The polling of heights. -/
def pollerSettings? (node : Node) : Reading PollerSettings := do
  let s ← Section.ofNode? ["best_interval_ms", "finalized_interval_ms", "finality_depth"] node
  let d : PollerSettings := {}
  return {
    bestIntervalMs := ← s.get "best_interval_ms" d.bestIntervalMs word?
    finalizedIntervalMs := ← s.get "finalized_interval_ms" d.finalizedIntervalMs word?
    finalityDepth := ← s.get "finality_depth" d.finalityDepth word? }

/-- One consumer of blocks. -/
def dataSource? (node : Node) : Reading DataSource := do
  let s ← Section.ofNode? ["start_block", "end_block", "block_modulo"] node
  return {
    startBlock := ← s.get "start_block" 0 word?
    endBlock := ← s.get "end_block" none (optional? word?)
    blockModulo := ← s.get "block_modulo" none (optional? word?) }

/-- Where metrics are served. -/
def metricsSettings? (node : Node) : Reading MetricsSettings := do
  let s ← Section.ofNode? ["enabled", "address", "port"] node
  let d : MetricsSettings := {}
  return {
    enabled := ← s.get "enabled" d.enabled bool?
    address := ← s.get "address" d.address address?
    port := ← s.get "port" d.port word16? }

/-- All settings. -/
def ofNode? (node : Node) : Reading Config := do
  let s ← Section.ofNode? ["node", "walker", "fetch", "pollers", "data_sources", "bypass_blocks",
    "metrics"] node
  return {
    node := ← s.get "node" {} nodeSettings?
    walker := ← s.get "walker" {} walkerSettings?
    fetch := ← s.get "fetch" {} fetchSettings?
    pollers := ← s.get "pollers" {} pollerSettings?
    dataSources := ← s.get "data_sources" [] (list? dataSource?)
    bypassBlocks := ← s.get "bypass_blocks" [] (list? bypassEntry?)
    metrics := ← s.get "metrics" {} metricsSettings? }

/-- Reads a configuration; its conditions are not checked yet. -/
def ofDocument? (text : String) : Option Config := do
  let document ← Document.ofText? text
  (ofNode? document.root).run document

/-- Reads a configuration that meets its conditions. -/
def ofText (text : String) : Except ConfigError Config :=
  match ofDocument? text with
  | none => .error .malformed
  | some config =>
    match config.validate with
    | .ok _ => .ok config
    | .error e => .error e

end BlockFeed.Config
