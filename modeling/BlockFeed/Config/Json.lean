import BlockFeed.Config.Reader
import BlockFeed.Json.Basic

/-!
# Configurations as JSON

JSON is a part of YAML, so a configuration can be written as a JSON text that reads back as itself.
Every setting is written, also one that has its default, and a setting that is not given is null.

`Config.ofJson?` reads a part of a configuration from JSON.
-/

namespace BlockFeed

/-- The node and how it is called. -/
def NodeSettings.toJson (s : NodeSettings) : Json := .object [
  ("endpoint", .string s.endpoint), ("network_magic", .ofWord s.networkMagic),
  ("connect_timeout_ms", .ofWord s.connectTimeoutMs),
  ("handshake_timeout_ms", .ofWord s.handshakeTimeoutMs),
  ("call_timeout_ms", .ofWord s.callTimeoutMs), ("max_attempts", .ofNat s.maxAttempts.toNat),
  ("retry_base_delay_ms", .ofWord s.retryBaseDelayMs),
  ("retry_max_delay_ms", .ofWord s.retryMaxDelayMs)]

/-- Where the walk begins. -/
def Checkpoint.toJson (c : Checkpoint) : Json := .object [
  ("slot", .ofWord c.slot), ("hash", .ofOption (fun h => .string h.toText) c.hash),
  ("block_number", .ofWord c.blockNumber)]

/-- The walk over the chain. -/
def WalkerSettings.toJson (s : WalkerSettings) : Json := .object [
  ("start_point", s.startPoint.toJson), ("max_batch_size", .ofWord s.maxBatchSize),
  ("confirmation_depth", .ofWord s.confirmationDepth), ("point_ttl_secs", .ofWord s.pointTtlSecs),
  ("start_point_ttl_secs", .ofWord s.startPointTtlSecs), ("idle_delay_ms", .ofWord s.idleDelayMs),
  ("restart_delay_ms", .ofWord s.restartDelayMs), ("watchdog_ms", .ofWord s.watchdogMs)]

/-- The fetching of blocks. -/
def FetchSettings.toJson (s : FetchSettings) : Json := .object [
  ("initial_height", .ofWord s.initialHeight), ("max_batch_size", .ofWord s.maxBatchSize),
  ("use_finalized", .bool s.useFinalized), ("wait_ms", .ofWord s.waitMs)]

/-- The polling of heights. -/
def PollerSettings.toJson (s : PollerSettings) : Json := .object [
  ("best_interval_ms", .ofWord s.bestIntervalMs),
  ("finalized_interval_ms", .ofWord s.finalizedIntervalMs),
  ("finality_depth", .ofWord s.finalityDepth)]

/-- One consumer of blocks. -/
def DataSource.toJson (s : DataSource) : Json := .object [
  ("start_block", .ofWord s.startBlock), ("end_block", .ofOption .ofWord s.endBlock),
  ("block_modulo", .ofOption .ofWord s.blockModulo)]

/-- An entry of the heights to bypass. -/
def Bypass.Entry.toJson : Bypass.Entry → Json
  | .height h => .ofWord h
  | .text t => .string t

/-- Where metrics are served. -/
def MetricsSettings.toJson (s : MetricsSettings) : Json := .object [
  ("enabled", .bool s.enabled), ("address", .string s.address.toText),
  ("port", .ofNat s.port.toNat)]

/-- All settings. -/
def Config.toJson (c : Config) : Json := .object [
  ("node", c.node.toJson), ("walker", c.walker.toJson), ("fetch", c.fetch.toJson),
  ("pollers", c.pollers.toJson), ("data_sources", .array (c.dataSources.map DataSource.toJson)),
  ("bypass_blocks", .array (c.bypassBlocks.map Bypass.Entry.toJson)),
  ("metrics", c.metrics.toJson)]

/-- A part of a configuration written in JSON; null leaves all of its settings out. -/
def Config.ofJson? {α : Type} (read : Yaml.Node → Config.Reading α) (j : Json) : Option α := do
  let text := match j with
    | .null => ""
    | j => j.render
  let document ← Yaml.Document.ofText? text
  (read document.root).run document

end BlockFeed
