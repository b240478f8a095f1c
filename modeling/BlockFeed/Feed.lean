import BlockFeed.CommandLine
import BlockFeed.Node.Client
import BlockFeed.Service

/-!
# The feed

What the program does with its command line: it shows its options, refuses, or starts the feed. The
feed is made of two pollers, which observe how far the chain has grown, the walker, which finds out
the points of its blocks, and the fetcher, which hands the blocks on to the consumer.
-/

namespace BlockFeed

/-- The parts of the feed. -/
structure Feed where
  node : NodeSettings
  best : Poller
  finalized : Poller
  walker : WalkerSettings
  fetch : Fetcher.Plan
  /-- Heights that are never fetched. -/
  bypass : BypassRanges

namespace Feed

/-- Blocks that may wait for the consumer before the fetcher holds back. -/
def queueCapacity : Nat := 500

/-- The feed that a configuration describes. -/
def ofConfig (c : Config) : Except Bypass.RangeError Feed := do
  return {
    node := c.node
    best := .best c.pollers.bestInterval
    finalized := .finalized c.pollers.finalizedInterval c.pollers.finalityDepth
    walker := c.walker
    fetch := { settings := c.fetch, hinting := none }
    bypass := ← c.bypassRanges }

end Feed

/-- What becomes of a start of the program. -/
inductive Launch where
  /-- The options are shown. -/
  | help
  /-- The arguments are refused. -/
  | misused (error : CommandLine.UsageError)
  /-- There is no configuration to start with. -/
  | unconfigured (error : ConfigError)
  | started (config : Config) (feed : Feed)

namespace Launch

/-- The start with a configuration. -/
def ofConfig (config : Config) : Launch :=
  match Feed.ofConfig config with
  | .ok feed => .started config feed
  | .error e => .unconfigured (.bypass e)

/-- The start with a command line, given how the text of a file is obtained. -/
def ofArguments (fileText : String → Except ConfigError String) (arguments : List String) :
    Launch :=
  match CommandLine.parse arguments with
  | .error e => .misused e
  | .ok .showHelp => .help
  | .ok (.start given) =>
    match given.configure fileText with
    | .error e => .unconfigured e
    | .ok config => ofConfig config

/-- The exit status; a feed that has been started ends well once it is told to stop. -/
def exitStatus : Launch → UInt8
  | .help | .started _ _ => 0
  | .misused _ => 2
  | .unconfigured _ => 1

end Launch

end BlockFeed
