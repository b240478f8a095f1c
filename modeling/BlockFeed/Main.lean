import BlockFeed.Live.MetricsServer
import Std.Async.Signal

/-!
# The program

Reads the command line, starts the feed and runs it until the program is interrupted.
-/

namespace BlockFeed

/-- The kind of a failure to read a file. -/
def unreadableKind : IO.Error → String
  | .noFileOrDirectory .. => "NotFound"
  | .permissionDenied .. => "PermissionDenied"
  | .inappropriateType .. => "IsADirectory"
  | _ => "Other"

/-- The text of the configuration file. -/
def configText (path : String) : IO (Except ConfigError String) := do
  try
    match String.fromUTF8? (← IO.FS.readBinFile path) with
    | some text => return .ok text
    | none => return .error (.unreadable "InvalidData")
  catch e => return .error (.unreadable (unreadableKind e))

/-- What becomes of a command line, with the configuration file it names. -/
def launch (arguments : List String) : IO Launch := do
  match CommandLine.parse arguments with
  | .ok (.start { config := some path, .. }) =>
    let text ← configText path
    return .ofArguments (fun _ => text) arguments
  | _ => return .ofArguments (fun _ => .error (.unreadable "NotFound")) arguments

/-- How the program is used. -/
def usage : String :=
  "Streams blocks from a node in strict height order\n\n"
    ++ "Usage: blockfeed [OPTIONS]\n\nOptions:\n"
    ++ "  -c, --config <CONFIG>                YAML configuration file\n"
    ++ "  -e, --endpoint <ENDPOINT>            Node-to-node endpoint (`host:port`)\n"
    ++ "      --network-magic <NETWORK_MAGIC>  \n"
    ++ "      --start-height <START_HEIGHT>    First height handed downstream when nothing is "
    ++ "buffered yet\n"
    ++ "      --metrics-port <METRICS_PORT>    \n"
    ++ "  -h, --help                           Print help"

/-- The line that is shown when the feed starts. -/
def startLine (c : Config) : String :=
  "starting chain feed endpoint=" ++ c.node.endpoint ++ " network_magic="
    ++ Numeral.ofNat c.node.networkMagic.toNat ++ " initial_height="
    ++ Numeral.ofNat c.fetch.initialHeight.toNat

/-- Runs the feed until the program is interrupted. -/
def runFeed (config : Config) (feed : Feed) : IO Unit := do
  IO.println (startLine config)
  let host ← Live.Host.start feed
  let walker := Walker.new feed.walker
  let parts := [host.servePoller feed.best, host.servePoller feed.finalized,
    host.serve (Service.walker feed.walker) none walker 0,
    host.serve (Service.fetcher feed.fetch) none feed.bypass 0, host.consume]
  let parts := if config.metrics.enabled then host.serveMetrics config.metrics :: parts else parts
  let interrupt ← (← Std.Async.Signal.Waiter.mk .sigint false).wait
  let tasks ← parts.mapM fun part => IO.asTask part .dedicated
  discard interrupt.block
  IO.println "shutting down"
  host.stopping.cancel
  for task in tasks do
    if let .error e := task.get then IO.eprintln ("task failed: " ++ toString e)
  IO.println "chain feed stopped"

end BlockFeed

def main (arguments : List String) : IO UInt32 := do
  let launch ← BlockFeed.launch arguments
  match launch with
  | .help => IO.println BlockFeed.usage
  | .misused e => IO.eprintln ("error: " ++ e.name)
  | .unconfigured e => IO.eprintln ("Error: " ++ e.message)
  | .started config feed => BlockFeed.runFeed config feed
  return launch.exitStatus.toUInt32
