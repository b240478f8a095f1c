import BlockFeed.Config.Reader

/-!
# The command line

The program takes a configuration file and four settings that override it. An option is given once,
as `--name value` or `--name=value`; the two with a letter also as `-x value`, `-xvalue` or
`-x=value`.

`parse` turns arguments into an `Action` or into the reason why they are refused, and `configure`
applies the overrides to the configuration read from the file.
-/

namespace BlockFeed.CommandLine

/-- The options. -/
inductive Opt where
  | config
  | endpoint
  | networkMagic
  | startHeight
  | metricsPort
  deriving DecidableEq, Repr

/-- The name of an option after its two hyphens. -/
def Opt.name : Opt → String
  | .config => "config"
  | .endpoint => "endpoint"
  | .networkMagic => "network-magic"
  | .startHeight => "start-height"
  | .metricsPort => "metrics-port"

/-- All options. -/
def Opt.all : List Opt := [.config, .endpoint, .networkMagic, .startHeight, .metricsPort]

/-- The option with a name. -/
def Opt.ofName? (name : String) : Option Opt := Opt.all.find? (·.name = name)

/-- The option with a letter. -/
def Opt.ofLetter? : Char → Option Opt
  | 'c' => some .config
  | 'e' => some .endpoint
  | _ => none

/-- What was given on the command line. -/
structure Arguments where
  config : Option String := none
  endpoint : Option String := none
  networkMagic : Option UInt64 := none
  startHeight : Option UInt64 := none
  metricsPort : Option UInt16 := none
  deriving DecidableEq, Repr, Inhabited

/-- The option has been given. -/
def Arguments.has (a : Arguments) : Opt → Bool
  | .config => a.config.isSome
  | .endpoint => a.endpoint.isSome
  | .networkMagic => a.networkMagic.isSome
  | .startHeight => a.startHeight.isSome
  | .metricsPort => a.metricsPort.isSome

/-- Why a command line is refused. -/
inductive UsageError where
  /-- An argument is no known option. -/
  | unknownArgument
  /-- The value of an option does not have the form it must have. -/
  | valueValidation
  /-- The value of an option is missing. -/
  | invalidValue
  /-- An option is given twice. -/
  | argumentConflict
  /-- A value is joined to an option that takes none. -/
  | tooManyValues
  deriving DecidableEq, Repr

/-- The name of a usage error. -/
def UsageError.name : UsageError → String
  | .unknownArgument => "UnknownArgument"
  | .valueValidation => "ValueValidation"
  | .invalidValue => "InvalidValue"
  | .argumentConflict => "ArgumentConflict"
  | .tooManyValues => "TooManyValues"

/-- What the command line asks for. -/
inductive Action where
  | showHelp
  | start (arguments : Arguments)
  deriving DecidableEq, Repr

/-- A value that must have been read. -/
def valid {α : Type} : Option α → Except UsageError α
  | some a => .ok a
  | none => .error .valueValidation

/-- The number of a port. It may have a sign, and a minus sign only if it is zero. -/
def port? : List Char → Option UInt16
  | '-' :: digits => if Numeral.natural? digits = some 0 then some 0 else none
  | cs => Numeral.word16? cs

/-- Stores the value of an option that is given for the first time. -/
def Arguments.set (a : Arguments) (option : Opt) (value : String) : Except UsageError Arguments :=
  if a.has option then .error .argumentConflict
  else
    match option with
    | .config => if value.isEmpty then .error .invalidValue else .ok { a with config := some value }
    | .endpoint => .ok { a with endpoint := some value }
    | .networkMagic => return { a with networkMagic := some (← valid (Numeral.word? value.toList)) }
    | .startHeight => return { a with startHeight := some (← valid (Numeral.word? value.toList)) }
    | .metricsPort => return { a with metricsPort := some (← valid (port? value.toList)) }

/-- The arguments read so far. The last option is kept apart until what follows it has been seen,
because an unknown argument is reported before a bad value. -/
structure Progress where
  arguments : Arguments := {}
  /-- The last option, with its value once that has come. -/
  last : Option (Opt × Option String) := none
  deriving Inhabited

namespace Progress

/-- Stores the last option. -/
def settle (p : Progress) : Except UsageError Progress :=
  match p.last with
  | none => .ok p
  | some (_, none) => .error .invalidValue
  | some (option, some value) => return ⟨← p.arguments.set option value, none⟩

/-- An option with the value that is joined to it, if any. -/
def option (p : Progress) (o : Opt) (joined : Option String) : Except UsageError Progress := do
  let p ← p.settle
  match joined with
  | some value => return { p with arguments := ← p.arguments.set o value }
  | none => return { p with last := some (o, none) }

/-- An argument that is no option: the value of the option before it. -/
def value (p : Progress) (text : String) : Except UsageError Progress :=
  match p.last with
  | some (option, none) => .ok { p with last := some (option, some text) }
  | _ => .error .unknownArgument

end Progress

/-- The parts of an argument before and after its first equals sign. -/
def splitAtEquals (cs : List Char) : String × Option String :=
  match cs.dropWhile (· ≠ '=') with
  | _ :: value => (String.ofList (cs.takeWhile (· ≠ '=')), some (String.ofList value))
  | [] => (String.ofList cs, none)

/-- The value joined to the letter of an option; an equals sign between them is dropped. -/
def joinedToLetter : List Char → Option String
  | [] => none
  | '=' :: value => some (String.ofList value)
  | value => some (String.ofList value)

/-- Reads the arguments from left to right. After the argument `--` only values could follow, and
the program takes none. -/
def read (p : Progress) : List String → Except UsageError Action
  | [] => do return .start (← p.settle).arguments
  | argument :: rest =>
    match argument.toList with
    | ['-', '-'] => if rest.isEmpty then do return .start (← p.settle).arguments
        else .error .unknownArgument
    | '-' :: '-' :: name =>
      match splitAtEquals name with
      | ("help", none) => do
        let _ ← p.settle
        return .showHelp
      | ("help", some _) => .error .tooManyValues
      | (name, joined) =>
        match Opt.ofName? name with
        | some o => do read (← p.option o joined) rest
        | none => .error .unknownArgument
    | '-' :: 'h' :: _ => do
      let _ ← p.settle
      return .showHelp
    | '-' :: letter :: joined =>
      match Opt.ofLetter? letter with
      | some o => do read (← p.option o (joinedToLetter joined)) rest
      | none => .error .unknownArgument
    | _ => do read (← p.value argument) rest

/-- Reads a command line. -/
def parse (arguments : List String) : Except UsageError Action := read {} arguments

/-- Applies what was given on the command line to a configuration. -/
def Arguments.override (a : Arguments) (c : Config) : Config :=
  { c with
    node := { c.node with
      endpoint := a.endpoint.getD c.node.endpoint
      networkMagic := a.networkMagic.getD c.node.networkMagic }
    fetch := { c.fetch with initialHeight := a.startHeight.getD c.fetch.initialHeight }
    metrics := { c.metrics with port := a.metricsPort.getD c.metrics.port } }

/-- The configuration to start with, given how the text of a file is obtained. -/
def Arguments.configure (a : Arguments) (fileText : String → Except ConfigError String) :
    Except ConfigError Config := do
  let base ← match a.config with
    | some path => Config.ofText (← fileText path)
    | none => pure {}
  let config := a.override base
  config.validate
  return config

end BlockFeed.CommandLine
