import ClusterMembership.Command.Arguments
import ClusterMembership.Layers.Variables
import ClusterMembership.Settings.Overrides

/-!
# The command line of the daemon

The daemon starts a node, writes a settings file with all defaults, or checks a
settings file.  Without a command it starts a node.
-/

namespace ClusterMembership

namespace Command

/-- What the daemon is to do. -/
inductive Task where
  | start (overrides : Overrides)
  /-- Write the default settings, to a file or for the reader. -/
  | generate (output : Option String)
  | check (path : String)
  deriving DecidableEq, Repr

/-- A task, and what is said about settings in front of it. -/
structure Line where
  settingsFile : Option String := none
  logLevel : Option String := none
  logFormat : Option String := none
  task : Task := .start {}
  deriving DecidableEq, Repr

namespace Form

def start : Form where
  words := ["swimd", "start"]
  about := "Join the cluster and run until interrupted"
  options :=
    [ { long := "name", value := "NAME", about := "Local member name (host:port)" },
      { long := "peer", value := "HOST:PORT", mayRepeat := true
        about := "Seed member, may be repeated" },
      { long := "metadata", value := "KEY=VALUE", mayRepeat := true
        about := "Metadata pair advertised for this member, may be repeated" },
      { long := "secret", value := "SECRET", about := "Shared cluster secret"
        source := some "SWIM_NODE__SECRET" } ]

def generate : Form where
  words := ["swimd", "config"]
  about := "Generate default configuration"
  options :=
    [ { long := "output", short := 'o', value := "OUTPUT", isPath := true
        about := "Output file path" } ]

def check : Form where
  words := ["swimd", "validate"]
  about := "Validate configuration"
  options :=
    [ { long := "config", short := 'c', value := "CONFIG", isPath := true, isNeeded := true
        about := "Configuration file to validate" } ]

/-- What the command for help does. -/
def helpAbout : String := "Print this message or the help of the given subcommand(s)"

/-- The help text of the command for help, which has arguments instead of options. -/
def helpOnHelp : String :=
  helpAbout ++ "\n\nUsage: swimd help [COMMAND]...\n\nArguments:\n" ++
    columns [("[COMMAND]...", "Print help for the subcommand(s)")]

def daemon : Form where
  words := ["swimd"]
  about := "SWIM cluster membership daemon for swimmesh"
  options :=
    [ { long := "config", short := 'c', value := "FILE", isPath := true
        about := "Configuration file path" },
      { long := "log-level", value := "LEVEL", about := "Log level" },
      { long := "log-format", value := "FORMAT", about := "Log format (text, json)" } ]
  commands :=
    [ ("start", start.about), ("config", generate.about), ("validate", check.about),
      ("help", helpAbout) ]
  version := some "0.1.0"

/-- The help text for the command that some words lead to. -/
def helpFor : List String → Stop
  | [] => .help daemon.help
  | ["start"] => .help start.help
  | ["config"] => .help generate.help
  | ["validate"] => .help check.help
  | ["help"] => .help helpOnHelp
  | first :: rest =>
    let isKnown := (daemon.commands.lookup first).isSome
    .misuse daemon (.unknownCommand (if isKnown then rest.headD first else first))

end Form

/-- Read the task that a command with its arguments stands for. -/
def readTask (environment : Variables) (command : String) (arguments : List String) :
    Except Stop Task :=
  match command with
  | "start" => do
    let given ← Form.start.readAll arguments
    return .start {
      name := given.value? "name"
      peers := given.every "peer"
      metadata := given.every "metadata"
      secret := (given.value? "secret").or (environment.lookup "SWIM_NODE__SECRET") }
  | "config" => do
    let given ← Form.generate.readAll arguments
    return .generate (given.value? "output")
  | "validate" => do
    let given ← Form.check.readAll arguments
    return .check ((given.value? "config").getD "")
  | _ => .error (Form.helpFor arguments)

/-- Read a command line. -/
def Line.read (environment : Variables) (arguments : List String) : Except Stop Line := do
  let (given, command) ← Form.daemon.read {} arguments
  let task ←
    match command with
    | some (command, rest) => readTask environment command rest
    | none => pure (.start {})
  let given ← given.settled Form.daemon
  return {
    settingsFile := given.value? "config"
    logLevel := given.value? "log-level"
    logFormat := given.value? "log-format"
    task }

end Command

end ClusterMembership
