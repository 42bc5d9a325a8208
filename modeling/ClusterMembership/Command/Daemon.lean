import ClusterMembership.Command.Line
import ClusterMembership.Command.Outcome
import ClusterMembership.Settings.File
import ClusterMembership.Settings.Load
import ClusterMembership.Simulation.Node

/-!
# The daemon

The tasks of the daemon, on any files.  Only a start can go on for longer: it has
failed when the settings cannot be used, when the log file cannot be written, or when
the address of the node cannot be bound.
-/

namespace ClusterMembership

namespace Command

variable {m : Type → Type} [Monad m] [Files m]

/-- Write the default settings. -/
def generate : Option String → m Outcome
  | none => return { output := ({} : Settings).toYaml ++ "\n" }
  | some path => do
    match ← ({} : Settings).toFile path with
    | .ok () => return { output := "Generated configuration file: " ++ path ++ "\n" }
    | .error cause => return .ofFailure (.ofSettings cause)

/-- What the check of a settings file tells about settings that can be used. -/
def summaryLines (settings : Settings) : List String :=
  [ "Configuration is valid", "Member name: " ++ settings.node.name.text,
    "Bind address: " ++ settings.node.bindAddress, "Seed peers:" ] ++
  settings.node.peers.map (fun peer => "  - " ++ peer.text) ++
  [ s!"Probe interval: {settings.protocol.pingInterval}ms, " ++
    s!"suspect timeout: {settings.protocol.suspectTimeout}ms" ]

/-- Check a settings file. -/
def check (path : String) : m Outcome := do
  let checked := (← Settings.ofFile path).bind fun settings =>
    settings.check.map fun () => settings
  let outcome : Outcome :=
    match checked with
    | .ok settings => (summaryLines settings).foldr Outcome.withLine {}
    | .error cause => .ofFailure (.ofSettings cause)
  return outcome.withLine ("Validating configuration: " ++ path)

/-- The settings with what the command line says about logging. -/
def Line.applyLogging (line : Line) (settings : Settings) : Settings :=
  let logging := settings.logging
  { settings with
    logging := { logging with
      level := line.logLevel.getD logging.level
      format := line.logFormat.getD logging.format } }

/-- The settings a node starts with, unless they cannot be used. -/
def startSettings (line : Line) (overrides : Overrides) (loaded : Except SettingsError Settings) :
    Except Failure Settings := do
  let settings ← loaded.mapError fun cause =>
    (Failure.ofSettings cause).during "Failed to load configuration"
  let (applied, settings) := overrides.apply (line.applyLogging settings)
  applied.mapError Failure.ofAgent
  settings.check.mapError fun cause => (Failure.ofSettings cause).during "Invalid configuration"
  return settings

/-- Prepare the log file, if there is one. -/
def prepareLog (settings : Settings) : m (Except Failure Unit) := do
  match settings.logging.file with
  | none => return .ok ()
  | some path =>
    return (← Files.prepare path).mapError fun cause => .ofAgent (.io cause.message)

/-- Start a node, which succeeds once the node has left again. -/
def start (environment : Variables) (line : Line) (overrides : Overrides) : m Outcome := do
  match startSettings line overrides (← Settings.load line.settingsFile environment) with
  | .error failure => return .ofFailure failure
  | .ok settings =>
    match ← prepareLog settings with
    | .error failure => return .ofFailure failure
    | .ok () =>
      match Simulation.World.joinBySocket settings {} with
      | .error cause => return .ofFailure (.ofAgent (.gossip cause))
      | .ok _ => return {}

/-- What the daemon does with its arguments and the variables of its environment. -/
def daemon (environment : Variables) (arguments : List String) : m Outcome :=
  match Line.read environment arguments with
  | .error stop => return .ofStop stop
  | .ok line =>
    match line.task with
    | .start overrides => start environment line overrides
    | .generate output => generate output
    | .check path => check path

end Command

end ClusterMembership
