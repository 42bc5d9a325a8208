import ClusterMembership.Error
import ClusterMembership.Files.Basic
import ClusterMembership.Layers.Variables
import ClusterMembership.Layers.Yaml

/-!
# Loading settings

Settings are loaded in layers: the defaults, a settings file, and the variables of
the environment on top.  The file is given, or a variable names it; only a file that
is given has to exist.  The ending of a file that is named may be left out.
-/

namespace ClusterMembership

/-- The variable that names the settings file. -/
def Variables.file? (environment : Variables) : Option String :=
  environment.lookup "SWIM_CONFIG"

namespace Settings

/-- The endings of settings files. -/
def fileEndings : List String := [".yaml", ".yml"]

/-- Whether a path has an ending of settings files behind a name. -/
def hasFileEnding (path : String) : Bool :=
  let name := (path.splitOn "/").getLastD ""
  fileEndings.any fun ending => name.endsWith ending && name ≠ ending

section

variable {m : Type → Type} [Monad m] [Files m]

/-- The first of some paths that leads to a file. -/
def firstFile? : List String → m (Option String)
  | [] => return none
  | path :: rest => do
    if ← Files.isFile path then return some path else firstFile? rest

/-- The path without the slashes at its end. -/
def withoutSlashes (path : String) : String :=
  (path.dropEndWhile (· = '/')).toString

/-- The settings file a path leads to, as it stands or without its ending. -/
def findFile (path : String) : m (Except SettingsError String) := do
  let quoted := "configuration file \"" ++ path ++ "\""
  if ← Files.isFile path then
    if hasFileEnding path then
      return .ok path
    return .error (.layers (quoted ++ " is not of a registered file format"))
  match ← firstFile? (fileEndings.map (withoutSlashes path ++ ·)) with
  | some path => return .ok path
  | none => return .error (.layers (quoted ++ " not found"))

/-- The text of the settings file a path leads to. -/
def findText (path : String) : m (Except SettingsError String) := do
  match ← findFile path with
  | .error cause => return .error cause
  | .ok path => return (← Files.readText path).mapError fun cause => .layers cause.message

/-- The layer of a settings file; a file that cannot be read is empty unless it is needed. -/
def fileLayer (isNeeded : Bool) (path : String) : m (Except SettingsError Layer) := do
  match ← findText path with
  | .error cause => return if isNeeded then .error cause else .ok []
  | .ok text =>
    match Layer.ofYaml? text with
    | some layer => return .ok layer
    | none => return .error (.layers ("no settings in " ++ path))

/-- The settings that a file and variables give together. -/
def ofLayers (file : Layer) (environment : Variables) : Except SettingsError Settings :=
  let defaults := LayerValue.ofDocument ({} : Settings).document
  let merged := (defaults.overlay file).overlay environment.layer
  match LayerValue.form.read? merged with
  | some settings => .ok settings
  | none => .error (.layers "the settings do not have the kinds of values they need")

/-- Load settings from a file, if one is given or named, and from variables. -/
def load (path : Option String) (environment : Variables) : m (Except SettingsError Settings) := do
  let file ←
    match path, environment.file? with
    | some path, _ => fileLayer true path
    | none, some path => fileLayer false path
    | none, none => pure (.ok [])
  return file.bind fun file => ofLayers file environment

end

end Settings

end ClusterMembership
