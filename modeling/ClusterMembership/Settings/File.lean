import ClusterMembership.Error
import ClusterMembership.Files.Basic
import ClusterMembership.Settings.Document
import ClusterMembership.Settings.Yaml
import ClusterMembership.Yaml.Writing

/-!
# Settings files

A settings file is read as it stands, without any other layer of settings, and
written with every field.
-/

namespace ClusterMembership

/-- The text of a settings file. -/
def Settings.toYaml (settings : Settings) : String :=
  Yaml.written settings.document

namespace Settings

variable {m : Type → Type} [Monad m] [Files m]

/-- Read a settings file. -/
def ofFile (path : String) : m (Except SettingsError Settings) := do
  match ← Files.readText path with
  | .error cause =>
    return .error (.invalid ("Failed to read config file " ++ path ++ ": " ++ cause.message))
  | .ok text =>
    match ofYaml? text with
    | some settings => return .ok settings
    | none => return .error (.yaml ("no settings in " ++ path))

/-- Write a settings file. -/
def toFile (settings : Settings) (path : String) : m (Except SettingsError Unit) := do
  match ← Files.writeText path settings.toYaml with
  | .ok () => return .ok ()
  | .error cause => return .error (.io cause.message)

end Settings

end ClusterMembership
