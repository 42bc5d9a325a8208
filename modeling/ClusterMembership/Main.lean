import ClusterMembership.Command.Daemon

/-!
# The program

The daemon on the files of the system, with the variables of the environment.
-/

namespace ClusterMembership

/-- The error that a report of the system stands for. -/
def FileError.ofReport (report : IO.Error) : FileError :=
  match report with
  | .noFileOrDirectory .. => .missing
  | .permissionDenied .. => .denied
  | .inappropriateType _ 20 _ | .resourceVanished 20 _ => .notDirectory
  | .inappropriateType _ 21 _ => .isDirectory
  | .invalidArgument _ 36 _ => .nameTooLong
  | unknown => .other (toString unknown)

/-- The result of work on a file. -/
def attempt {α : Type} (work : IO α) : IO (Except FileError α) := do
  match ← work.toBaseIO with
  | .ok value => return .ok value
  | .error report => return .error (.ofReport report)

instance : Files IO where
  readText path := do
    match ← attempt (IO.FS.readBinFile path) with
    | .ok bytes =>
      match String.fromUTF8? bytes with
      | some text => return .ok text
      | none => return .error .notText
    | .error cause => return .error cause
  writeText path text := attempt (IO.FS.writeFile path text)
  prepare path := attempt (discard (IO.FS.Handle.mk path .append))

/-- The variables of the environment, which the system keeps in a file. -/
def Variables.ofSystem : IO Variables := do
  let environment : Except FileError String ← Files.readText "/proc/self/environ"
  match environment with
  | .error _ => return []
  | .ok text =>
    return (text.splitOn "\x00").filterMap fun entry =>
      (Text.splitAtFirst? '=' entry.toList).map fun (name, value) =>
        (String.ofList name, String.ofList value)

end ClusterMembership

def main (arguments : List String) : IO UInt32 := do
  let environment ← ClusterMembership.Variables.ofSystem
  let outcome : ClusterMembership.Command.Outcome ←
    ClusterMembership.Command.daemon environment arguments
  IO.print outcome.output
  IO.eprint outcome.errors
  return outcome.status.toUInt32
