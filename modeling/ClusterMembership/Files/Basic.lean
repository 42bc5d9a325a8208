/-!
# Files

Settings are read from files and written to files.  What does so asks a monad for
it, so that the same definitions work on files of the system and on a folder that
is only a value.
-/

namespace ClusterMembership

/-- Why a file cannot be read or written. -/
inductive FileError where
  | missing
  | denied
  /-- A part of the path that is no directory is used as one. -/
  | notDirectory
  | isDirectory
  | nameTooLong
  /-- The path contains a null character. -/
  | nullInPath
  /-- The bytes of the file are no text. -/
  | notText
  | other (text : String)
  deriving DecidableEq, Inhabited, Repr

def FileError.message : FileError → String
  | missing => "No such file or directory (os error 2)"
  | denied => "Permission denied (os error 13)"
  | notDirectory => "Not a directory (os error 20)"
  | isDirectory => "Is a directory (os error 21)"
  | nameTooLong => "File name too long (os error 36)"
  | nullInPath => "file name contained an unexpected NUL byte"
  | notText => "stream did not contain valid UTF-8"
  | other text => text

/-- Where files are read and written. -/
class Files (m : Type → Type) where
  readText (path : String) : m (Except FileError String)
  writeText (path text : String) : m (Except FileError Unit)
  /-- Make sure that a file can be appended to; one that is missing is created. -/
  prepare (path : String) : m (Except FileError Unit)

namespace Files

variable {m : Type → Type} [Monad m] [Files m]

/-- Whether a path leads to a file, be it a text or not. -/
def isFile (path : String) : m Bool := do
  match ← readText path with
  | .ok _ | .error .notText | .error .denied => return true
  | .error _ => return false

end Files

end ClusterMembership
