import ClusterMembership.Files.Basic

/-!
# Folders

A folder is a tree of files as a value.  A place is the list of names that leads to
it from the root; a path is a text that leads to a place from the working directory
or, when it begins with a slash, from the root.
-/

namespace ClusterMembership

abbrev Place := List String

/-- Files and directories, of which the directories that lead to a file need not be listed. -/
structure Folder where
  files : List (Place × String) := []
  directories : List Place := []
  /-- The working directory. -/
  home : Place := []
  deriving Inhabited, Repr

namespace Folder

/-- The directories and the empty file that every system has. -/
def system : Folder where
  files := [(["dev", "null"], "")]
  directories := [["tmp"], ["etc"], ["usr"], ["var"], ["home"], ["root"], ["proc"]]

/-- The parts of a path. -/
def parts (path : String) : List String :=
  path.splitOn "/"

/-- A working directory with some files in it. -/
def ofList (files : List (String × String)) : Folder :=
  let home : Place := ["tmp", "work"]
  { system with
    files := files.map (fun (path, text) => (home ++ parts path, text)) ++ system.files
    directories := home :: system.directories
    home }

def text? (folder : Folder) (place : Place) : Option String :=
  folder.files.lookup place

def isDirectory (folder : Folder) (place : Place) : Bool :=
  let places := folder.directories ++ folder.files.map fun (file, _) => file.dropLast
  place.isEmpty || places.any place.isPrefixOf

/-- The greatest number of bytes in a name. -/
def longestName : Nat := 255

/-- The place a name leads to from a place, which has to be a directory. -/
def step (folder : Folder) (place : Place) (name : String) : Except FileError Place :=
  if (folder.text? place).isSome then .error .notDirectory
  else if !folder.isDirectory place then .error .missing
  else if longestName < name.utf8ByteSize then .error .nameTooLong
  else if name = "" || name = "." then .ok place
  else if name = ".." then .ok place.dropLast
  else .ok (place ++ [name])

/-- Follow names from where a path starts. -/
def follow (folder : Folder) (path : String) (names : List String) : Except FileError Place :=
  if path.isEmpty then .error .missing
  else if path.contains '\x00' then .error .nullInPath
  else names.foldlM folder.step (if path.startsWith "/" then [] else folder.home)

/-- The text of the file a path leads to. -/
def readText (folder : Folder) (path : String) : Except FileError String := do
  let place ← folder.follow path (parts path)
  match folder.text? place with
  | some text => return text
  | none => .error (if folder.isDirectory place then .isDirectory else .missing)

/-- The place of a file that can be written, whether it exists or not. -/
def writablePlace (folder : Folder) (path : String) : Except FileError Place := do
  let names := ((parts path).reverse.dropWhile String.isEmpty).reverse
  let parent ← folder.follow path names.dropLast
  let place ← folder.step parent (names.getLast?.getD "")
  if path.endsWith "/" || folder.isDirectory place then
    .error .isDirectory
  return place

/-- The folder with a text in place of what a file contained. -/
def put (folder : Folder) (place : Place) (text : String) : Folder :=
  { folder with files := (place, text) :: folder.files.filter fun file => file.1 != place }

def writeText (folder : Folder) (path text : String) : Except FileError Unit × Folder :=
  match folder.writablePlace path with
  | .ok place => (.ok (), folder.put place text)
  | .error cause => (.error cause, folder)

/-- Create a file that is missing. -/
def prepare (folder : Folder) (path : String) : Except FileError Unit × Folder :=
  match folder.writablePlace path with
  | .ok place => (.ok (), folder.put place ((folder.text? place).getD ""))
  | .error cause => (.error cause, folder)

instance : Files (StateM Folder) where
  readText path := return (← get).readText path
  writeText path text := modifyGet (·.writeText path text)
  prepare path := modifyGet (·.prepare path)

end Folder

end ClusterMembership
