/-!
# Forms of commands

A command is called with options, and one of its own commands may follow them.  The
form of a command says which ones it knows; its help text lists them in columns.
-/

namespace ClusterMembership

namespace Command

/-- An option that takes a value. -/
structure OptionForm where
  long : String
  short : Option Char := none
  /-- What the value is called. -/
  value : String
  about : String
  /-- Whether the value is a path, which cannot be empty. -/
  isPath : Bool := false
  mayRepeat : Bool := false
  isNeeded : Bool := false
  /-- The variable of the environment that gives the value otherwise. -/
  source : Option String := none
  deriving DecidableEq, Inhabited, Repr

structure Form where
  /-- The words with which the command is called. -/
  words : List String
  about : String
  options : List OptionForm := []
  /-- The commands that may follow, with what they do. -/
  commands : List (String × String) := []
  /-- The version the command tells, if it tells one. -/
  version : Option String := none
  deriving DecidableEq, Inhabited, Repr

namespace OptionForm

/-- An option as it stands in a command. -/
def usage (option : OptionForm) : String :=
  "--" ++ option.long ++ " <" ++ option.value ++ ">"

/-- An option as it stands in a list. -/
def entry (option : OptionForm) : String :=
  match option.short with
  | some short => "-" ++ short.toString ++ ", " ++ option.usage
  | none => "    " ++ option.usage

def description (option : OptionForm) : String :=
  match option.source with
  | some source => option.about ++ " [env: " ++ source ++ "]"
  | none => option.about

end OptionForm

/-- Two columns, of which the second starts behind the longest entry of the first. -/
def columns (entries : List (String × String)) : String :=
  let width := ((entries.map fun (entry, _) => entry.length).max?).getD 0
  String.join (entries.map fun (entry, about) =>
    "  " ++ entry.pushn ' ' (width - entry.length) ++ "  " ++ about ++ "\n")

namespace Form

/-- How the command is called. -/
def usage (form : Form) : String :=
  let isOptional := form.options.any fun option => !option.isNeeded
  let needed := form.options.filter OptionForm.isNeeded
  let parts := form.words ++ (if isOptional then ["[OPTIONS]"] else []) ++
    needed.map OptionForm.usage ++ (if form.commands.isEmpty then [] else ["[COMMAND]"])
  "Usage: " ++ " ".intercalate parts

/-- What the command tells about itself. -/
def help (form : Form) : String :=
  let known := form.options.map (fun option => (option.entry, option.description))
  let version := if form.version.isSome then [("-V, --version", "Print version")] else []
  let options := known ++ ("-h, --help", "Print help") :: version
  let commands :=
    if form.commands.isEmpty then "" else "\nCommands:\n" ++ columns form.commands
  form.about ++ "\n\n" ++ form.usage ++ "\n" ++ commands ++ "\nOptions:\n" ++ columns options

end Form

end Command

end ClusterMembership
