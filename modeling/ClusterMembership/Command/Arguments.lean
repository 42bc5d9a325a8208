import ClusterMembership.Command.Form
import ClusterMembership.Text.Blank

/-!
# Arguments of commands

Arguments are read from left to right.  An option has a long name behind two
hyphens, or a letter behind one; its value follows as the next argument, or in the
same one.  A value is accepted only when the next option begins or nothing is left,
so whatever stops reading earlier comes first.
-/

namespace ClusterMembership

namespace Command

/-- Why arguments cannot be used. -/
inductive UsageError where
  | unexpected (argument : String)
  | unknownCommand (name : String)
  /-- An option without a value, or a path that is empty. -/
  | missingValue (option : OptionForm)
  | repeated (option : OptionForm)
  | unneededValue (flag value : String)
  | missingOption (option : OptionForm)
  deriving DecidableEq, Inhabited, Repr

def UsageError.message : UsageError → String
  | unexpected argument => "unexpected argument '" ++ argument ++ "' found"
  | unknownCommand name => "unrecognized subcommand '" ++ name ++ "'"
  | missingValue option =>
    "a value is required for '" ++ option.usage ++ "' but none was supplied"
  | repeated option => "the argument '" ++ option.usage ++ "' cannot be used multiple times"
  | unneededValue flag value =>
    "unexpected value '" ++ value ++ "' for '" ++ flag ++ "' found; no more were expected"
  | missingOption option =>
    "the following required arguments were not provided:\n  " ++ option.usage

/-- What ends the reading of arguments before a command is known. -/
inductive Stop where
  /-- A command is asked for its help text. -/
  | help (text : String)
  | version (text : String)
  | misuse (form : Form) (cause : UsageError)
  deriving DecidableEq, Inhabited, Repr

/-- The options that were given to a command. -/
structure Given where
  /-- The long names of options with their values, in order. -/
  values : List (String × String) := []
  /-- The option whose value is not accepted yet, and the value as soon as it is there. -/
  pending : Option (OptionForm × Option String) := none
  deriving Inhabited, Repr

namespace Given

/-- Accept the value of the last option. -/
def settled (given : Given) (form : Form) : Except Stop Given :=
  match given.pending with
  | none => .ok given
  | some (option, none) => .error (.misuse form (.missingValue option))
  | some (option, some value) =>
    if !option.mayRepeat && (given.values.lookup option.long).isSome then
      .error (.misuse form (.repeated option))
    else if option.isPath && value.isEmpty then
      .error (.misuse form (.missingValue option))
    else
      .ok { values := given.values ++ [(option.long, value)] }

/-- Begin an option, with its value if that is in the same argument. -/
def begin (given : Given) (form : Form) (option : OptionForm) (value : Option String) :
    Except Stop Given := do
  let given ← given.settled form
  let given := { given with pending := some (option, value) }
  if value.isSome then given.settled form else return given

/-- The value of an option. -/
def value? (given : Given) (long : String) : Option String :=
  given.values.lookup long

/-- All values of an option. -/
def every (given : Given) (long : String) : List String :=
  (given.values.filter fun (name, _) => name = long).map Prod.snd

end Given

namespace Form

/-- Stop for a flag that every command knows, or that tells the version. -/
def flag (form : Form) (given : Given) (stop : Stop) : Except Stop Given := do
  let _ ← given.settled form
  .error stop

/-- The text that tells the version. -/
def versionText (form : Form) (version : String) : String :=
  " ".intercalate form.words ++ " " ++ version ++ "\n"

/-- Read what stands behind two hyphens. -/
def readLong (form : Form) (given : Given) (text : String) : Except Stop Given :=
  let (name, value) :=
    match Text.splitAtFirst? '=' text.toList with
    | some (name, value) => (String.ofList name, some (String.ofList value))
    | none => (text, none)
  let isVersion := name = "version" && form.version.isSome
  if name = "help" || isVersion then
    match value with
    | some value => .error (.misuse form (.unneededValue ("--" ++ name) value))
    | none =>
      form.flag given
        (if isVersion then .version (form.versionText (form.version.getD "")) else .help form.help)
  else
    match form.options.find? (·.long = name) with
    | some option => given.begin form option value
    | none => .error (.misuse form (.unexpected ("--" ++ name)))

/-- Read a letter behind a hyphen, and what follows it in the same argument. -/
def readShort (form : Form) (given : Given) (letter : Char) (rest : List Char) :
    Except Stop Given :=
  match form.options.find? (·.short = some letter), letter, form.version with
  | some option, _, _ =>
    let value := if rest.head? = some '=' then rest.tail else rest
    given.begin form option (if rest.isEmpty then none else some (String.ofList value))
  | none, 'h', _ => form.flag given (.help form.help)
  | none, 'V', some version => form.flag given (.version (form.versionText version))
  | none, _, _ => .error (.misuse form (.unexpected ("-" ++ letter.toString)))

/-- Read arguments up to a command of a command, which is given with what follows it. -/
def read (form : Form) :
    Given → List String → Except Stop (Given × Option (String × List String))
  | given, [] => .ok (given, none)
  | given, argument :: rest =>
    let isWaiting := given.pending.any fun (_, value) => value.isNone
    match argument.toList with
    | ['-', '-'] =>
      match rest with
      | [] => .ok (given, none)
      | other :: _ => .error (.misuse form (.unexpected other))
    | '-' :: '-' :: name => do form.read (← form.readLong given (String.ofList name)) rest
    | '-' :: letter :: more => do form.read (← form.readShort given letter more) rest
    | _ =>
      if isWaiting then
        let pending := given.pending.map fun (option, _) => (option, some argument)
        form.read { given with pending } rest
      else if (form.commands.lookup argument).isSome then
        .ok (given, some (argument, rest))
      else if form.commands.isEmpty then
        .error (.misuse form (.unexpected argument))
      else
        .error (.misuse form (.unknownCommand argument))

/-- Read the arguments of a command without commands of its own. -/
def readAll (form : Form) (arguments : List String) : Except Stop Given := do
  let (given, _) ← form.read {} arguments
  let given ← given.settled form
  match form.options.find? fun option => option.isNeeded && (given.value? option.long).isNone with
  | some option => .error (.misuse form (.missingOption option))
  | none => return given

end Form

end Command

end ClusterMembership
