import ClusterMembership.Command.Arguments
import ClusterMembership.Error

/-!
# Outcomes of commands

A command leaves a status, which is zero when all went well, and two texts: what it
was asked for, and what went wrong.  A failure is told with the chain of its causes.
-/

namespace ClusterMembership

namespace Command

/-- What a command leaves behind. -/
structure Outcome where
  status : UInt8 := 0
  output : String := ""
  errors : String := ""
  deriving DecidableEq, Inhabited, Repr

/-- What went wrong, and why. -/
structure Failure where
  message : String
  /-- The causes, of which each is the cause of the one before. -/
  causes : List String := []
  deriving DecidableEq, Inhabited, Repr

namespace Failure

def ofSettings (error : SettingsError) : Failure where
  message := error.message
  causes := error.causes

def ofAgent (error : AgentError) : Failure where
  message := error.message
  causes := error.causes

/-- The failure of something greater, of which a failure is the cause. -/
def during (failure : Failure) (message : String) : Failure where
  message
  causes := failure.message :: failure.causes

/-- A text behind a margin, which further lines keep. -/
def indented (margin first text : String) : String :=
  first ++ ("\n" ++ margin).intercalate (text.splitOn "\n")

/-- The causes, which are numbered when there are several. -/
def causeLines : List String → List String
  | [] => []
  | [cause] => [indented "    " "    " cause]
  | causes => causes.zipIdx.map fun (cause, number) =>
    let digits := Nat.repr number
    indented "       " ("".pushn ' ' (5 - digits.length) ++ digits ++ ": ") cause

/-- The text that tells a failure. -/
def report (failure : Failure) : String :=
  let lines := causeLines failure.causes
  let causes := if lines.isEmpty then "" else "\n\nCaused by:\n" ++ "\n".intercalate lines
  "Error: " ++ failure.message ++ causes ++ "\n"

end Failure

namespace Outcome

/-- Give out a line before anything else. -/
def withLine (line : String) (outcome : Outcome) : Outcome :=
  { outcome with output := line ++ "\n" ++ outcome.output }

def ofFailure (failure : Failure) : Outcome where
  status := 1
  errors := failure.report

/-- The outcome of arguments that lead to no task. -/
def ofStop : Stop → Outcome
  | .help text | .version text => { output := text }
  | .misuse form cause =>
    { status := 2
      errors := "error: " ++ cause.message ++ "\n\n" ++ form.usage ++
        "\n\nFor more information, try '--help'.\n" }

end Outcome

end Command

end ClusterMembership
