import ClusterMembership.Decimal.Literal
import ClusterMembership.Layers.Merge

/-!
# Variables as a layer

Variables of the environment give settings of their own.  Their names start with
`SWIM_`, in any case of letters, and two underscores separate the keys.
-/

namespace ClusterMembership

/-- Names and values of the environment. -/
abbrev Variables := List (String × String)

namespace Variables

/-- What the names of settings start with, in lower case. -/
def beginning : String := "swim_"

/-- The path of keys a variable names, if it names one. -/
def key? (name : String) : Option String :=
  let name := Text.lower name
  if name.startsWith beginning then
    some (((name.drop beginning.length).toString).replace "__" ".")
  else
    none

/-- The key whose text is a list with commas. -/
def listedKey : String := "node.peers"

/-- The value of a variable, which is a text only when it is nothing else. -/
def value (key text : String) : LayerValue :=
  let word := Text.lower text
  if word = "true" then .flag true
  else if word = "false" then .flag false
  else
    match Text.signed64? 10 text.toList, Decimal.read? text.toList with
    | some value, _ => .integer value
    | none, some value => .decimal value
    | none, none =>
      if key = listedKey then .list ((text.splitOn ",").map .text) else .text text

/-- The settings that variables give. -/
def layer (environment : Variables) : Layer :=
  environment.filterMap fun (name, text) => (key? name).map fun key => (key, value key text)

end Variables

end ClusterMembership
