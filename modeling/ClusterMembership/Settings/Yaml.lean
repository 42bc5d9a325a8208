import ClusterMembership.Settings.Form
import ClusterMembership.Yaml.Node
import ClusterMembership.Yaml.Schema

/-!
# Settings in a YAML document

A settings file is a single document of the first edition.  A scalar is any text
where a text is wanted.  Numbers and truth values must be plain; a number may be
decimal, hexadecimal, octal or binary, and leading zeros make it a text.  An empty
value is a part without fields.
-/

namespace ClusterMembership

namespace Yaml

/-- The text of a scalar that may be a value of a kind: a plain one, or a literal with its tag. -/
def typedText? (kind : String) : Node → Option String
  | .scalar text .plain _ => some text
  | .scalar text .literal (some tag) =>
    if tag.text = Tag.standard ++ kind then some text else none
  | _ => none

/-- Whether an optional scalar is left out; the tag for nothing admits nothing else. -/
def isNullScalar? : Node → Option Bool
  | .scalar text .plain (some tag) =>
    if tag.text = Tag.standard ++ "null" then
      if isNullWord text then some true else none
    else
      some false
  | .scalar text .plain none => some (text.isEmpty || isNullWord text)
  | _ => some false

/-- How a YAML document shows the parts of settings. -/
def form (content : Content) : Form Node :=
  let text? (node : Node) : Option String :=
    match content.resolve node with
    | .scalar text _ _ => some text
    | _ => none
  let isEmpty : Node → Bool
    | .scalar "" .plain _ => true
    | _ => false
  let pairs? (node : Node) : Option (List (String × Node)) :=
    match content.resolve node with
    | .mapping pairs => pairs.mapM fun (key, value) => (text? key).map (·, value)
    | other => if isEmpty other then some [] else none
  { text?
    natural? := fun node => do
      let text ← typedText? "int" (content.resolve node)
      (naturalOfText? text.toList).filter (· < Bytes.capacity 8)
    flag? := fun node => (typedText? "bool" (content.resolve node)).bind flagOfText?
    isNull? := fun node => isNullScalar? (content.resolve node)
    items? := fun node =>
      match content.resolve node with
      | .sequence items => some items
      | other => if isEmpty other then some [] else none
    pairs?
    fields? := fun node =>
      match content.resolve node with
      | .sequence items => some (.listed items false)
      | other => (pairs? other).map .named }

end Yaml

/-- The settings in the text of a settings file; an empty text leaves all defaults. -/
def Settings.ofYaml? (text : String) : Option Settings := do
  match ← Yaml.read? .v1_1 text with
  | [] => return {}
  | [content] => (Yaml.form content).read? content.root
  | _ => none

end ClusterMembership
