import ClusterMembership.Layers.Merge
import ClusterMembership.Yaml.Node
import ClusterMembership.Yaml.Schema

/-!
# A YAML document as a layer

A layer is read from a document of the second edition.  Its scalars get their values
without regard to what the settings want, so a plain scalar that looks like a number
is one.
-/

namespace ClusterMembership

namespace LayerValue

/-- A plain scalar as an integer of 64 bits. -/
def integerOfText? : List Char → Option Int
  | '0' :: 'x' :: digits => Text.signed64? 16 digits
  | '0' :: 'o' :: digits => Text.signed64? 8 digits
  | '+' :: digits => Text.signed64? 10 digits
  | characters => Text.signed64? 10 characters

/-- Whether a plain scalar is a decimal number or a word for infinity or no number. -/
def isDecimalText (text : String) : Bool :=
  Yaml.isSpecialNumber text ||
    (text.toList.any Char.isDigit && (Decimal.read? text.toList).isSome)

/-- A decimal number; the words for infinity and for what is no number are refused. -/
def decimalOfText? (text : String) : Option LayerValue :=
  (Decimal.read? text.toList).map .decimal

/-- A plain scalar without a tag. -/
def ofPlain? (text : String) : Option LayerValue :=
  if ["", "~", "null"].contains text then some .nothing
  else if text = "true" then some (.flag true)
  else if text = "false" then some (.flag false)
  else
    match integerOfText? text.toList with
    | some value => some (.integer value)
    | none => if isDecimalText text then decimalOfText? text else some (.text text)

/-- A plain scalar with a tag of the standard, which is nothing when it does not fit the tag. -/
def ofTagged? (kind text : String) : Option LayerValue :=
  match kind with
  | "bool" =>
    some (if text = "true" then .flag true else if text = "false" then .flag false else .nothing)
  | "int" => some ((Text.signed64? 10 text.toList).elim .nothing .integer)
  | "float" => if isDecimalText text then decimalOfText? text else some .nothing
  | "null" => some .nothing
  | _ => some (.text text)

def ofScalar? (text : String) (style : Yaml.Style) (tag : Option Yaml.Tag) : Option LayerValue :=
  match style, tag with
  | .plain, none => ofPlain? text
  | .plain, some tag =>
    if tag.expansion = Yaml.Tag.standard then ofTagged? tag.suffix text else some (.text text)
  | _, _ => some (.text text)

/-- The name a value stands for as a key; only texts and integers are names. -/
def key? : LayerValue → Option String
  | text value => some value
  | integer value => some (toString value)
  | _ => none

/-- Whether two keys are the same: a text is never the same as an integer. -/
def isSameKey : LayerValue → LayerValue → Bool
  | text a, text b => a = b
  | integer a, integer b => a = b
  | _, _ => false

/-- Whether no key comes twice. -/
def hasDistinctKeys : List LayerValue → Bool
  | [] => true
  | key :: rest => !rest.any (isSameKey key) && hasDistinctKeys rest

/-- A table of pairs of keys and values. -/
def tableOfPairs? (pairs : List (LayerValue × LayerValue)) : Option LayerValue := do
  if !hasDistinctKeys (pairs.map Prod.fst) then
    failure
  let fields ← pairs.mapM fun (key, value) => return (← key? key, value)
  return .table (fields.foldl (fun table (name, value) => changeField name (fun _ => value) table) [])

mutual

/-- A node, in which aliases stand for nodes that were complete before. -/
def ofNode? (known : List (Nat × LayerValue)) : Yaml.Node → Option LayerValue
  | .scalar content style tag => ofScalar? content style tag
  | .sequence items => (ofNodes? known items).map .list
  | .mapping pairs => (ofPairs? known pairs).bind tableOfPairs?
  | .alias anchor => some ((known.lookup anchor).getD .nothing)

def ofNodes? (known : List (Nat × LayerValue)) : List Yaml.Node → Option (List LayerValue)
  | [] => some []
  | node :: rest => do
    return (← ofNode? known node) :: (← ofNodes? known rest)

def ofPairs? (known : List (Nat × LayerValue)) :
    List (Yaml.Node × Yaml.Node) → Option (List (LayerValue × LayerValue))
  | [] => some []
  | (key, value) :: rest => do
    return (← ofNode? known key, ← ofNode? known value) :: (← ofPairs? known rest)

end

/-- The anchored nodes of a document, in the order in which they were complete. -/
def ofAnchors? (anchors : List (Nat × Yaml.Node)) : Option (List (Nat × LayerValue)) :=
  anchors.reverse.foldlM (fun known (number, node) => do
    return (number, ← ofNode? known node) :: known) []

end LayerValue

/-- The layer in a text; a text without a document holds an empty one. -/
def Layer.ofYaml? (text : String) : Option Layer := do
  match ← Yaml.read? .v1_2 text with
  | [] => return []
  | [content] =>
    match ← LayerValue.ofNode? (← LayerValue.ofAnchors? content.anchors) content.root with
    | .table fields => return fields
    | _ => none
  | _ => none

end ClusterMembership
