import ClusterMembership.Decimal.Shortest
import ClusterMembership.Settings.Document
import ClusterMembership.Settings.Form
import ClusterMembership.Text.Case
import ClusterMembership.Text.Numeral

/-!
# Layered values

A layer of settings holds values without knowing what kind of value each setting
wants.  So a value is turned into the kind that is wanted: texts into numbers and
truth values, and those into texts.
-/

namespace ClusterMembership

inductive LayerValue where
  /-- A setting that is left out. -/
  | nothing
  | flag (value : Bool)
  | integer (value : Int)
  | decimal (value : Decimal.Binary64)
  | text (value : String)
  | list (items : List LayerValue)
  | table (fields : List (String × LayerValue))
  deriving Inhabited, Repr

namespace LayerValue

/-- The fields of a table; any other value has none. -/
def fields : LayerValue → List (String × LayerValue)
  | table fields => fields
  | _ => []

/-- The items of a list; any other value has none. -/
def items : LayerValue → List LayerValue
  | list items => items
  | _ => []

/-- A truth value in words, in any case of letters. -/
def wordedFlag? (text : String) : Option Bool :=
  let word := Text.lower text
  if ["true", "on", "yes"].contains word then some true
  else if ["false", "off", "no"].contains word then some false
  else none

/-- The text of a single value. -/
def text? : LayerValue → Option String
  | text value => some value
  | flag value => some (if value then "true" else "false")
  | integer value => some (toString value)
  | decimal value => some value.text
  | _ => none

/-- The truth value of a single value; every number but zero counts as true. -/
def flag? : LayerValue → Option Bool
  | flag value => some value
  | integer value => some (value ≠ 0)
  | decimal value => some !value.isZero
  | text value =>
    if value = "1" then some true
    else if value = "0" then some false
    else wordedFlag? value
  | _ => none

/-- The natural number below `2 ^ 64` nearest to a single value. -/
def natural? : LayerValue → Option Nat
  | integer value => if 0 ≤ value then some value.toNat else none
  | flag value => some value.toNat
  | decimal value => some (value.toNaturalBelow (Bytes.capacity 8))
  | text value =>
    match wordedFlag? value with
    | some answer => some answer.toNat
    | none => (Text.unsigned? 10 value.toList).filter (· < Bytes.capacity 8)
  | _ => none

/-- Whether a document has no values in it. -/
def isEmptyDocument : Document → Bool
  | .list [] | .table [] => true
  | _ => false

mutual

/-- A document as a value; lists and tables without values are left out. -/
def ofDocument : Document → LayerValue
  | .null => nothing
  | .flag value => flag value
  | .natural value => integer value
  | .text value => text value
  | .list items => list (ofItems items)
  | .table fields => table (ofFields fields)

def ofItems : List Document → List LayerValue
  | [] => []
  | item :: rest => ofDocument item :: ofItems rest

def ofFields : List (String × Document) → List (String × LayerValue)
  | [] => []
  | (name, document) :: rest =>
    if isEmptyDocument document then ofFields rest
    else (name, ofDocument document) :: ofFields rest

end

/-- How layered values show the parts of settings. -/
def form : Form LayerValue where
  text?
  natural?
  flag?
  isNull? := fun
    | nothing => some true
    | _ => some false
  items? := fun
    | list items => some items
    | _ => none
  pairs? := fun
    | table fields => some fields
    | _ => none
  fields? := fun
    | table fields => some (.named fields)
    | list items => some (.listed items true)
    | _ => none

end LayerValue

end ClusterMembership
