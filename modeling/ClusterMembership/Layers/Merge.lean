import ClusterMembership.Layers.KeyPath
import ClusterMembership.Layers.Value

/-!
# Merging layers

A layer is put on top of the ones below it value by value.  A table is merged into
the table that stands in its place; any other value replaces what stands there.
Names are taken in lower case.
-/

namespace ClusterMembership

/-- A layer: values for paths of keys. -/
abbrev Layer := List (String × LayerValue)

namespace LayerValue

/-- Change the field with a name, which is nothing as long as there is none. -/
def changeField (name : String) (change : LayerValue → LayerValue) :
    List (String × LayerValue) → List (String × LayerValue)
  | [] => [(name, change .nothing)]
  | (other, value) :: rest =>
    if other = name then (other, change value) :: rest
    else (other, value) :: changeField name change rest

/-- The number of an item in a list of a length; what lies before the first is no item. -/
def itemNumber? (length : Nat) (index : Int) : Option Nat :=
  if 0 ≤ index then some index.toNat
  else if index.natAbs ≤ length then some (length - index.natAbs)
  else none

/-- Change an item, up to which a list is filled with nothing. -/
def changeItem (index : Int) (change : LayerValue → LayerValue) (items : List LayerValue) :
    List LayerValue :=
  match itemNumber? items.length index with
  | some number => (items.rightpad (number + 1) .nothing).modify number change
  | none => items

/-- Change the part at the end of some steps; what is no table or list on the way becomes one. -/
def changeAt (change : LayerValue → LayerValue) : List KeyStep → LayerValue → LayerValue
  | [], value => change value
  | .child name :: steps, value =>
    .table (changeField (Text.lower name) (changeAt change steps) value.fields)
  | .item index :: steps, value =>
    .list (changeItem index (changeAt change steps) value.items)

mutual

/-- Put a value under a name; an empty table leaves alone what stands there. -/
def mergeField (name : String) : (value : LayerValue) → LayerValue → LayerValue
  | .table fields, target =>
    let known := target.fields
    let base :=
      if (known.lookup (Text.lower name)).isSome then known
      else known ++ [(Text.lower name, .table [])]
    .table (changeField (Text.lower name) (mergeFields fields) base)
  | value, target => .table (changeField (Text.lower name) (fun _ => value) target.fields)

/-- Put all fields of a table into a value. -/
def mergeFields : List (String × LayerValue) → LayerValue → LayerValue
  | [], target => target
  | (name, value) :: rest, target => mergeFields rest (mergeField name value target)

end

/-- Put a value where a path leads. -/
def put (root : LayerValue) (path : KeyPath) (value : LayerValue) : LayerValue :=
  let place (parent : LayerValue) : LayerValue :=
    match path.last with
    | .child name => mergeField name value parent
    | .item index => .list (changeItem index (fun _ => value) parent.items)
  changeAt place path.parents root

/-- Put a layer on top of a value. -/
def overlay (root : LayerValue) (layer : Layer) : LayerValue :=
  layer.foldl (fun root (key, value) => root.put (.ofText key) value) root

end LayerValue

end ClusterMembership
