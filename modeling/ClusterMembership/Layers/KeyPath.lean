import ClusterMembership.Text.Blank
import ClusterMembership.Text.Numeral

/-!
# Paths of keys

A path names a part of a layered value: a name, and further names behind dots or
numbers in brackets.
-/

namespace ClusterMembership

inductive KeyStep where
  | child (name : String)
  /-- A number of an item; negative numbers count from the end. -/
  | item (index : Int)
  deriving DecidableEq, Inhabited, Repr

/-- A path: its steps up to the last one, and the last one. -/
structure KeyPath where
  parents : List KeyStep
  last : KeyStep
  deriving DecidableEq, Inhabited, Repr

namespace KeyPath

/-- A path of a single name. -/
def ofName (name : String) : KeyPath where
  parents := []
  last := .child name

/-- Whether a character can stand in a name of a path. -/
def isNameCharacter (character : Char) : Bool :=
  character.isAlphanum || character = ' ' || character = '_' || character = '-'

/-- A name at the front of characters, and the rest. -/
def name? (characters : List Char) : Option (String × List Char) :=
  match characters.span isNameCharacter with
  | ([], _) => none
  | (name, rest) => some (String.ofList name, rest)

/-- The number of an item, with blanks around it. -/
def index? (characters : List Char) : Option Int :=
  let isBlank (character : Char) : Bool := character = ' ' || character = '\t'
  match Text.strip isBlank characters with
  | '+' :: _ => none
  | digits => Text.signed64? 10 digits

/-- The steps behind the first name. -/
def steps? : (fuel : Nat) → List Char → Option (List KeyStep)
  | _, [] => some []
  | 0, _ => none
  | fuel + 1, '.' :: rest => do
    let (name, rest) ← name? rest
    return .child name :: (← steps? fuel rest)
  | fuel + 1, '[' :: rest => do
    let (digits, rest) ← Text.splitAtFirst? ']' rest
    return .item (← index? digits) :: (← steps? fuel rest)
  | _, _ => none

/-- The path in a text, if it holds one. -/
def parse? (text : String) : Option KeyPath := do
  let (name, rest) ← name? text.toList
  let steps := .child name :: (← steps? rest.length rest)
  return { parents := steps.dropLast, last := steps.getLastD (.child name) }

/-- The path in a text, or the whole text as a name. -/
def ofText (text : String) : KeyPath :=
  (parse? text).getD (ofName text)

end KeyPath

end ClusterMembership
