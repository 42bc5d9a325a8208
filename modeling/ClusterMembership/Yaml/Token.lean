/-!
# The tokens of a YAML text

Tokens show the structure of a text: where collections begin and end, what is a key
and what a value, and the scalars.  The indentation of block collections is turned
into tokens that begin and end them.
-/

namespace ClusterMembership

namespace Yaml

/-- How a scalar is presented. -/
inductive Style where
  | plain
  | singleQuoted
  | doubleQuoted
  | literal
  | folded
  deriving DecidableEq, Inhabited, Repr

inductive Token where
  /-- The version of the standard a document asks for. -/
  | version (major minor : Nat)
  /-- What a tag handle stands for. -/
  | tagHandle (handle expansion : String)
  | documentStart
  | documentEnd
  | blockSequenceStart
  | blockMappingStart
  | blockEnd
  | flowSequenceStart
  | flowSequenceEnd
  | flowMappingStart
  | flowMappingEnd
  | blockEntry
  | flowEntry
  | key
  | value
  | alias (name : String)
  | anchor (name : String)
  | tag (handle suffix : String)
  | scalar (text : String) (style : Style)
  deriving DecidableEq, Inhabited, Repr

end Yaml

end ClusterMembership
