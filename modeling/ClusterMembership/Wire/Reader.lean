import ClusterMembership.Bytes

/-!
# Reading bytes

A reader consumes a leading part of its input and returns what stands there
together with the rest.  Readers are composed in reading order, so of several
faults in one input the first one met decides the error.

The errors are the causes a packet may be refused for.  The causes that only a
damaged or foreign writer produces share one public name, see `WireError.Family`.
-/

namespace ClusterMembership

namespace Wire

/-- Why bytes are not a packet, or a packet has no bytes. -/
inductive WireError where
  /-- The input ends inside a value. -/
  | endOfInput
  /-- A text is not well-formed UTF-8. -/
  | invalidText
  /-- An optional value starts with neither zero nor one. -/
  | invalidOptionTag
  /-- The packed form is larger than the packer's limit. -/
  | overLimit
  /-- A number starts with one of the two reserved bytes. -/
  | reservedMarker
  /-- The index of an alternative needs more than four bytes. -/
  | wideVariant
  /-- The index of an alternative that does not exist. -/
  | unknownVariant
  /-- Bytes are left over behind the packet. -/
  | trailingBytes
  /-- A cause stated by a packer of another kind. -/
  | other (text : String)
  deriving DecidableEq, Inhabited, Repr

/-- The public families of causes. -/
inductive WireError.Family where
  | io
  | invalidUtf8
  | invalidTag
  | sizeLimit
  | custom
  deriving DecidableEq, Inhabited, Repr

namespace WireError

/-- The family a cause belongs to. -/
def family : WireError → Family
  | endOfInput => .io
  | invalidText => .invalidUtf8
  | invalidOptionTag => .invalidTag
  | overLimit => .sizeLimit
  | reservedMarker | wideVariant | unknownVariant | trailingBytes | other _ => .custom

/-- The cause in words. -/
def message : WireError → String
  | endOfInput => "unexpected end of input"
  | invalidText => "text is not valid UTF-8"
  | invalidOptionTag => "option tag is neither 0 nor 1"
  | overLimit => "the size limit has been reached"
  | reservedMarker => "number starts with a reserved byte"
  | wideVariant => "variant index exceeds 32 bits"
  | unknownVariant => "unknown variant index"
  | trailingBytes => "bytes remain after the packet"
  | other text => text

end WireError

/-- A reader consumes a leading part of its input. -/
abbrev Reader (α : Type) := StateT Bytes (Except WireError) α

namespace Reader

/-- Refuse the input. -/
def fail {α : Type} (error : WireError) : Reader α :=
  fun _ => .error error

/-- One byte. -/
def byte : Reader UInt8
  | [] => .error .endOfInput
  | first :: rest => .ok (first, rest)

/-- Exactly `count` bytes. -/
def exactly (count : Nat) : Reader Bytes := fun bytes =>
  let taken := bytes.take count
  if taken.length = count then
    .ok (taken, bytes.drop count)
  else
    .error .endOfInput

/-- `count` values of one kind, collected behind those already read. -/
def manyAfter {α : Type} (reader : Reader α) : Nat → List α → Reader (List α)
  | 0, collected, bytes => .ok (collected.reverse, bytes)
  | count + 1, collected, bytes =>
    match reader bytes with
    | .error error => .error error
    | .ok (value, rest) => manyAfter reader count (value :: collected) rest

/-- `count` values of one kind. -/
def many {α : Type} (reader : Reader α) (count : Nat) : Reader (List α) :=
  manyAfter reader count []

/-- Run a reader on the whole input. -/
def runWhole {α : Type} (reader : Reader α) (bytes : Bytes) : Except WireError α :=
  match reader bytes with
  | .error error => .error error
  | .ok (value, []) => .ok value
  | .ok (_, _ :: _) => .error .trailingBytes

end Reader

end Wire

end ClusterMembership
