import ClusterMembership.Wire.Reader

/-!
# Numbers of varying width

A number up to 250 is one byte.  A larger one is a marker byte and two, four or
eight bytes, least significant first; the writer takes the first width that
fits.  The reader accepts every width for every value, so a number has one
shortest form and possibly longer ones.  The two largest marker bytes are
reserved and no number starts with them.
-/

namespace ClusterMembership

namespace Wire

/-- The shortest form of a number below `2 ^ 64`. -/
def writeNat (value : Nat) : Bytes :=
  if value ≤ 250 then
    [UInt8.ofNat value]
  else if value < Bytes.capacity 2 then
    251 :: Bytes.littleEndian 2 value
  else if value < Bytes.capacity 4 then
    252 :: Bytes.littleEndian 4 value
  else
    253 :: Bytes.littleEndian 8 value

/-- The number of bytes of the shortest form. -/
def natSize (value : Nat) : Nat :=
  if value ≤ 250 then 1
  else if value < Bytes.capacity 2 then 3
  else if value < Bytes.capacity 4 then 5
  else 9

/-- Read a fixed-width number, least significant byte first. -/
def readFixed (width : Nat) : Reader Nat := do
  return Bytes.fromLittleEndian (← Reader.exactly width)

/-- Read a number of any of the four widths. -/
def readNat : Reader Nat := do
  let first ← Reader.byte
  if first ≤ 250 then
    return first.toNat
  else if first = 251 then
    readFixed 2
  else if first = 252 then
    readFixed 4
  else if first = 253 then
    readFixed 8
  else
    Reader.fail .reservedMarker

/-- Read the index of an alternative, which has to fit four bytes. -/
def readVariant : Reader Nat := do
  let index ← readNat
  if index < Bytes.capacity 4 then return index else Reader.fail .wideVariant

@[simp]
theorem length_writeNat (value : Nat) : (writeNat value).length = natSize value := by
  unfold writeNat natSize
  split
  · rfl
  · split
    · simp
    · split <;> simp

end Wire

end ClusterMembership
