import ClusterMembership.Wire.Varint
import ClusterMembership.Packet

/-!
# The packed form of a packet

Texts, byte strings and lists are preceded by their length; an optional value is
preceded by zero or one; an alternative is preceded by its index.  A packet is
the name of its source and one of five payloads.

`Packet.write` is the shortest form, `Packet.packedSize` its length, and
`Packet.read` accepts every form, shortest or not, that leaves nothing over.
-/

namespace ClusterMembership

namespace Wire

/-! ## Texts, byte strings, optional values and lists -/

/-- A byte string behind its length. -/
def writeBytes (bytes : Bytes) : Bytes :=
  writeNat bytes.length ++ bytes

def bytesSize (bytes : Bytes) : Nat :=
  natSize bytes.length + bytes.length

def readBytes : Reader Bytes := do
  let length ← readNat
  Reader.exactly length

/-- A text as its UTF-8 bytes behind their number. -/
def writeText (text : String) : Bytes :=
  writeBytes (Bytes.ofText text)

def textSize (text : String) : Nat :=
  natSize text.utf8ByteSize + text.utf8ByteSize

def readText : Reader String := do
  let bytes ← readBytes
  match Bytes.toText? bytes with
  | some text => return text
  | none => Reader.fail .invalidText

/-- An optional value behind its tag. -/
def writeOption {α : Type} (write : α → Bytes) : Option α → Bytes
  | none => [0]
  | some value => 1 :: write value

def optionSize {α : Type} (size : α → Nat) : Option α → Nat
  | none => 1
  | some value => 1 + size value

def readOption {α : Type} (read : Reader α) : Reader (Option α) := do
  let tag ← Reader.byte
  if tag = 0 then
    return none
  else if tag = 1 then
    return some (← read)
  else
    Reader.fail .invalidOptionTag

/-- A list behind its length. -/
def writeList {α : Type} (write : α → Bytes) (values : List α) : Bytes :=
  writeNat values.length ++ values.flatMap write

/-- The number of bytes of values together, without their length. -/
def bodySize {α : Type} (size : α → Nat) : List α → Nat
  | [] => 0
  | value :: rest => size value + bodySize size rest

def listSize {α : Type} (size : α → Nat) (values : List α) : Nat :=
  natSize values.length + bodySize size values

def readList {α : Type} (read : Reader α) : Reader (List α) := do
  let length ← readNat
  Reader.many read length

/-! ## The parts of a packet -/

def writeName (name : MemberName) : Bytes :=
  writeText name.text

def nameSize (name : MemberName) : Nat :=
  textSize name.text

def readName : Reader MemberName := do
  return { text := ← readText }

/-- The index of a status. -/
def statusIndex : Status → Nat
  | .online => 0
  | .suspect => 1
  | .unavailable => 2
  | .offline => 3

def writeStatus (status : Status) : Bytes :=
  writeNat (statusIndex status)

def readStatus : Reader Status := do
  match ← readVariant with
  | 0 => return .online
  | 1 => return .suspect
  | 2 => return .unavailable
  | 3 => return .offline
  | _ => Reader.fail .unknownVariant

def writeMetadata (metadata : Metadata) : Bytes :=
  writeNat metadata.clock ++ writeOption writeBytes metadata.payload

def metadataSize (metadata : Metadata) : Nat :=
  natSize metadata.clock + optionSize bytesSize metadata.payload

def readMetadata : Reader Metadata := do
  let clock ← readNat
  let payload ← readOption readBytes
  return { clock, payload }

def writeEntry (entry : GossipEntry) : Bytes :=
  writeName entry.name ++ writeNat entry.clock ++ writeStatus entry.status ++
    writeOption writeMetadata entry.metadata

def entrySize (entry : GossipEntry) : Nat :=
  nameSize entry.name + natSize entry.clock + natSize (statusIndex entry.status) +
    optionSize metadataSize entry.metadata

def readEntry : Reader GossipEntry := do
  let name ← readName
  let clock ← readNat
  let status ← readStatus
  let metadata ← readOption readMetadata
  return { name, clock, status, metadata }

def writeAck (ack : EntryAck) : Bytes :=
  writeName ack.name ++ writeNat ack.clock

def ackSize (ack : EntryAck) : Nat :=
  nameSize ack.name + natSize ack.clock

def readAck : Reader EntryAck := do
  let name ← readName
  let clock ← readNat
  return { name, clock }

def writePayload : Payload → Bytes
  | .ping request gossip => writeNat 0 ++ writeNat request ++ writeList writeEntry gossip
  | .pingRequest request target => writeNat 1 ++ writeNat request ++ writeName target
  | .ack request gossip => writeNat 2 ++ writeNat request ++ writeList writeEntry gossip
  | .gossip entries => writeNat 3 ++ writeList writeEntry entries
  | .gossipAck acks => writeNat 4 ++ writeList writeAck acks

def payloadSize : Payload → Nat
  | .ping request gossip => 1 + natSize request + listSize entrySize gossip
  | .pingRequest request target => 1 + natSize request + nameSize target
  | .ack request gossip => 1 + natSize request + listSize entrySize gossip
  | .gossip entries => 1 + listSize entrySize entries
  | .gossipAck acks => 1 + listSize ackSize acks

def readPayload : Reader Payload := do
  match ← readVariant with
  | 0 => return .ping (← readNat) (← readList readEntry)
  | 1 => return .pingRequest (← readNat) (← readName)
  | 2 => return .ack (← readNat) (← readList readEntry)
  | 3 => return .gossip (← readList readEntry)
  | 4 => return .gossipAck (← readList readAck)
  | _ => Reader.fail .unknownVariant

end Wire

namespace Packet

/-- The shortest packed form of a packet. -/
def write (packet : Packet) : Bytes :=
  Wire.writeName packet.source ++ Wire.writePayload packet.payload

/-- The length of the shortest packed form. -/
def packedSize (packet : Packet) : Nat :=
  Wire.nameSize packet.source + Wire.payloadSize packet.payload

/-- Read a packet at the start of the input. -/
def reader : Wire.Reader Packet := do
  let source ← Wire.readName
  let payload ← Wire.readPayload
  return { source, payload }

/-- The packet whose packed form is the whole input. -/
def read (bytes : Bytes) : Except Wire.WireError Packet :=
  Wire.Reader.runWhole reader bytes

end Packet

/-! ## The size is the length of the written form -/

namespace Wire

@[simp]
theorem length_writeBytes (bytes : Bytes) : (writeBytes bytes).length = bytesSize bytes := by
  simp [writeBytes, bytesSize]

@[simp]
theorem length_ofText (text : String) : (Bytes.ofText text).length = text.utf8ByteSize := by
  rw [Bytes.ofText, Array.length_toList]
  rfl

@[simp]
theorem length_writeText (text : String) : (writeText text).length = textSize text := by
  simp [writeText, bytesSize, textSize]

theorem length_writeOption
    {α : Type} {write : α → Bytes} {size : α → Nat}
    (exact : ∀ value, (write value).length = size value)
    (value : Option α) :
    (writeOption write value).length = optionSize size value := by
  cases value with
  | none => rfl
  | some value => simp [writeOption, optionSize, exact, Nat.add_comm]

theorem length_flatMap_write
    {α : Type} {write : α → Bytes} {size : α → Nat}
    (exact : ∀ value, (write value).length = size value)
    (values : List α) :
    (values.flatMap write).length = bodySize size values := by
  induction values with
  | nil => rfl
  | cons value rest step => simp [bodySize, exact, ← step]

theorem length_writeList
    {α : Type} {write : α → Bytes} {size : α → Nat}
    (exact : ∀ value, (write value).length = size value)
    (values : List α) :
    (writeList write values).length = listSize size values := by
  simp only [writeList, listSize, List.length_append, length_writeNat,
    length_flatMap_write exact values]

@[simp]
theorem length_writeName (name : MemberName) : (writeName name).length = nameSize name :=
  length_writeText name.text

@[simp]
theorem length_writeMetadata (metadata : Metadata) :
    (writeMetadata metadata).length = metadataSize metadata := by
  simp [writeMetadata, metadataSize, length_writeOption length_writeBytes]

@[simp]
theorem length_writeEntry (entry : GossipEntry) : (writeEntry entry).length = entrySize entry := by
  simp [writeEntry, entrySize, writeStatus, length_writeOption length_writeMetadata]
  omega

@[simp]
theorem length_writeAck (ack : EntryAck) : (writeAck ack).length = ackSize ack := by
  simp [writeAck, ackSize]

@[simp]
theorem length_writePayload (payload : Payload) :
    (writePayload payload).length = payloadSize payload := by
  cases payload <;>
    simp [writePayload, payloadSize, natSize, length_writeList length_writeEntry,
      length_writeList length_writeAck] <;>
    omega

end Wire

@[simp]
theorem Packet.length_write (packet : Packet) : packet.write.length = packet.packedSize := by
  simp [write, packedSize]

end ClusterMembership
