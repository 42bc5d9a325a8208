import ClusterMembership.Frame
import ClusterMembership.Wire.PacketForm

/-!
# Packing packets into datagrams

A codec packs a packet, within the packer's size limit, and signs the packed
form.  It also decides how many gossip entries one datagram takes, and splits a
list of entries into as few datagrams as a greedy choice from the front gives.

Three limits meet here: the packer's own, the datagram size a caller asks for
(less the overhead of the frame), and the largest payload a frame can announce.
The sizes are computed from the entries; nothing is packed just to be measured.
-/

namespace ClusterMembership

/-- Packs and signs outgoing packets, verifies and reads incoming ones. -/
structure Codec where
  /-- The largest packed form, in bytes. -/
  limit : Nat := 65535
  signer : Signer

/-- The packed form of a packet, unless it is larger than the limit. -/
def Packet.pack (limit : Nat) (packet : Packet) : Except Wire.WireError Bytes :=
  if packet.packedSize ≤ limit then .ok packet.write else .error .overLimit

namespace Carrier

/-- The part of the packed size that does not depend on the entries. -/
def fixedSize : Carrier → Nat
  | .ping source request => Wire.nameSize source + 1 + Wire.natSize request
  | .ack source request => Wire.nameSize source + 1 + Wire.natSize request
  | .gossip source => Wire.nameSize source + 1

/-- The packed size around `count` entries of `body` bytes in all. -/
def sizeWith (carrier : Carrier) (count body : Nat) : Nat :=
  carrier.fixedSize + Wire.natSize count + body

/-- The packed size of a wrapped list is known from its length and its entries' sizes. -/
theorem packedSize_wrap (carrier : Carrier) (entries : List GossipEntry) :
    (carrier.wrap entries).packedSize =
      carrier.sizeWith entries.length (Wire.bodySize Wire.entrySize entries) := by
  cases carrier <;>
    simp [wrap, Packet.packedSize, Wire.payloadSize, Wire.listSize, sizeWith, fixedSize] <;>
    omega

end Carrier

namespace Codec

/-- The codec keyed with a cluster secret, with the default limit and version. -/
def ofSecret (secret : Bytes) : Except GossipError Codec := do
  return { signer := ← Signer.ofSecret secret }

/-- Why a packet cannot be encoded, if it cannot. -/
def check (codec : Codec) (packet : Packet) : Except GossipError Unit :=
  if packet.packedSize > codec.limit then
    .error (.codec .overLimit)
  else if packet.packedSize > Frame.maxPayload then
    .error (.signature (.payloadTooLarge packet.packedSize))
  else
    .ok ()

/-- Whether a packet can be encoded. -/
def admits (codec : Codec) (packet : Packet) : Bool :=
  packet.packedSize ≤ codec.limit ∧ packet.packedSize ≤ Frame.maxPayload

/-- The signed datagram of a packet. -/
def encode (codec : Codec) (salt : Salt) (packet : Packet) : Except GossipError Bytes := do
  codec.check packet
  return codec.signer.frame salt packet.write

/-- The packet of a signed datagram. -/
def decode (codec : Codec) (data : Bytes) : Except GossipError Packet :=
  match codec.signer.verify data with
  | .error cause => .error (.signature cause)
  | .ok payload =>
    match Packet.read payload with
    | .error cause => .error (.codec cause)
    | .ok packet => .ok packet

/-- The room for a packed packet in a datagram of `maxSize` bytes. -/
def budget (maxSize : Nat) : Nat :=
  maxSize - Frame.overhead

/--
Count the leading entries that fit behind `count` entries of `body` bytes.  A
packet over the packer's limit is an error even where a smaller one would do.
-/
def fitFrom
    (codec : Codec)
    (carrier : Carrier)
    (room : Nat) :
    List GossipEntry → (count body : Nat) → Except Wire.WireError Nat
  | [], count, _ => .ok count
  | entry :: rest, count, body =>
    let grown := body + Wire.entrySize entry
    let size := carrier.sizeWith (count + 1) grown
    if size > codec.limit then
      .error .overLimit
    else if size > room then
      .ok count
    else
      codec.fitFrom carrier room rest (count + 1) grown

/-- The number of leading entries that fit one datagram of `maxSize` bytes. -/
def fit
    (codec : Codec)
    (carrier : Carrier)
    (maxSize : Nat)
    (entries : List GossipEntry) :
    Except Wire.WireError Nat :=
  codec.fitFrom carrier (budget maxSize) entries 0 0

/-- The packet with as many leading entries as fit, or with none when packing fails. -/
def fitted
    (codec : Codec)
    (carrier : Carrier)
    (maxSize : Nat)
    (entries : List GossipEntry) :
    Packet :=
  match codec.fit carrier maxSize entries with
  | .ok count => carrier.wrap (entries.take count)
  | .error _ => carrier.wrap []

/--
The packets that carry a list of entries in datagrams of at most `maxSize`
bytes, each with as many entries as fit.  An entry too large for a datagram of
its own is dropped.
-/
def batches
    (codec : Codec)
    (carrier : Carrier)
    (maxSize : Nat)
    (entries : List GossipEntry) :
    Except GossipError (List Packet) :=
  match entries with
  | [] => .ok []
  | entry :: rest =>
    match codec.fit carrier maxSize (entry :: rest) with
    | .error cause => .error (.codec cause)
    | .ok 0 => codec.batches carrier maxSize rest
    | .ok (more + 1) => do
      let packet := carrier.wrap (entry :: rest.take more)
      codec.check packet
      return packet :: (← codec.batches carrier maxSize (rest.drop more))
  termination_by entries.length
  decreasing_by
    · simp only [List.length_cons]
      omega
    · simp only [List.length_cons, List.length_drop]
      omega

/-- Encode packets in order, each with a salt of its own. -/
def encodeAll
    (codec : Codec) :
    List (Salt × Packet) → Except GossipError (List Bytes)
  | [] => .ok []
  | (salt, packet) :: rest => do
    let datagram ← codec.encode salt packet
    return datagram :: (← codec.encodeAll rest)

/-- The debug text of a codec. -/
def debugText (codec : Codec) : String :=
  s!"Codec \x7b signatures: {codec.signer.debugText}, .. \x7d"

end Codec

end ClusterMembership
