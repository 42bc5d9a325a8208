import ClusterMembership.Bytes
import ClusterMembership.Name
import ClusterMembership.Status

/-!
# Packets

Members exchange five kinds of packet.  Pings and their acks measure liveness
and carry gossip on the side; a ping request asks a third member to probe on the
sender's behalf; gossip packets push membership entries and are answered by a
receipt that names each entry with its clock.

Clocks and request numbers are natural numbers.  The wire format gives them
eight bytes, so the packets a reader returns always hold numbers below
`2 ^ 64`.
-/

namespace ClusterMembership

/-- Opaque metadata of a member, versioned by a clock of its own. -/
structure Metadata where
  clock : Nat
  payload : Option Bytes
  deriving DecidableEq, Inhabited, Repr

namespace Metadata

/-- The metadata of a member nothing has been heard from. -/
def unknown : Metadata := { clock := 0, payload := none }

/-- Whether the metadata has never been received. -/
def isUnknown (metadata : Metadata) : Bool :=
  metadata.clock = 0

end Metadata

/-- The state of one member as gossip carries it. -/
structure GossipEntry where
  name : MemberName
  clock : Nat
  status : Status
  /-- Absent while the sender has not received the member's metadata. -/
  metadata : Option Metadata
  deriving DecidableEq, Inhabited, Repr

/-- Confirms the receipt of one gossip entry at its clock. -/
structure EntryAck where
  name : MemberName
  clock : Nat
  deriving DecidableEq, Inhabited, Repr

/-- The receipt for an entry. -/
def GossipEntry.ack (entry : GossipEntry) : EntryAck :=
  { name := entry.name, clock := entry.clock }

/-- What a packet says. -/
inductive Payload where
  /-- A liveness probe, with gossip on the side. -/
  | ping (request : Nat) (gossip : List GossipEntry)
  /-- Asks the receiver to probe a target on the sender's behalf. -/
  | pingRequest (request : Nat) (target : MemberName)
  /-- The reply to a ping, correlated by its request number. -/
  | ack (request : Nat) (gossip : List GossipEntry)
  /-- A push of membership entries. -/
  | gossip (entries : List GossipEntry)
  /-- The receipt of gossip entries. -/
  | gossipAck (acks : List EntryAck)
  deriving DecidableEq, Inhabited, Repr

/-- A protocol packet with the name of the member that sent it. -/
structure Packet where
  source : MemberName
  payload : Payload
  deriving DecidableEq, Inhabited, Repr

/-- The kinds of packet. -/
inductive PacketKind where
  | ping
  | pingRequest
  | ack
  | gossip
  | gossipAck
  deriving DecidableEq, Inhabited, Repr

/-- The word for a kind of packet. -/
def PacketKind.word : PacketKind → String
  | .ping => "ping"
  | .pingRequest => "ping-req"
  | .ack => "ack"
  | .gossip => "gossip"
  | .gossipAck => "gossip-ack"

namespace Packet

/-- The kind of a packet. -/
def kind (packet : Packet) : PacketKind :=
  match packet.payload with
  | .ping .. => .ping
  | .pingRequest .. => .pingRequest
  | .ack .. => .ack
  | .gossip .. => .gossip
  | .gossipAck .. => .gossipAck

/-- The request number of the kinds that have one. -/
def request? (packet : Packet) : Option Nat :=
  match packet.payload with
  | .ping request _ | .pingRequest request _ | .ack request _ => some request
  | .gossip _ | .gossipAck _ => none

/-- The gossip entries of a packet, on the side or pushed. -/
def entries (packet : Packet) : List GossipEntry :=
  match packet.payload with
  | .ping _ gossip | .ack _ gossip => gossip
  | .gossip entries => entries
  | .pingRequest .. | .gossipAck .. => []

end Packet

/--
A packet that still lacks its gossip entries.  Fitting entries into datagrams
only ever happens for these three kinds.
-/
inductive Carrier where
  | ping (source : MemberName) (request : Nat)
  | ack (source : MemberName) (request : Nat)
  | gossip (source : MemberName)
  deriving DecidableEq, Inhabited, Repr

namespace Carrier

/-- The packet around a list of entries. -/
def wrap (carrier : Carrier) (entries : List GossipEntry) : Packet :=
  match carrier with
  | .ping source request => { source, payload := .ping request entries }
  | .ack source request => { source, payload := .ack request entries }
  | .gossip source => { source, payload := .gossip entries }

@[simp]
theorem entries_wrap (carrier : Carrier) (entries : List GossipEntry) :
    (carrier.wrap entries).entries = entries := by
  cases carrier <;> rfl

end Carrier

end ClusterMembership
