import ClusterMembership.Codec
import ClusterMembership.Proofs.Wire.Forms

/-!
# Packed packets

The wire gives every number and every length eight bytes.  `Packet.Packable` says that a packet
keeps to that, which every packet does whose numbers are words and whose parts can be held in
a memory.  Each part of a packet has a reader and a writer that belong together, `Wire.Codes`,
and so has the packet.

The packed form of a packet is therefore exact: it is read back, nothing that begins it or
begins with it is read, and it is the shortest form the packet has.
-/

namespace ClusterMembership

/-! ## What can be packed -/

/-- The name has a length of eight bytes. -/
def MemberName.Packable (name : MemberName) : Prop :=
  name.text.utf8ByteSize < Bytes.capacity 8

instance (name : MemberName) : Decidable name.Packable :=
  inferInstanceAs (Decidable (_ < _))

/-- Clock and length of metadata have eight bytes. -/
structure Metadata.Packable (metadata : Metadata) : Prop where
  clock : metadata.clock < Bytes.capacity 8
  payload : ∀ bytes ∈ metadata.payload, bytes.length < Bytes.capacity 8

instance (metadata : Metadata) : Decidable metadata.Packable :=
  decidable_of_iff
    (metadata.clock < Bytes.capacity 8 ∧ ∀ bytes ∈ metadata.payload, bytes.length < Bytes.capacity 8)
    ⟨fun parts => ⟨parts.1, parts.2⟩, fun packable => ⟨packable.clock, packable.payload⟩⟩

/-- Clocks and lengths of an entry have eight bytes. -/
structure GossipEntry.Packable (entry : GossipEntry) : Prop where
  name : entry.name.Packable
  clock : entry.clock < Bytes.capacity 8
  metadata : ∀ metadata ∈ entry.metadata, metadata.Packable

instance (entry : GossipEntry) : Decidable entry.Packable :=
  decidable_of_iff
    (entry.name.Packable ∧ entry.clock < Bytes.capacity 8 ∧ ∀ metadata ∈ entry.metadata, metadata.Packable)
    ⟨fun parts => ⟨parts.1, parts.2.1, parts.2.2⟩,
      fun packable => ⟨packable.name, packable.clock, packable.metadata⟩⟩

/-- Clock and length of a receipt have eight bytes. -/
structure EntryAck.Packable (ack : EntryAck) : Prop where
  name : ack.name.Packable
  clock : ack.clock < Bytes.capacity 8

instance (ack : EntryAck) : Decidable ack.Packable :=
  decidable_of_iff (ack.name.Packable ∧ ack.clock < Bytes.capacity 8)
    ⟨fun parts => ⟨parts.1, parts.2⟩, fun packable => ⟨packable.name, packable.clock⟩⟩

/-- Request numbers, clocks and lengths of a payload have eight bytes. -/
def Payload.Packable : Payload → Prop
  | .ping request entries | .ack request entries =>
    request < Bytes.capacity 8 ∧ entries.length < Bytes.capacity 8 ∧ ∀ entry ∈ entries, entry.Packable
  | .pingRequest request target => request < Bytes.capacity 8 ∧ target.Packable
  | .gossip entries => entries.length < Bytes.capacity 8 ∧ ∀ entry ∈ entries, entry.Packable
  | .gossipAck acks => acks.length < Bytes.capacity 8 ∧ ∀ ack ∈ acks, ack.Packable

instance (payload : Payload) : Decidable payload.Packable := by
  cases payload <;> exact inferInstanceAs (Decidable (_ ∧ _))

/-- Every number and every length of a packet has eight bytes. -/
structure Packet.Packable (packet : Packet) : Prop where
  source : packet.source.Packable
  payload : packet.payload.Packable

instance (packet : Packet) : Decidable packet.Packable :=
  decidable_of_iff (packet.source.Packable ∧ packet.payload.Packable)
    ⟨fun parts => ⟨parts.1, parts.2⟩, fun packable => ⟨packable.source, packable.payload⟩⟩

namespace Wire

open Reader

/-! ## The parts of a packet -/

theorem codes_readName : Codes readName writeName MemberName.Packable := by
  refine codes_readText.construct MemberName.mk (fun text => rfl) fun name => ?_
  constructor
  · intro packable
    exact ⟨name.text, rfl, packable⟩
  · rintro ⟨text, rfl, short⟩
    exact short

theorem statusIndex_lt (status : Status) : statusIndex status < 4 := by
  cases status <;> decide

theorem codes_readStatus : Codes readStatus writeStatus (fun _ => True) := by
  refine Codes.variant statusIndex (fun _ => []) (fun number => ?_) ?_ ?_
  · split
    · exact .constant fun status => by cases status <;> simp [statusIndex]
    · exact .constant fun status => by cases status <;> simp [statusIndex]
    · exact .constant fun status => by cases status <;> simp [statusIndex]
    · exact .constant fun status => by cases status <;> simp [statusIndex]
    · refine .refused _ fun status => ?_
      rintro ⟨rfl, -⟩
      have small := statusIndex_lt status
      grind
  · intro status
    exact Nat.lt_trans (statusIndex_lt status) (by decide)
  · intro status
    exact (List.append_nil _).symm

theorem codes_readMetadata : Codes readMetadata writeMetadata Metadata.Packable := by
  refine codes_readNat.construct₂ codes_readBytes.option Metadata.mk (fun clock payload => rfl)
    fun metadata => ?_
  constructor
  · intro packable
    exact ⟨metadata.clock, metadata.payload, rfl, packable.clock, packable.payload⟩
  · rintro ⟨clock, payload, rfl, word, short⟩
    exact ⟨word, short⟩

theorem codes_readEntry : Codes readEntry writeEntry GossipEntry.Packable := by
  constructor
  · rintro ⟨name, clock, status, metadata⟩ ⟨named, word, known⟩
    have parts : readEntry.Takes
        (writeName name ++ (writeNat clock ++ (writeStatus status ++
          (writeOption writeMetadata metadata ++ [])))) { name, clock, status, metadata } :=
      (codes_readName.written name named).bind ((takes_readNat word).bind
        ((codes_readStatus.written status trivial).bind
          ((codes_readMetadata.option.written metadata known).bind (takes_pure _))))
    simpa [writeEntry] using parts
  · have parts := codes_readName.shortest.bind fun name => reads_readNat.bind fun clock =>
      codes_readStatus.shortest.bind fun status =>
        codes_readMetadata.option.shortest.bind fun metadata =>
          reads_pure (GossipEntry.mk name clock status metadata)
    apply parts.mono
    rintro _ _ ⟨name, first, _, rfl, ⟨named, short⟩, clock, second, _, rfl, ⟨word, shorter⟩,
      status, third, _, rfl, ⟨-, further⟩, metadata, fourth, _, rfl, ⟨known, shortest⟩, rfl, rfl⟩
    refine ⟨⟨named, word, known⟩, ?_⟩
    simp only [writeEntry, List.length_append, length_writeNat, List.append_nil]
    omega

theorem codes_readAck : Codes readAck writeAck EntryAck.Packable := by
  refine codes_readName.construct₂ codes_readNat EntryAck.mk (fun name clock => rfl)
    fun ack => ?_
  constructor
  · intro packable
    exact ⟨ack.name, ack.clock, rfl, packable.name, packable.clock⟩
  · rintro ⟨name, clock, rfl, named, word⟩
    exact ⟨named, word⟩

/-! ## Payloads and packets -/

/-- The index of the kind of a payload. -/
def payloadIndex : Payload → Nat
  | .ping .. => 0
  | .pingRequest .. => 1
  | .ack .. => 2
  | .gossip .. => 3
  | .gossipAck .. => 4

/-- What a payload carries, behind the index of its kind. -/
def writeCarried : Payload → Bytes
  | .ping request entries | .ack request entries => writeNat request ++ writeList writeEntry entries
  | .pingRequest request target => writeNat request ++ writeName target
  | .gossip entries => writeList writeEntry entries
  | .gossipAck acks => writeList writeAck acks

theorem payloadIndex_lt (payload : Payload) : payloadIndex payload < 5 := by
  cases payload <;> simp [payloadIndex]

theorem writePayload_eq (payload : Payload) :
    writePayload payload = writeNat (payloadIndex payload) ++ writeCarried payload := by
  cases payload <;> simp [writePayload, writeCarried, payloadIndex]

theorem codes_readPayload : Codes readPayload writePayload Payload.Packable := by
  refine Codes.variant payloadIndex writeCarried (fun number => ?_) ?_ writePayload_eq
  · split
    · refine codes_readNat.construct₂ codes_readEntry.list Payload.ping (fun _ _ => rfl)
        fun payload => ?_
      cases payload <;> simp [payloadIndex, Payload.Packable, and_assoc]
    · refine codes_readNat.construct₂ codes_readName Payload.pingRequest (fun _ _ => rfl)
        fun payload => ?_
      cases payload <;> simp [payloadIndex, Payload.Packable, and_assoc]
    · refine codes_readNat.construct₂ codes_readEntry.list Payload.ack (fun _ _ => rfl)
        fun payload => ?_
      cases payload <;> simp [payloadIndex, Payload.Packable, and_assoc]
    · refine codes_readEntry.list.construct Payload.gossip (fun _ => rfl) fun payload => ?_
      cases payload <;> simp [payloadIndex, Payload.Packable]
    · refine codes_readAck.list.construct Payload.gossipAck (fun _ => rfl) fun payload => ?_
      cases payload <;> simp [payloadIndex, Payload.Packable]
    · refine .refused _ fun payload => ?_
      rintro ⟨rfl, -⟩
      have small := payloadIndex_lt payload
      grind
  · intro payload
    exact Nat.lt_trans (payloadIndex_lt payload) (by decide)

theorem codes_reader : Codes Packet.reader Packet.write Packet.Packable := by
  refine codes_readName.construct₂ codes_readPayload Packet.mk (fun source payload => rfl)
    fun packet => ?_
  constructor
  · intro packable
    exact ⟨packet.source, packet.payload, rfl, packable.source, packable.payload⟩
  · rintro ⟨source, payload, rfl, named, known⟩
    exact ⟨named, known⟩

end Wire

namespace Packet

/-! ## The packed form is exact -/

theorem pack_eq (limit : Nat) (packet : Packet) :
    packet.pack limit =
      if packet.write.length ≤ limit then .ok packet.write else .error .overLimit := by
  rw [pack, length_write]

/--
The packed form of a packet is exact, prefix-free and the shortest.  A packet is packed exactly
when its packed form keeps within the limit; the packed form is read back; and neither a part
of it that is cut off nor anything longer that begins with it is read at all.  Conversely, of
whatever bytes a packet is read, it can be packed, and its packed form is no longer than the
bytes and is read as the same packet.
-/
theorem packed_form_is_exact :
    (∀ packet : Packet, packet.Packable →
      (∀ limit : Nat,
        (packet.write.length ≤ limit → packet.pack limit = .ok packet.write) ∧
        (limit < packet.write.length → packet.pack limit = .error .overLimit)) ∧
      Packet.read packet.write = .ok packet ∧
      (∀ part, part <+: packet.write → part ≠ packet.write →
        ∃ cause, Packet.read part = .error cause) ∧
      (∀ more, more ≠ [] → ∃ cause, Packet.read (packet.write ++ more) = .error cause)) ∧
    (∀ bytes packet, Packet.read bytes = .ok packet →
      packet.Packable ∧ packet.write.length ≤ bytes.length ∧
        Packet.read packet.write = .ok packet) := by
  have codes := Wire.codes_reader
  constructor
  · intro packet packable
    have takes := codes.written packet packable
    refine ⟨?_, codes.runWhole_write packable, ?_, ?_⟩
    · intro limit
      rw [pack_eq]
      exact ⟨fun fits => if_pos fits, fun exceeds => if_neg (Nat.not_le.2 exceeds)⟩
    · intro part begins shorter
      exact codes.exists_error takes (Or.inl begins) shorter
    · intro more added
      refine codes.exists_error takes (Or.inr (List.prefix_append _ _)) ?_
      simpa using added
  · intro bytes packet found
    rcases codes.length_write_le found with ⟨packable, short⟩
    exact ⟨packable, short, codes.runWhole_write packable⟩

/--
A ping with numbers at the widths' ends is read back, not with a byte behind it, and not packed
into nothing; and an empty gossip packet whose length is written in three bytes has a shorter form.
-/
theorem packed_form_is_exact_ping :
    let entry : GossipEntry :=
      { name := { text := "größe" }, clock := 250, status := .suspect
        metadata := some { clock := 65536, payload := some [0, 255] } }
    let packet : Packet :=
      { source := { text := "10.0.0.1:7946" }, payload := .ping (Bytes.capacity 8 - 1) [entry] }
    let wide : Bytes := [1, 97, 3, 251, 0, 0]
    let idle : Packet := { source := { text := "a" }, payload := .gossip [] }
    (packet.Packable ∧ Packet.read packet.write = .ok packet ∧
      packet.pack 0 = .error .overLimit ∧
      ∃ cause, Packet.read (packet.write ++ [0]) = .error cause) ∧
    (Packet.read wide = .ok idle ∧ idle.write.length ≤ wide.length) := by
  intro entry packet wide idle
  have packable : packet.Packable := by decide
  have read : Packet.read wide = .ok idle := rfl
  rcases packed_form_is_exact with ⟨packed, reread⟩
  rcases packed packet packable with ⟨limits, back, -, longer⟩
  have nonempty : 0 < packet.write.length := by
    rw [length_write]
    decide
  have cut := (limits 0).2 nonempty
  exact ⟨⟨packable, back, cut, longer [0] (List.cons_ne_nil _ _)⟩, read,
    (reread wide idle read).2.1⟩

end Packet

end ClusterMembership
