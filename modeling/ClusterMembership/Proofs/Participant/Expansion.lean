import ClusterMembership.Proofs.Participant.Steady
import ClusterMembership.Proofs.Table.Decisions

/-!
# Acts that change the table

A participant changes its rows when it handles a packet, when it records the outcome
of a probe, when it sweeps, and when it changes its own row.  `Act.Expands` says of an
act at a state that the table grows, by which claims and receipts, and that the grown
table backs every packet the act sends.

The growth caused by a packet is limited to what the packet says: its claims, its
receipts, and an answer to claims about the node itself.
-/

namespace ClusterMembership

/-- What handling a packet may make a table adopt. -/
def Packet.Claims (packet : Packet) (own : MemberName) (claim : Claim) : Prop :=
  (∃ entry ∈ packet.entries, claim = entry.claim) ∨ claim.name = own

/-- What handling a packet may make a table record: receipts, and the receipt of each entry. -/
def Packet.Receipts (packet : Packet) : Table.Receipts := fun peer ack =>
  peer = packet.source ∧ ((∃ entry ∈ packet.entries, ack = entry.ack) ∨ ack ∈ packet.acks)

namespace Act

variable
    {α β : Type}
    {claims : Claim → Prop}
    {receipts : Table.Receipts}
    {passed : List GossipEntry}
    {state : Participant}

/-- An act that grows the table and sends packets the grown table backs. -/
structure Expands
    (claims : Claim → Prop)
    (receipts : Table.Receipts)
    (passed : List GossipEntry)
    (act : Act α)
    (state : Participant) :
    Prop where
  table : Table.Grows claims receipts state.table (act state).state.table
  sent : ∀ flight ∈ (act state).sent, flight.packet.BackedBy passed (act state).state.table

theorem Steady.expands
    {act : Act α}
    (steady : Steady passed act state)
    (sound : state.table.Sound)
    (claims : Claim → Prop)
    (receipts : Table.Receipts) :
    Expands claims receipts passed act state := by
  constructor
  · exact steady.table.grows sound claims receipts
  · intro flight member
    exact steady.table.backedBy (steady.sent flight member)

namespace Expands

/-- After the table has grown, steady acts may follow. -/
theorem bind
    {first : Act α}
    {next : α → Act β}
    (before : Expands claims receipts passed first state)
    (after :
      (first state).state.table.Sound →
        Steady passed (next (first state).answer) (first state).state) :
    Expands claims receipts passed (first >>= next) state := by
  have following := after before.table.sound
  constructor
  · exact before.table.trans (following.table.grows before.table.sound claims receipts)
  · intro flight member
    rcases List.mem_append.1 member with earlier | later
    · exact following.table.backedBy (before.sent flight earlier)
    · exact following.table.backedBy (following.sent flight later)

/-- Reading the state first changes nothing. -/
theorem read
    {next : Participant → Act β}
    (after : Expands claims receipts passed (next state) state) :
    Expands claims receipts passed (Act.state >>= next) state :=
  ⟨after.table, after.sent⟩

theorem onTable
    {change : Table → Table.Outcome α}
    (grows : Table.Grows claims receipts state.table (change state.table).table) :
    Expands claims receipts passed (Act.onTable change) state := by
  constructor
  · exact grows
  · intro flight member
    cases member

end Expands

end Act

namespace Participant

open Act

variable {state : Participant}

/-! ## Packets -/

/-- Merging the entries of a packet grows the table by what the packet says. -/
theorem expands_mergeEntries
    (sound : state.table.Sound)
    (now : Instant)
    (packet : Packet) :
    Expands (packet.Claims state.table.own.name) packet.Receipts packet.entries
      (mergeEntries now packet.source packet.entries) state := by
  refine (Expands.onTable ?_).bind fun _ => .pure ()
  apply (sound.grows_mergeAll now packet.source packet.entries).mono (fun _ claimed => claimed)
  rintro peer ack ⟨source, entry⟩
  exact ⟨source, Or.inl entry⟩

/-- Once merged, the entries of a packet are held. -/
theorem holds_mergeEntries
    (sound : state.table.Sound)
    (now : Instant)
    (source : MemberName)
    (entries : List GossipEntry) :
    Table.Holds entries (mergeEntries now source entries state).state.table :=
  fun _ member => sound.le_clockOf_mergeAll now source member

/-- Handling a packet grows the table by what the packet says. -/
theorem expands_receive
    (sound : state.table.Sound)
    (now : Instant)
    (packet : Packet) :
    Expands (packet.Claims state.table.own.name) packet.Receipts packet.entries
      (receive now packet) state := by
  have merged := expands_mergeEntries sound now packet
  have held := holds_mergeEntries sound now packet.source packet.entries
  rcases packet with ⟨source, payload⟩
  refine .read ?_
  dsimp only
  split
  · exact (Steady.pure none).expands sound _ _
  · cases payload with
    | ping request gossip =>
      refine merged.bind fun mergedSound => ?_
      exact .bind (steady_sendAck mergedSound source request) fun _ => .pure none
    | pingRequest request target =>
      refine Steady.expands (.read ?_) sound _ _
      dsimp only
      split
      · exact .bind (steady_sendAck sound source request) fun _ => .pure none
      · exact .bind (steady_relayPing sound now source request target) fun _ => .pure none
    | ack request gossip =>
      refine merged.bind fun mergedSound => ?_
      refine .read ?_
      split
      · exact steady_noteAck _
      · exact .bind (steady_forwardAck held request) fun _ => .pure none
    | gossip entries =>
      refine merged.bind fun mergedSound => ?_
      refine .read (.bind (.send ⟨rfl, ?_, ?_⟩) fun _ => .pure none)
      · intro entry member
        cases member
      · intro ack member
        rcases List.mem_map.1 member with ⟨entry, received, rfl⟩
        exact held entry received
    | gossipAck acks =>
      have recorded : Expands
          (Packet.Claims { source, payload := .gossipAck acks } state.table.own.name)
          (Packet.Receipts { source, payload := .gossipAck acks }) []
          (Act.modify fun participant =>
            { participant with table := participant.table.recordAcks source acks }) state := by
        constructor
        · apply (sound.grows_recordAcks source acks).mono (fun _ absurd => absurd.elim)
          rintro peer ack ⟨here, member⟩
          exact ⟨here, Or.inr member⟩
        · intro flight member
          cases member
      exact recorded.bind fun _ => .pure none

/-! ## Decisions -/

/-- The outcome of a probe is a decision about its target. -/
theorem expands_recordProbe
    (sound : state.table.Sound)
    (now : Instant)
    (target : MemberName)
    (answered : Bool) :
    Expands (fun _ => True) (fun _ _ => False) [] (recordProbe now target answered) state := by
  refine .read ?_
  cases state.table.find? target with
  | none => exact (Steady.pure false).expands sound _ _
  | some member =>
    dsimp only
    cases probedStatus? answered member.status with
    | none => exact (Steady.pure true).expands sound _ _
    | some status =>
      refine (Expands.onTable ?_).bind fun _ => .pure true
      exact sound.decides_apply now target status

/-- A sweep that drops nobody moves members on. -/
theorem expands_sweep
    (sound : state.table.Sound)
    {now : Instant}
    (retained : state.table.duePrunes state.timeouts now = []) :
    Expands (fun _ => True) (fun _ _ => False) [] (sweep now) state := by
  refine .read ?_
  refine (Expands.onTable (sound.decides_expire retained)).bind fun _ => ?_
  dsimp only
  split
  · refine .bind steady_pruneTargets fun _ => ?_
    exact .bind (steady_dropStaleRelays now) fun _ => .pure _
  · exact .bind (steady_dropStaleRelays now) fun _ => .pure _

/-- New metadata change the own row only. -/
theorem expands_setMetadata (sound : state.table.Sound) (payload : Bytes) :
    Expands (fun claim => claim.name = state.table.own.name) (fun _ _ => False) []
      (Act.onTable (·.setMetadata payload)) state :=
  .onTable (sound.grows_setMetadata payload)

/-- A departure changes the own row, and tells others this row. -/
theorem expands_leave (sound : state.table.Sound) (now : Instant) :
    Expands (fun claim => claim.name = state.table.own.name) (fun _ _ => False) []
      (Participant.leave now) state := by
  refine (Expands.onTable (sound.grows_leave now)).bind fun _ => ?_
  refine .read (steady_disseminate _ ?_)
  intro entry member
  have announced : (state.table.leave now).answer = (state.table.leave now).table.own.entry := by
    rw [Table.leave]
    split <;> rfl
  rcases List.mem_singleton.1 member with rfl
  rw [Act.onTable, announced]
  exact Table.backs_own [] _

end Participant

end ClusterMembership
