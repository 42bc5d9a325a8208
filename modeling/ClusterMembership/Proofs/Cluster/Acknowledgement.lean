import ClusterMembership.Proofs.Cluster.Exchange

/-!
# Acknowledgement is sound

A node stops telling a peer about a member once the peer is known to hold the member at
the clock in question.  If an ack were ever ahead of what the peer holds, the update
would be withheld for good.

`Cluster.Sincere` is the invariant that excludes this.  Besides the acks it covers the
packets on their way: each comes from a node that by now holds whatever the packet says.
A relay passes on entries under its own name, which keeps the invariant because it has
merged them before.
-/

namespace ClusterMembership

namespace Table

/-- A table covers a packet when it is at least as new as everything the packet says. -/
structure Covers (table : Table) (packet : Packet) : Prop where
  entries : Holds packet.entries table
  acks : ∀ ack ∈ packet.acks, ack.clock ≤ table.clockOf ack.name

theorem covers_of_backedBy
    {passed : List GossipEntry}
    {table : Table}
    {packet : Packet}
    (backed : packet.BackedBy passed table) :
    table.Covers packet :=
  ⟨fun entry member => (backed.entries entry member).held, backed.acks⟩

/-- A newer table covers what an older one did. -/
theorem Covers.mono
    {before after : Table}
    {packet : Packet}
    (covers : before.Covers packet)
    (newer : ∀ name, before.clockOf name ≤ after.clockOf name) :
    after.Covers packet := by
  constructor
  · intro entry member
    exact Nat.le_trans (covers.entries entry member) (newer entry.name)
  · intro ack member
    exact Nat.le_trans (covers.acks ack member) (newer ack.name)

/-- What a covered packet makes a receiver record, the table holds. -/
theorem Covers.receipt
    {table : Table}
    {packet : Packet}
    (covers : table.Covers packet)
    {peer : MemberName}
    {ack : EntryAck}
    (received : packet.Receipts peer ack) :
    ack.clock ≤ table.clockOf ack.name := by
  rcases received with ⟨-, ⟨entry, member, rfl⟩ | member⟩
  · exact covers.entries entry member
  · exact covers.acks ack member

end Table

namespace Cluster

variable {Node : Type}

/-- Whatever is acknowledged or on its way is held where it came from. -/
structure Sincere (cluster : Cluster Node) : Prop where
  distinct : Function.Injective cluster.name
  tables : ∀ node : Node, (cluster.table node).Sound
  flights : ∀ flight ∈ cluster.flights, ∃ node : Node,
    flight.packet.source = cluster.name node ∧ (cluster.table node).Covers flight.packet
  acks : Table.AcksHeld cluster.table

/-- Nodes that have just started have acknowledged nothing. -/
theorem sincere_founded
    {profiles : Node → Profile}
    (distinct : Function.Injective fun node => (profiles node).name) :
    Sincere (founded profiles) := by
  have named : (founded profiles).name = fun node => (profiles node).name := by
    funext node
    simp [name, table, founded, Table.own_start]
  constructor
  · rw [named]
    exact distinct
  · intro node
    exact Table.sound_start _ _ _ _
  · intro flight member
    cases member
  · intro holder peer name
    have unknown :
        ((founded profiles).table holder).acked ((founded profiles).name peer) name = 0 :=
      Table.acked_start _ _ _ _ _ _
    exact Nat.le_trans (Nat.le_of_eq unknown) (Nat.zero_le _)

/-- Losing and duplicating packets brings no packet from elsewhere. -/
theorem Sincere.reroute
    {cluster : Cluster Node}
    (sincere : Sincere cluster)
    {flights : List Outgoing}
    (known : ∀ flight ∈ flights, flight ∈ cluster.flights) :
    Sincere { cluster with flights } :=
  ⟨sincere.distinct, sincere.tables,
    fun flight member => sincere.flights flight (known flight member), sincere.acks⟩

/-- Nodes with nothing outstanding for each other hold every member at the same clock. -/
theorem Sincere.clockOf_eq
    {cluster : Cluster Node}
    (sincere : Sincere cluster)
    {first second : Node}
    (forth : ∀ count, (cluster.table first).gossip (cluster.name second) count = [])
    (back : ∀ count, (cluster.table second).gossip (cluster.name first) count = [])
    (name : MemberName) :
    (cluster.table first).clockOf name = (cluster.table second).clockOf name := by
  apply Nat.le_antisymm
  · exact Nat.le_trans ((sincere.tables first).clockOf_le_acked forth name)
      (sincere.acks first second name)
  · exact Nat.le_trans ((sincere.tables second).clockOf_le_acked back name)
      (sincere.acks second first name)

variable [DecidableEq Node]

namespace Moves

variable
    {claims : Claim → Prop}
    {receipts : Table.Receipts}
    {passed : List GossipEntry}
    {node : Node}
    {before after : Cluster Node}

/-- Whoever moves keeps its name. -/
theorem name (moves : Moves claims receipts passed node before after) :
    after.name = before.name := by
  funext other
  by_cases same : other = node
  · rw [same]
    exact moves.table.advances.own
  · rw [Cluster.name, Cluster.name, moves.others other same]

/-- Every node holds every member at a clock at least as new as before. -/
theorem clockOf_le
    (moves : Moves claims receipts passed node before after)
    (other : Node)
    (name : MemberName) :
    (before.table other).clockOf name ≤ (after.table other).clockOf name := by
  by_cases same : other = node
  · rw [same]
    exact moves.table.advances.clockOf_le name
  · rw [moves.others other same]

end Moves

/-- A cluster stays sincere when a node records only receipts of what is held. -/
theorem Sincere.moves
    {claims : Claim → Prop}
    {receipts : Table.Receipts}
    {passed : List GossipEntry}
    {node : Node}
    {before after : Cluster Node}
    (sincere : Sincere before)
    (moves : Moves claims receipts passed node before after)
    (held : ∀ peer ack, receipts (before.name peer) ack →
      ack.clock ≤ (before.table peer).clockOf ack.name) :
    Sincere after := by
  constructor
  · rw [moves.name]
    exact sincere.distinct
  · intro other
    by_cases same : other = node
    · rw [same]
      exact moves.table.sound
    · rw [moves.others other same]
      exact sincere.tables other
  · intro flight member
    rcases moves.flights flight member with earlier | sent
    · rcases sincere.flights flight earlier with ⟨sender, source, covers⟩
      refine ⟨sender, ?_, covers.mono (moves.clockOf_le sender)⟩
      rw [moves.name]
      exact source
    · exact ⟨node, sent.source, Table.covers_of_backedBy sent⟩
  · have tables : after.table = Function.update before.table node (after.table node) := by
      funext other
      by_cases same : other = node
      · rw [same, Function.update_self]
      · rw [Function.update_of_ne same, moves.others other same]
    show Table.AcksHeld after.table
    rw [tables]
    exact Table.AcksHeld.update sincere.acks moves.table held

/-- A node that a packet reaches moves on by what the packet says. -/
theorem moves_deliver
    {cluster : Cluster Node}
    {node : Node}
    (sound : (cluster.table node).Sound)
    (flight : Outgoing)
    (now : Instant) :
    Moves (flight.packet.Claims (cluster.name node)) flight.packet.Receipts flight.packet.entries
      node cluster (cluster.after (.deliver flight node now)) :=
  moves_of_expanded
    ((Participant.expands_receive sound now flight.packet).outcome fun _ claimed => claimed)
    fun _ kept => List.mem_of_mem_erase kept

/-- A node that acts of its own accord moves on by its decisions. -/
theorem moves_act
    {cluster : Cluster Node}
    {node : Node}
    (sound : (cluster.table node).Sound)
    {deed : Deed}
    {now : Instant}
    (retains : deed.Retains now (cluster.nodes node)) :
    Moves (fun _ => True) (fun _ _ => False) [] node cluster
      (cluster.after (.act node deed now)) :=
  moves_of_expanded (Deed.expanded sound retains) fun _ kept => kept

/-- One event keeps a cluster sincere. -/
theorem Sincere.after
    {cluster : Cluster Node}
    (sincere : Sincere cluster)
    {event : Event Node}
    (possible : cluster.Possible event) :
    Sincere (cluster.after event) := by
  cases event with
  | deliver flight node now =>
    apply sincere.moves (moves_deliver (sincere.tables node) flight now)
    intro peer ack received
    -- The packet was sent by the peer, since names are distinct, and the peer covers it.
    rcases sincere.flights flight possible.1 with ⟨sender, source, covers⟩
    have same : peer = sender := sincere.distinct (received.1.trans source)
    rw [same]
    exact covers.receipt received
  | lose flight => exact sincere.reroute fun _ kept => List.mem_of_mem_erase kept
  | duplicate flight =>
    refine sincere.reroute fun other member => ?_
    rcases List.mem_cons.1 member with rfl | kept
    · exact possible
    · exact kept
  | act node deed now =>
    apply sincere.moves (moves_act (sincere.tables node) possible)
    intro peer ack received
    exact received.elim

/-- Every cluster a run leads to is sincere. -/
theorem Run.sincere {issued : Claim → Prop} {cluster : Cluster Node} (run : Run issued cluster) :
    Sincere cluster := by
  induction run with
  | founded profiles distinct => exact sincere_founded distinct
  | step run event possible step => exact step.after possible

/--
However a run goes, what a node has recorded of a peer's acks the peer holds, for the
peer itself in its own row.  So an observed member that is left out of the gossip for a
peer, and not for lack of room, is held there at least at the same clock; and two nodes
that owe each other no gossip hold every member at the same clock.
-/
theorem acks_are_held
    {issued : Claim → Prop}
    {cluster : Cluster Node}
    (run : Run issued cluster) :
    (∀ (holder peer : Node) (name : MemberName),
      (cluster.table holder).acked (cluster.name peer) name ≤
        (cluster.table peer).clockOf name) ∧
    (∀ holder peer : Node,
      (cluster.table holder).acked (cluster.name peer) (cluster.name peer) ≤
        (cluster.table peer).own.clock) ∧
    (∀ (holder peer : Node) (count : Nat), ∀ row ∈ (cluster.table holder).members,
      row.isObserved →
      row.entry ∉ (cluster.table holder).gossip (cluster.name peer) count →
      row.entry ∈ ((cluster.table holder).outstanding (cluster.name peer)).drop count ∨
        row.clock ≤ (cluster.table peer).clockOf row.name) ∧
    (∀ first second : Node,
      (∀ count, (cluster.table first).gossip (cluster.name second) count = []) →
      (∀ count, (cluster.table second).gossip (cluster.name first) count = []) →
      ∀ name : MemberName,
        (cluster.table first).clockOf name = (cluster.table second).clockOf name) := by
  have sincere := run.sincere
  refine ⟨sincere.acks, ?_, ?_, ?_⟩
  · intro holder peer
    have held := sincere.acks holder peer (cluster.name peer)
    rwa [name, Table.clockOf_own] at held
  · intro holder peer count row member observed omitted
    by_cases outstanding : row.entry ∈ (cluster.table holder).outstanding (cluster.name peer)
    · rw [← List.take_append_drop count ((cluster.table holder).outstanding (cluster.name peer))]
        at outstanding
      exact Or.inl ((List.mem_append.1 outstanding).resolve_left omitted)
    · have acknowledged := Table.le_acked_of_not_outstanding member observed outstanding
      exact Or.inr (Nat.le_trans acknowledged (sincere.acks holder peer row.name))
  · intro first second forth back name
    exact sincere.clockOf_eq forth back name

/-- In the pair where one node has pushed its row, its peer has a recorded ack for that row. -/
theorem acks_are_held_greeted :
    (∃ issued : Claim → Prop, Run issued (pair greeted)) ∧
    ((pair greeted).table .left).acked Side.right.label Side.right.label = 1 ∧
    1 ≤ ((pair greeted).table .right).own.clock := by
  have recorded : ((pair greeted).table .left).acked Side.right.label Side.right.label = 1 := by
    show (ackOf Side.right.label Side.right.label 1)[(Side.right.label,
      Side.right.label)]?.getD 0 = 1
    simp
  rcases exists_run_greeted with ⟨issued, run, -⟩
  refine ⟨⟨issued, run⟩, recorded, ?_⟩
  rw [← recorded]
  exact (acks_are_held run).2.1 .left .right

end Cluster

end ClusterMembership
