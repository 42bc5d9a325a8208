import ClusterMembership.Proofs.Participant.Expansion
import Mathlib.Logic.Function.Basic

/-!
# Runs of a cluster

A cluster is a family of participants together with the packets on their way.  In a run
anything may happen next: a packet arrives, is lost or is duplicated, in whatever order,
and any participant does something of its own accord.  Nobody restarts, and no sweep
drops a member.

A run also keeps the claims that were issued in it.  A claim is issued by the node that
comes to make it by a decision of its own, or because it is about the node itself.
Hearsay issues nothing.
-/

namespace ClusterMembership

/-- The participants of a cluster, and the packets on their way. -/
structure Cluster (Node : Type) where
  nodes : Node → Participant
  flights : List Outgoing

/-- How a node starts. -/
structure Profile where
  settings : ProtocolSettings
  codec : Codec
  name : MemberName
  metadata : Bytes
  /-- The members the node contacts first. -/
  seeds : List MemberName
  startedAt : Instant
  tape : Tape

/-- The participant of a node that starts now. -/
def Profile.participant (profile : Profile) : Participant :=
  .start profile.settings profile.codec
    (.start profile.name profile.metadata profile.seeds profile.startedAt) profile.tape

@[simp]
theorem Profile.table_participant (profile : Profile) :
    profile.participant.table =
      .start profile.name profile.metadata profile.seeds profile.startedAt :=
  rfl

theorem Profile.name_participant (profile : Profile) : profile.participant.name = profile.name := by
  rw [Participant.name, table_participant, Table.own_start]

/-! ## What a participant does of its own accord -/

/-- Something a participant does without being sent a packet. -/
inductive Deed where
  | beginCheck (target : MemberName)
  | askRelays (check : Nat)
  | concludeCheck (check : Nat)
  | abandonCheck (check : Nat)
  | recordProbe (target : MemberName) (answered : Bool)
  | nextProbe
  | gossipTo (target : MemberName)
  | gossipRound
  | sweep
  | setMetadata (payload : Bytes)
  | leave

/-- An act without its answer. -/
def Act.outcome {α : Type} (act : Act α) (state : Participant) : Participant × List Outgoing :=
  ((act state).state, (act state).sent)

/-- The participant that a deed leaves, and the packets it sends. -/
def Deed.perform (now : Instant) (state : Participant) : Deed → Participant × List Outgoing
  | .beginCheck target => (Participant.beginCheck target).outcome state
  | .askRelays check => (Participant.askRelays check).outcome state
  | .concludeCheck check => (Participant.concludeCheck check).outcome state
  | .abandonCheck check => (Participant.abandonCheck check).outcome state
  | .recordProbe target answered => (Participant.recordProbe now target answered).outcome state
  | .nextProbe => Participant.nextProbe.outcome state
  | .gossipTo target => (Participant.gossipTo target).outcome state
  | .gossipRound => Participant.gossipRound.outcome state
  | .sweep => (Participant.sweep now).outcome state
  | .setMetadata payload => (Act.onTable (·.setMetadata payload)).outcome state
  | .leave => (Participant.leave now).outcome state

/-- A deed that drops no member: only a sweep could. -/
def Deed.Retains (now : Instant) (state : Participant) : Deed → Prop
  | .sweep => state.table.duePrunes state.timeouts now = []
  | _ => True

/-- A participant after an expansion of its table, and the packets it sent meanwhile. -/
structure Expanded
    (claims : Claim → Prop)
    (receipts : Table.Receipts)
    (passed : List GossipEntry)
    (state : Participant)
    (outcome : Participant × List Outgoing) :
    Prop where
  table : Table.Grows claims receipts state.table outcome.1.table
  sent : ∀ flight ∈ outcome.2, flight.packet.BackedBy passed outcome.1.table

theorem Act.Expands.outcome
    {α : Type}
    {claims wider : Claim → Prop}
    {receipts : Table.Receipts}
    {passed : List GossipEntry}
    {act : Act α}
    {state : Participant}
    (expands : Act.Expands claims receipts passed act state)
    (claimed : ∀ claim, claims claim → wider claim) :
    Expanded wider receipts passed state (act.outcome state) :=
  ⟨expands.table.mono claimed fun _ _ received => received, expands.sent⟩

/-- Whatever a participant does of its own accord, its table grows by its decisions. -/
theorem Deed.expanded
    {now : Instant}
    {state : Participant}
    (sound : state.table.Sound)
    {deed : Deed}
    (retains : deed.Retains now state) :
    Expanded (fun _ => True) (fun _ _ => False) [] state (deed.perform now state) := by
  have steadily : ∀ {α : Type} {act : Act α}, Act.Steady [] act state →
      Expanded (fun _ => True) (fun _ _ => False) [] state (act.outcome state) := by
    intro α act steady
    exact (steady.expands sound (fun _ => True) (fun _ _ => False)).outcome fun _ _ => trivial
  cases deed with
  | beginCheck target => exact steadily (Participant.steady_beginCheck sound target)
  | askRelays check => exact steadily (Participant.steady_askRelays check)
  | concludeCheck check => exact steadily (Participant.steady_concludeCheck check)
  | abandonCheck check => exact steadily (Participant.steady_abandonCheck check)
  | recordProbe target answered =>
    exact (Participant.expands_recordProbe sound now target answered).outcome fun _ _ => trivial
  | nextProbe => exact steadily Participant.steady_nextProbe
  | gossipTo target => exact steadily (Participant.steady_gossipTo sound target)
  | gossipRound => exact steadily (Participant.steady_gossipRound sound)
  | sweep => exact (Participant.expands_sweep sound retains).outcome fun _ _ => trivial
  | setMetadata payload =>
    exact (Participant.expands_setMetadata sound payload).outcome fun _ _ => trivial
  | leave => exact (Participant.expands_leave sound now).outcome fun _ _ => trivial

/-! ## Events -/

namespace Cluster

variable {Node : Type}

/-- The table of a node. -/
def table (cluster : Cluster Node) (node : Node) : Table :=
  (cluster.nodes node).table

/-- The name of a node. -/
def name (cluster : Cluster Node) (node : Node) : MemberName :=
  (cluster.table node).own.name

/-- A cluster whose nodes have just started. -/
def founded (profiles : Node → Profile) : Cluster Node where
  nodes node := (profiles node).participant
  flights := []

/-- What may happen in a cluster. -/
inductive Event (Node : Type) where
  /-- A packet on its way arrives at a node. -/
  | deliver (flight : Outgoing) (node : Node) (now : Instant)
  /-- A packet on its way is lost. -/
  | lose (flight : Outgoing)
  /-- A packet on its way is there once more. -/
  | duplicate (flight : Outgoing)
  /-- A node does something of its own accord. -/
  | act (node : Node) (deed : Deed) (now : Instant)

/-- Whether an event can take place: packets arrive where they are sent, and nobody is dropped. -/
def Possible (cluster : Cluster Node) : Event Node → Prop
  | .deliver flight node _ => flight ∈ cluster.flights ∧ flight.target = cluster.name node
  | .lose flight => flight ∈ cluster.flights
  | .duplicate flight => flight ∈ cluster.flights
  | .act node deed now => deed.Retains now (cluster.nodes node)

variable [DecidableEq Node]

/-- A node moves on, and what it sends joins the packets on their way. -/
def move
    (cluster : Cluster Node)
    (node : Node)
    (outcome : Participant × List Outgoing)
    (flights : List Outgoing) :
    Cluster Node where
  nodes := Function.update cluster.nodes node outcome.1
  flights := flights ++ outcome.2

/-- The cluster after an event. -/
def after (cluster : Cluster Node) : Event Node → Cluster Node
  | .deliver flight node now =>
    cluster.move node ((Participant.receive now flight.packet).outcome (cluster.nodes node))
      (cluster.flights.erase flight)
  | .lose flight => { cluster with flights := cluster.flights.erase flight }
  | .duplicate flight => { cluster with flights := flight :: cluster.flights }
  | .act node deed now => cluster.move node (deed.perform now (cluster.nodes node)) cluster.flights

/-- Whether an event is something a node does of its own accord. -/
def Event.IsDeedOf (node : Node) : Event Node → Prop
  | .act actor _ _ => actor = node
  | .deliver .. | .lose _ | .duplicate _ => False

/--
An event issues a claim when a node comes to make the claim, at a newer clock, of its
own accord or about itself.
-/
def Issues (cluster : Cluster Node) (event : Event Node) (claim : Claim) : Prop :=
  ∃ node : Node,
    (((cluster.after event).table node).report claim.name).claim = claim ∧
      (cluster.table node).clockOf claim.name < claim.clock ∧
      (event.IsDeedOf node ∨ claim.name = cluster.name node)

/-- The clusters that runs lead to, with the claims issued on the way. -/
inductive Run : (Claim → Prop) → Cluster Node → Prop where
  /-- Nodes with distinct names start, and each claims to be online. -/
  | founded
      (profiles : Node → Profile)
      (distinct : Function.Injective fun node => (profiles node).name) :
      Run (fun claim => ∃ node, claim = (profiles node).participant.table.own.entry.claim)
        (founded profiles)
  | step
      {issued : Claim → Prop}
      {cluster : Cluster Node}
      (run : Run issued cluster)
      (event : Event Node)
      (possible : cluster.Possible event) :
      Run (fun claim => issued claim ∨ cluster.Issues event claim) (cluster.after event)

/-! ## How a cluster moves on -/

@[simp]
theorem table_move_self
    (cluster : Cluster Node)
    (node : Node)
    (outcome : Participant × List Outgoing)
    (flights : List Outgoing) :
    (cluster.move node outcome flights).table node = outcome.1.table := by
  simp [table, move]

theorem table_move_other
    (cluster : Cluster Node)
    {node other : Node}
    (different : other ≠ node)
    (outcome : Participant × List Outgoing)
    (flights : List Outgoing) :
    (cluster.move node outcome flights).table other = cluster.table other := by
  simp [table, move, Function.update_of_ne different]

/-- A cluster moves on when one node expands its table, and packets are lost or sent. -/
structure Moves
    (claims : Claim → Prop)
    (receipts : Table.Receipts)
    (passed : List GossipEntry)
    (node : Node)
    (before after : Cluster Node) :
    Prop where
  table : Table.Grows claims receipts (before.table node) (after.table node)
  others : ∀ other : Node, other ≠ node → after.table other = before.table other
  flights : ∀ flight ∈ after.flights,
    flight ∈ before.flights ∨ flight.packet.BackedBy passed (after.table node)

theorem moves_of_expanded
    {claims : Claim → Prop}
    {receipts : Table.Receipts}
    {passed : List GossipEntry}
    {cluster : Cluster Node}
    {node : Node}
    {outcome : Participant × List Outgoing}
    (expanded : Expanded claims receipts passed (cluster.nodes node) outcome)
    {flights : List Outgoing}
    (kept : ∀ flight ∈ flights, flight ∈ cluster.flights) :
    Moves claims receipts passed node cluster (cluster.move node outcome flights) := by
  constructor
  · rw [table_move_self]
    exact expanded.table
  · intro other different
    exact table_move_other cluster different outcome flights
  · intro flight member
    rw [table_move_self]
    rcases List.mem_append.1 member with earlier | sent
    · exact Or.inl (kept flight earlier)
    · exact Or.inr (expanded.sent flight sent)

end Cluster

end ClusterMembership
