import ClusterMembership.Proofs.Cluster.Run
import ClusterMembership.Proofs.Codec.Batching

/-!
# A push that nothing disturbs

When a node pushes what a peer has not acknowledged, and neither the push nor its
receipt is lost, the peer merges the entries and the node records the receipts.
`Run.push` states this for any cluster in which nothing else is on its way.

Clusters of two nodes give the smallest runs with gossip in them.  A table that knows
one other member has a plain form, `Table.ofTwo`, which merging, probing and
acknowledging keep.
-/

namespace ClusterMembership

namespace Participant

/-- The packet of a push to a peer. -/
def push (state : Participant) (target : MemberName) : Packet :=
  (Carrier.gossip state.name).wrap (state.table.gossip target state.settings.maxGossipEntries)

/-- The packet that acknowledges entries. -/
def receipt (state : Participant) (entries : List GossipEntry) : Packet where
  source := state.name
  payload := .gossipAck (entries.map GossipEntry.ack)

/-- A push that fits one datagram is sent, and changes nothing. -/
theorem outcome_gossipTo
    {state : Participant}
    {target : MemberName}
    (bounded : Codec.budget state.settings.maxPacketSize ≤ state.codec.limit)
    (owed : state.table.gossip target state.settings.maxGossipEntries ≠ [])
    (fits : state.codec.FitsDatagram state.settings.maxPacketSize (state.push target)) :
    (gossipTo target).outcome state =
      (state, [{ target := target, packet := state.push target }]) := by
  have packed := Codec.batches_of_fits bounded owed fits
  have limits := (state.codec.fitsDatagram_iff _ _).1 fits
  have admitted : state.codec.admits (state.push target) := by
    simp [Codec.admits, limits.1, limits.2.1]
  have some : (state.table.gossip target state.settings.maxGossipEntries).isEmpty = false := by
    simpa using owed
  rw [push] at admitted
  simp [Act.outcome, gossipTo, disseminate, sendAll, Act.state, Act.each, Act.send, bind, pure,
    some, packed, push, admitted]

/-- Pushed entries are merged, and acknowledged. -/
theorem outcome_receive_gossip
    {state merged : Participant}
    {source : MemberName}
    {entries : List GossipEntry}
    {now : Instant}
    (foreign : source ≠ state.name)
    (after : merged = { state with table := (state.table.mergeAll now source entries).table })
    (admitted : merged.codec.admits (merged.receipt entries)) :
    (receive now ((Carrier.gossip source).wrap entries)).outcome state =
      (merged, [{ target := source, packet := merged.receipt entries }]) := by
  subst after
  rw [receipt] at admitted
  simp [Act.outcome, receive, receiveFrom, mergeEntries, Carrier.wrap, Act.state, Act.onTable,
    Act.send, bind, pure, foreign, receipt, admitted]

/-- A probe whose outcome changes the status of its target. -/
theorem outcome_recordProbe
    {state : Participant}
    {target : MemberName}
    {member : Member}
    {answered : Bool}
    {status : Status}
    {now : Instant}
    (found : state.table.find? target = some member)
    (changed : probedStatus? answered member.status = some status) :
    (recordProbe now target answered).outcome state =
      ({ state with
          table := (state.table.tick.apply now target status state.table.tick.clock none).table },
        []) := by
  simp [Act.outcome, recordProbe, Act.state, Act.onTable, bind, pure, found, changed]

/-- Receipts are recorded, and not answered. -/
theorem outcome_receive_gossipAck
    {state : Participant}
    {source : MemberName}
    {acks : List EntryAck}
    {now : Instant}
    (foreign : source ≠ state.name) :
    (receive now { source := source, payload := .gossipAck acks }).outcome state =
      ({ state with table := state.table.recordAcks source acks }, []) := by
  simp [Act.outcome, receive, receiveFrom, Act.state, Act.modify, bind, pure, foreign]

end Participant

namespace Cluster

variable {Node : Type} [DecidableEq Node]

/-- What a node pushes to another one. -/
def owed (cluster : Cluster Node) (sender receiver : Node) : List GossipEntry :=
  (cluster.table sender).gossip (cluster.name receiver)
    (cluster.nodes sender).settings.maxGossipEntries

/-- A node that has merged what was pushed to it. -/
def told (cluster : Cluster Node) (sender receiver : Node) (now : Instant) : Participant :=
  { cluster.nodes receiver with
    table :=
      ((cluster.table receiver).mergeAll now (cluster.name sender)
        (cluster.owed sender receiver)).table }

/-- A node that has recorded the receipts of what it pushed. -/
def acknowledged (cluster : Cluster Node) (sender receiver : Node) : Participant :=
  { cluster.nodes sender with
    table :=
      (cluster.table sender).recordAcks (cluster.name receiver)
        ((cluster.owed sender receiver).map GossipEntry.ack) }

/-- The push on its way. -/
def pushFlight (cluster : Cluster Node) (sender receiver : Node) : Outgoing where
  target := cluster.name receiver
  packet := (Carrier.gossip (cluster.name sender)).wrap (cluster.owed sender receiver)

/-- The receipt of the push on its way back. -/
def receiptFlight (cluster : Cluster Node) (sender receiver : Node) : Outgoing where
  target := cluster.name sender
  packet :=
    { source := cluster.name receiver
      payload := .gossipAck ((cluster.owed sender receiver).map GossipEntry.ack) }

/-- The cluster after a push that nothing disturbs. -/
def pushed (cluster : Cluster Node) (sender receiver : Node) (now : Instant) : Cluster Node where
  nodes :=
    Function.update
      (Function.update cluster.nodes receiver (cluster.told sender receiver now))
      sender (cluster.acknowledged sender receiver)
  flights := []

/-- What it takes for a push to go undisturbed: something to push, and packets that can be sent. -/
structure CanPush (cluster : Cluster Node) (sender receiver : Node) (now : Instant) : Prop where
  different : cluster.name sender ≠ cluster.name receiver
  some : cluster.owed sender receiver ≠ []
  bounded : Codec.budget (cluster.nodes sender).settings.maxPacketSize ≤
    (cluster.nodes sender).codec.limit
  fits : (cluster.nodes sender).codec.FitsDatagram (cluster.nodes sender).settings.maxPacketSize
    ((Carrier.gossip (cluster.name sender)).wrap (cluster.owed sender receiver))
  named : (cluster.told sender receiver now).name = cluster.name receiver
  admitted : (cluster.nodes receiver).codec.admits (cluster.receiptFlight sender receiver).packet

namespace CanPush

variable {cluster : Cluster Node} {sender receiver : Node} {now : Instant}

theorem after_gossipTo
    (can : CanPush cluster sender receiver now)
    (quiet : cluster.flights = []) :
    cluster.after (.act sender (.gossipTo (cluster.name receiver)) now) =
      { cluster with flights := [cluster.pushFlight sender receiver] } := by
  have outcome : Deed.perform now (cluster.nodes sender) (.gossipTo (cluster.name receiver)) =
      (cluster.nodes sender, [cluster.pushFlight sender receiver]) :=
    Participant.outcome_gossipTo can.bounded can.some can.fits
  simp [after, move, outcome, quiet]

theorem after_deliver_push (can : CanPush cluster sender receiver now) :
    Cluster.after { cluster with flights := [cluster.pushFlight sender receiver] }
        (.deliver (cluster.pushFlight sender receiver) receiver now) =
      { nodes := Function.update cluster.nodes receiver (cluster.told sender receiver now)
        flights := [cluster.receiptFlight sender receiver] } := by
  have receipt : (cluster.told sender receiver now).receipt (cluster.owed sender receiver) =
      (cluster.receiptFlight sender receiver).packet := by
    rw [Participant.receipt, can.named]
    rfl
  have admitted : (cluster.told sender receiver now).codec.admits
      ((cluster.told sender receiver now).receipt (cluster.owed sender receiver)) := by
    rw [receipt]
    exact can.admitted
  have outcome : (Participant.receive now (cluster.pushFlight sender receiver).packet).outcome
      (cluster.nodes receiver) =
        (cluster.told sender receiver now, [cluster.receiptFlight sender receiver]) := by
    have merged : (Participant.receive now (cluster.pushFlight sender receiver).packet).outcome
        (cluster.nodes receiver) =
          (cluster.told sender receiver now,
            [{ target := cluster.name sender
               packet :=
                (cluster.told sender receiver now).receipt (cluster.owed sender receiver) }]) :=
      Participant.outcome_receive_gossip can.different rfl admitted
    rw [merged, receipt]
    rfl
  simp [after, move, outcome]

theorem after_deliver_receipt (can : CanPush cluster sender receiver now) :
    Cluster.after
        { nodes := Function.update cluster.nodes receiver (cluster.told sender receiver now)
          flights := [cluster.receiptFlight sender receiver] }
        (.deliver (cluster.receiptFlight sender receiver) sender now) =
      cluster.pushed sender receiver now := by
  have apart : sender ≠ receiver := fun same => can.different (congrArg cluster.name same)
  have unmoved : Function.update cluster.nodes receiver (cluster.told sender receiver now) sender =
      cluster.nodes sender := Function.update_of_ne apart _ _
  have outcome : (Participant.receive now (cluster.receiptFlight sender receiver).packet).outcome
      (cluster.nodes sender) = (cluster.acknowledged sender receiver, []) :=
    Participant.outcome_receive_gossipAck (Ne.symm can.different)
  simp [after, move, unmoved, outcome, pushed]

end CanPush

/-- A node issues no claim about a member that it held as new before, or that it does not renew. -/
theorem not_issues_of_clocks
    {cluster : Cluster Node}
    {event : Event Node}
    {claim : Claim}
    (held : ∀ node, event.IsDeedOf node ∨ claim.name = cluster.name node →
      claim.clock ≤ (cluster.table node).clockOf claim.name ∨
        ((cluster.after event).table node).clockOf claim.name ≤
          (cluster.table node).clockOf claim.name) :
    ¬cluster.Issues event claim := by
  rintro ⟨node, made, older, origin⟩
  have renewed : ((cluster.after event).table node).clockOf claim.name = claim.clock :=
    congrArg Claim.clock made
  rcases held node origin with known | still
  · exact absurd older (Nat.not_lt_of_le known)
  · exact absurd older (Nat.not_lt_of_le (renewed ▸ still))

/--
A push may go undisturbed wherever nothing else is on its way.  It issues no claim, except that the
receiver may come to refute what it is told, at a newer clock than that of its own row.
-/
theorem Run.push
    {issued : Claim → Prop}
    {cluster : Cluster Node}
    (run : Run issued cluster)
    (quiet : cluster.flights = [])
    {sender receiver : Node}
    {now : Instant}
    (can : CanPush cluster sender receiver now) :
    ∃ later : Claim → Prop, Run later (cluster.pushed sender receiver now) ∧
      ∀ claim, claim.clock ≤ (cluster.table receiver).own.clock → later claim → issued claim := by
  have apart : sender ≠ receiver := fun same => can.different (congrArg cluster.name same)
  have sent := run.step (.act sender (.gossipTo (cluster.name receiver)) now) trivial
  have afterSent := can.after_gossipTo quiet
  rw [afterSent] at sent
  have merged := sent.step (.deliver (cluster.pushFlight sender receiver) receiver now)
    ⟨List.mem_cons_self, rfl⟩
  have afterMerged := can.after_deliver_push
  rw [afterMerged] at merged
  have target : (cluster.receiptFlight sender receiver).target =
      (Function.update cluster.nodes receiver (cluster.told sender receiver now) sender).name := by
    rw [Function.update_of_ne apart]
    rfl
  have recorded := merged.step (.deliver (cluster.receiptFlight sender receiver) sender now)
    ⟨List.mem_cons_self, target⟩
  have afterRecorded := can.after_deliver_receipt
  rw [afterRecorded] at recorded
  refine ⟨_, recorded, fun claim old later => ?_⟩
  rcases later with ((before | sending) | merging) | recording
  · exact before
  · refine absurd sending (not_issues_of_clocks fun node _ => .inr ?_)
    rw [afterSent]
    exact Nat.le_refl _
  · refine absurd merging (not_issues_of_clocks fun node origin => ?_)
    rw [afterMerged]
    by_cases here : node = receiver
    · -- the receiver speaks for itself only
      subst here
      have own : claim.name = (cluster.table node).own.name := origin.resolve_left id
      have clock : (cluster.table node).clockOf claim.name = (cluster.table node).own.clock :=
        own ▸ Table.clockOf_own _
      exact .inl (Nat.le_trans old (Nat.le_of_eq clock.symm))
    · simp [table, here]
  · refine absurd recording (not_issues_of_clocks fun node _ => .inr ?_)
    rw [afterRecorded]
    by_cases here : node = sender
    · -- what the sender records is no entry
      obtain ⟨acks, same⟩ := Table.recordAcks_eq (cluster.table sender) (cluster.name receiver)
        ((cluster.owed sender receiver).map GossipEntry.ack)
      have recorded : (cluster.pushed sender receiver now).table sender =
          { cluster.table sender with acks } := by
        simp only [table, pushed, Function.update_self]
        exact same
      have unmoved : Function.update cluster.nodes receiver (cluster.told sender receiver now)
          sender = cluster.nodes sender := Function.update_of_ne apart _ _
      rw [here, recorded]
      simp only [table, unmoved]
      exact Nat.le_refl _
    · simp [table, pushed, here]

end Cluster

/-! ## Clusters of two -/

namespace Table

/-- A table that knows one other member. -/
def ofTwo
    (own other : Member)
    (clock : Nat)
    (acks : Std.ExtHashMap (MemberName × MemberName) Nat) :
    Table where
  own := own
  slots := #[{ generation := 0, occupant := some other }]
  index := (∅ : Std.ExtHashMap MemberName Nat).insert other.name 0
  free := []
  clock := clock
  acks := acks
  inserted := [{ index := 0, generation := 0 }]
  stopped := false

section OfTwo

variable
    {own other : Member}
    {clock : Nat}
    {acks : Std.ExtHashMap (MemberName × MemberName) Nat}

theorem start_singleton
    {name seed : MemberName}
    (different : seed ≠ name)
    (metadata : Bytes)
    (now : Instant) :
    start name metadata [seed] now =
      ofTwo
        { name, status := .online, clock := 1, statusTime := now,
          metadata := { clock := 1, payload := some metadata } }
        (.unobserved seed now) 1 ∅ := by
  simp [start, different, insert, isOwn, handle?, place, ofTwo]

theorem find?_ofTwo (different : other.name ≠ own.name) :
    (ofTwo own other clock acks).find? other.name = some other := by
  simp [find?, isOwn, other?, occupant?, ofTwo, different]

theorem update_ofTwo
    (different : other.name ≠ own.name)
    (policy : Policy)
    (now : Instant)
    (status : Status)
    (stamp : Nat)
    (metadata : Option Metadata) :
    ((ofTwo own other clock acks).update policy now other.name status stamp metadata).table =
      ofTwo own (other.updated policy now status stamp metadata) (max clock stamp) acks := by
  have observed : (ofTwo own other clock acks).observe stamp =
      ofTwo own other (max clock stamp) acks := rfl
  have another : (ofTwo own other (max clock stamp) acks).isOwn other.name = false := by
    simp [isOwn, ofTwo, different]
  have inserted : ((ofTwo own other (max clock stamp) acks).insert other.name now).2 =
      ofTwo own other (max clock stamp) acks := by
    simp [insert, isOwn, handle?, ofTwo, different]
  have found : (ofTwo own other (max clock stamp) acks).other? other.name = some other := by
    simp [other?, ofTwo, occupant?]
  have stored : (ofTwo own other (max clock stamp) acks).setOther
      ((other.accept status stamp now).mergeMetadata? metadata) =
        ofTwo own ((other.accept status stamp now).mergeMetadata? metadata) (max clock stamp)
          acks := by
    simp [setOther, ofTwo]
  rw [update, Member.updated]
  simp only [observed, another, inserted, found, stored]
  by_cases rejected : policy.rejects other status stamp
  · simp [rejected]
  · simp [rejected]

theorem merge_ofTwo
    {entry : GossipEntry}
    {later : Member}
    (about : entry.name = other.name)
    (different : other.name ≠ own.name)
    {now : Instant}
    (row : other.updated .lenient now entry.status entry.clock entry.metadata = later)
    (source : MemberName) :
    ((ofTwo own other clock acks).merge now source entry).table =
      (ofTwo own later (max clock entry.clock) acks).recordAck source entry.name entry.clock := by
  rw [table_merge, about, ← row]
  exact update_ofTwo different .lenient now entry.status entry.clock entry.metadata

/-- An ack that is newer than the one before replaces it. -/
theorem recordAck_ofTwo
    {peer name : MemberName}
    {before stamp : Nat}
    (known : (acks[(peer, name)]?).getD 0 = before)
    (newer : before ≤ stamp) :
    (ofTwo own other clock acks).recordAck peer name stamp =
      ofTwo own other clock (acks.insert (peer, name) stamp) := by
  have joined : max ((ofTwo own other clock acks).acked peer name) stamp = stamp := by
    rw [acked]
    exact Nat.max_eq_right (Nat.le_trans (Nat.le_of_eq known) newer)
  rw [recordAck, joined]
  rfl

theorem outstanding_ofTwo (peer : MemberName) :
    (ofTwo own other clock acks).outstanding peer =
      (([own, other].filter ((ofTwo own other clock acks).isOutstanding peer)).map
        Member.entry).mergeSort precedes := by
  simp [outstanding, members, others, ofTwo]

theorem isOutstanding_ofTwo (peer : MemberName) (member : Member) :
    (ofTwo own other clock acks).isOutstanding peer member =
      (decide (0 < member.clock) && decide ((acks[(peer, member.name)]?).getD 0 < member.clock)) :=
  rfl

/-- A peer that has acknowledged both rows is owed nothing. -/
theorem outstanding_ofTwo_eq_nil
    {peer : MemberName}
    (ownHeld : own.clock ≤ (acks[(peer, own.name)]?).getD 0)
    (otherHeld : other.clock ≤ (acks[(peer, other.name)]?).getD 0) :
    (ofTwo own other clock acks).outstanding peer = [] := by
  rw [outstanding_ofTwo, List.filter_eq_nil_iff.2, List.map_nil, List.mergeSort_nil]
  intro member known
  rw [isOutstanding_ofTwo]
  have held : member.clock ≤ (acks[(peer, member.name)]?).getD 0 := by
    rcases List.mem_cons.1 known with rfl | last
    · exact ownHeld
    · rw [List.mem_singleton.1 last]
      exact otherHeld
  simp [held]

end OfTwo

end Table

namespace Cluster

/-- The nodes of the smallest cluster with gossip in it. -/
inductive Side where
  | left
  | right
  deriving DecidableEq

namespace Side

def label : Side → MemberName
  | .left => { text := "10.0.0.1:7946" }
  | .right => { text := "10.0.0.2:7946" }

def opposite : Side → Side
  | .left => .right
  | .right => .left

theorem ne_opposite (side : Side) : side ≠ side.opposite := by
  cases side <;> decide

theorem eq_opposite {side other : Side} (different : side ≠ other) : side = other.opposite := by
  cases side <;> cases other
  · exact absurd rfl different
  · rfl
  · rfl
  · exact absurd rfl different

/-- Each node starts with default settings, and with the other one as its seed. -/
def profile (side : Side) : Profile where
  settings := {}
  codec := { signer := { mac := Hmac.mac [0] } }
  name := side.label
  metadata := []
  seeds := [side.opposite.label]
  startedAt := 0
  tape := default

/-- The row of a node that has just started. -/
def started (side : Side) : Member where
  name := side.label
  status := .online
  clock := 1
  statusTime := 0
  metadata := { clock := 1, payload := some [] }

/-- The row of a node that has new metadata since. -/
def renewed (side : Side) : Member :=
  { side.started with clock := 2, metadata := { clock := 2, payload := some [1] } }

end Side

/-- Two nodes with given tables, and nothing on its way. -/
def pair (tables : Side → Table) : Cluster Side where
  nodes side := { side.profile.participant with table := tables side }
  flights := []

theorem founded_profile :
    founded Side.profile =
      pair fun side => .ofTwo side.started (.unobserved side.opposite.label 0) 1 ∅ := by
  rw [founded, pair]
  congr
  funext side
  have different : side.opposite.label ≠ side.label := by
    cases side <;> decide
  have started : Table.start side.label [] [side.opposite.label] 0 =
      .ofTwo side.started (.unobserved side.opposite.label 0) 1 ∅ :=
    Table.start_singleton different [] 0
  simp only [← started]
  rfl

theorem Side.label_injective : Function.Injective Side.label := by
  intro first second same
  cases first <;> cases second <;> first | rfl | exact absurd same (by decide)

/-- One node of a pair pushes a single entry to the other one. -/
theorem Run.push_pair
    {issued : Claim → Prop}
    {before after : Side → Table}
    (run : Run issued (pair before))
    (named : ∀ side, (before side).own.name = side.label)
    (sender : Side)
    {entry : GossipEntry}
    (owes : (before sender).outstanding sender.opposite.label = [entry])
    (merged : ((before sender.opposite).merge 0 sender.label entry).table =
      after sender.opposite)
    (recorded : (before sender).recordAck sender.opposite.label entry.name entry.clock =
      after sender)
    (renamed : (after sender.opposite).own.name = sender.opposite.label)
    (fits : sender.profile.codec.FitsDatagram 1400 ((Carrier.gossip sender.label).wrap [entry]))
    (admitted : sender.opposite.profile.codec.admits
      { source := sender.opposite.label, payload := .gossipAck [entry.ack] }) :
    ∃ later : Claim → Prop, Run later (pair after) ∧
      ∀ claim, claim.clock ≤ (before sender.opposite).own.clock → later claim → issued claim := by
  have names : ∀ side, (pair before).name side = side.label := named
  have single : (pair before).owed sender sender.opposite = [entry] := by
    rw [owed, names]
    show ((before sender).outstanding sender.opposite.label).take 16 = [entry]
    rw [owes]
    rfl
  have told : (pair before).told sender sender.opposite 0 =
      { sender.opposite.profile.participant with table := after sender.opposite } := by
    rw [Cluster.told, single, names, ← merged]
    rfl
  have acknowledged : (pair before).acknowledged sender sender.opposite =
      { sender.profile.participant with table := after sender } := by
    rw [Cluster.acknowledged, single, names, ← recorded]
    rfl
  have can : CanPush (pair before) sender sender.opposite 0 := by
    refine ⟨?_, ?_, Nat.le_of_ble_eq_true rfl, ?_, ?_, ?_⟩
    · rw [names, names]
      exact fun same => sender.ne_opposite (Side.label_injective same)
    · rw [single]
      exact List.cons_ne_nil _ _
    · rw [single, names]
      exact fits
    · rw [told, names]
      exact renamed
    · rw [receiptFlight, single, names, names]
      exact admitted
  rcases run.push rfl can with ⟨later, pushed, within⟩
  have same : (pair before).pushed sender sender.opposite 0 = pair after := by
    rw [Cluster.pushed]
    rw [told, acknowledged]
    rw [pair]
    congr
    funext side
    by_cases here : side = sender
    · rw [here, Function.update_self]
    · rw [Function.update_of_ne here, Side.eq_opposite here, Function.update_self]
  rw [same] at pushed
  exact ⟨later, pushed, within⟩

/-- One node of a pair does something of its own accord, and sends nothing. -/
theorem Run.act_pair
    {issued : Claim → Prop}
    {before after : Side → Table}
    (run : Run issued (pair before))
    (side : Side)
    (deed : Deed)
    (now : Instant)
    (retains : deed.Retains now ((pair before).nodes side))
    (performed : deed.perform now ((pair before).nodes side) = ((pair after).nodes side, []))
    (still : after side.opposite = before side.opposite) :
    ∃ later : Claim → Prop, Run later (pair after) := by
  have acted := run.step (.act side deed now) retains
  have same : (pair before).after (.act side deed now) = pair after := by
    show (pair before).move side (deed.perform now ((pair before).nodes side)) [] = pair after
    rw [performed]
    unfold move pair
    congr
    funext other
    by_cases here : other = side
    · rw [here, Function.update_self]
    · rw [Function.update_of_ne here, Side.eq_opposite here, still]
  rw [same] at acted
  exact ⟨_, acted⟩

/-- A single recorded ack. -/
abbrev ackOf (peer name : MemberName) (clock : Nat) :
    Std.ExtHashMap (MemberName × MemberName) Nat :=
  (∅ : Std.ExtHashMap (MemberName × MemberName) Nat).insert (peer, name) clock

/-- The tables of a pair whose right node has pushed its own row. -/
def greeted : Side → Table
  | .left =>
    .ofTwo Side.left.started Side.right.started 1 (ackOf Side.right.label Side.right.label 1)
  | .right =>
    .ofTwo Side.right.started (.unobserved Side.left.label 0) 1
      (ackOf Side.left.label Side.right.label 1)

/-- The claims at the clock of the start are still those of the start. -/
theorem exists_run_greeted :
    ∃ issued : Claim → Prop, Run issued (pair greeted) ∧
      ∀ claim, claim.clock ≤ 1 → issued claim → claim.status = .online := by
  have founding := Run.founded Side.profile Side.label_injective
  rw [founded_profile] at founding
  have owes : (Table.ofTwo Side.right.started (.unobserved Side.left.label 0) 1 ∅).outstanding
      Side.left.label = [Side.right.started.entry] := by
    rw [Table.outstanding_ofTwo]
    simp [Table.isOutstanding_ofTwo, Side.started, Member.unobserved]
  have heard : (Member.unobserved Side.right.label 0).updated .lenient 0
      Side.right.started.entry.status Side.right.started.entry.clock
        Side.right.started.entry.metadata = Side.right.started := by
    decide
  have greets : ∃ later : Claim → Prop, Run later (pair greeted) ∧
      ∀ claim, claim.clock ≤ 1 → later claim →
        ∃ side : Side, claim = side.profile.participant.table.own.entry.claim := by
    refine founding.push_pair (fun _ => rfl) .right owes ?_ ?_ rfl
      (by decide +kernel) (by decide +kernel)
    · apply (Table.merge_ofTwo rfl (by decide) heard Side.right.label).trans
      exact Table.recordAck_ofTwo (by simp) (Nat.zero_le 1)
    · exact Table.recordAck_ofTwo (by simp) (Nat.zero_le 1)
  rcases greets with ⟨issued, run, within⟩
  refine ⟨issued, run, fun claim first made => ?_⟩
  rcases within claim first made with ⟨side, rfl⟩
  exact congrArg Member.status (Table.own_start _ _ _ _)

end Cluster

end ClusterMembership
