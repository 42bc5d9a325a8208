import ClusterMembership.Proofs.Cluster.Acknowledgement

/-!
# Agreement of nodes that owe each other nothing

When no node has anything outstanding for another one, all of them hold every member at
the same clock.  They need not hold it in the same status: two nodes may stamp different
statuses with the same clock, and on a tie everybody keeps what is there, while the
receipt of the other status still counts as an ack.

`Cluster.Attributed` is the invariant that the statuses have nevertheless an origin:
whatever is held or on its way was issued by somebody.  Where the claims issued at one
clock agree, so do the nodes.
-/

namespace ClusterMembership

/-- The issued claims about a member at a clock agree on the status. -/
def Unanimous (issued : Claim → Prop) (name : MemberName) (clock : Nat) : Prop :=
  ∀ first second : Claim, issued first → issued second →
    first.name = name → second.name = name → first.clock = clock → second.clock = clock →
    first.status = second.status

namespace Cluster

variable {Node : Type}

/-- Every claim that is held or on its way was issued. -/
structure Attributed (issued : Claim → Prop) (cluster : Cluster Node) : Prop where
  tables : ∀ (node : Node) (name : MemberName),
    0 < (cluster.table node).clockOf name → issued ((cluster.table node).report name).claim
  flights : ∀ flight ∈ cluster.flights, ∀ entry ∈ flight.packet.entries,
    0 < entry.clock → issued entry.claim

theorem attributed_founded (profiles : Node → Profile) :
    Attributed (fun claim => ∃ node, claim = (profiles node).participant.table.own.entry.claim)
      (founded profiles) := by
  constructor
  · intro node name known
    have table : (founded profiles).table node = (profiles node).participant.table := rfl
    rw [table] at known ⊢
    by_cases own : name = (profiles node).participant.table.own.name
    · refine ⟨node, ?_⟩
      rw [own, Table.report_own]
    · have foreign : name ≠ (profiles node).name := by
        rwa [Profile.table_participant, Table.own_start] at own
      have blank : (profiles node).participant.table.report name = GossipEntry.blank name :=
        Table.report_start_other _ _ _ foreign
      rw [Table.clockOf, blank] at known
      exact absurd known (Nat.lt_irrefl 0)
  · intro flight member
    cases member

variable [DecidableEq Node]

/-- An attributed cluster stays so when whatever a node adopts was issued. -/
theorem Attributed.moves
    {issued wider claims : Claim → Prop}
    {receipts : Table.Receipts}
    {passed : List GossipEntry}
    {node : Node}
    {before after : Cluster Node}
    (attributed : Attributed issued before)
    (moves : Moves claims receipts passed node before after)
    (widened : ∀ claim, issued claim → wider claim)
    (adopted : ∀ name, (before.table node).clockOf name < (after.table node).clockOf name →
      claims ((after.table node).report name).claim →
      wider ((after.table node).report name).claim)
    (received : ∀ entry ∈ passed, 0 < entry.clock → issued entry.claim) :
    Attributed wider after := by
  have held : ∀ name, 0 < (after.table node).clockOf name →
      wider ((after.table node).report name).claim := by
    intro name known
    rcases moves.table.advances.reports name with same | ⟨newer, claimed⟩
    · have clocks : (after.table node).clockOf name = (before.table node).clockOf name :=
        congrArg Claim.clock same
      rw [same]
      rw [clocks] at known
      exact widened _ (attributed.tables node name known)
    · exact adopted name newer claimed
  constructor
  · intro other name known
    by_cases same : other = node
    · rw [same] at known ⊢
      exact held name known
    · rw [moves.others other same] at known ⊢
      exact widened _ (attributed.tables other name known)
  · intro flight member entry carried known
    rcases moves.flights flight member with earlier | sent
    · exact widened _ (attributed.flights flight earlier entry carried known)
    · rcases (sent.entries entry carried).origin with passedOn | reported
      · exact widened _ (received entry passedOn known)
      · have newest := held entry.name
        rw [Table.clockOf, reported] at newest
        exact newest known

/-- One event keeps a cluster attributed to the claims issued so far. -/
theorem Attributed.after
    {issued : Claim → Prop}
    {cluster : Cluster Node}
    (attributed : Attributed issued cluster)
    (sincere : Sincere cluster)
    {event : Event Node}
    (possible : cluster.Possible event) :
    Attributed (fun claim => issued claim ∨ cluster.Issues event claim) (cluster.after event) := by
  cases event with
  | deliver flight node now =>
    have moves := moves_deliver (sincere.tables node) flight now
    refine attributed.moves moves (fun _ => Or.inl) ?_ (attributed.flights flight possible.1)
    intro name newer claimed
    have named := moves.table.sound.name_report name
    rcases claimed with ⟨entry, carried, same⟩ | own
    · -- The adopted claim is one the packet carried: it was issued before.
      left
      rw [same]
      apply attributed.flights flight possible.1 entry carried
      have clock : ((cluster.after (.deliver flight node now)).table node).clockOf name =
          entry.clock := congrArg Claim.clock same
      rw [← clock]
      exact Nat.lt_of_le_of_lt (Nat.zero_le _) newer
    · right
      refine ⟨node, ?_, ?_, Or.inr own⟩
      · exact congrArg (fun reported => (Table.report _ reported).claim) named
      · exact lt_of_eq_of_lt (congrArg (Table.clockOf _) named) newer
  | lose flight =>
    exact ⟨fun node name known => Or.inl (attributed.tables node name known),
      fun other member entry carried known =>
        Or.inl (attributed.flights other (List.mem_of_mem_erase member) entry carried known)⟩
  | duplicate flight =>
    constructor
    · intro node name known
      exact Or.inl (attributed.tables node name known)
    · intro other member entry carried known
      rcases List.mem_cons.1 member with rfl | kept
      · exact Or.inl (attributed.flights other possible entry carried known)
      · exact Or.inl (attributed.flights other kept entry carried known)
  | act node deed now =>
    have moves := moves_act (sincere.tables node) possible
    refine attributed.moves moves (fun _ => Or.inl) ?_ ?_
    · intro name newer _
      have named := moves.table.sound.name_report name
      right
      refine ⟨node, ?_, ?_, Or.inl rfl⟩
      · exact congrArg (fun reported => (Table.report _ reported).claim) named
      · exact lt_of_eq_of_lt (congrArg (Table.clockOf _) named) newer
    · intro entry passedOn
      cases passedOn

/-- Every cluster a run leads to is attributed to the claims issued in the run. -/
theorem Run.attributed {issued : Claim → Prop} {cluster : Cluster Node} (run : Run issued cluster) :
    Attributed issued cluster := by
  induction run with
  | founded profiles distinct => exact attributed_founded profiles
  | step run event possible step => exact step.after run.sincere possible

/--
When no node has gossip for another one, all nodes hold every member at the same clock,
the owner of the member included.  Where the claims issued about a member at that clock
agree on a status, every node that holds the member has that status, and so has its
owner.
-/
theorem agreement_of_settled
    {issued : Claim → Prop}
    {cluster : Cluster Node}
    (run : Run issued cluster)
    (settled : ∀ holder peer : Node, holder ≠ peer →
      ∀ count, (cluster.table holder).gossip (cluster.name peer) count = []) :
    (∀ (first second : Node) (name : MemberName),
      (cluster.table first).clockOf name = (cluster.table second).clockOf name) ∧
    (∀ first second : Node,
      ∀ left ∈ (cluster.table first).members, ∀ right ∈ (cluster.table second).members,
        left.isObserved → right.isObserved → left.name = right.name →
        left.clock = right.clock ∧
          (Unanimous issued left.name left.clock → left.status = right.status)) ∧
    (∀ holder owner : Node,
      ∀ row ∈ (cluster.table holder).members, row.isObserved → row.name = cluster.name owner →
        row.clock = (cluster.table owner).own.clock ∧
          (Unanimous issued row.name row.clock →
            row.status = (cluster.table owner).own.status)) := by
  have sincere := run.sincere
  have attributed := run.attributed
  have clocks : ∀ (first second : Node) (name : MemberName),
      (cluster.table first).clockOf name = (cluster.table second).clockOf name := by
    intro first second name
    by_cases same : first = second
    · rw [same]
    · exact sincere.clockOf_eq (settled first second same) (settled second first (Ne.symm same))
        name
  -- A row that is observed makes a claim that was issued.
  have origin : ∀ node : Node, ∀ row ∈ (cluster.table node).members, row.isObserved →
      issued row.entry.claim := by
    intro node row member observed
    have issuedHere := attributed.tables node row.name
    rw [(sincere.tables node).clockOf_of_mem member, (sincere.tables node).report_of_mem member]
      at issuedHere
    exact issuedHere (of_decide_eq_true observed)
  have rows : ∀ first second : Node,
      ∀ left ∈ (cluster.table first).members, ∀ right ∈ (cluster.table second).members,
        left.isObserved → right.isObserved → left.name = right.name →
        left.clock = right.clock ∧
          (Unanimous issued left.name left.clock → left.status = right.status) := by
    intro first second left here right there leftObserved rightObserved named
    have equal := clocks first second left.name
    rw [(sincere.tables first).clockOf_of_mem here, named,
      (sincere.tables second).clockOf_of_mem there] at equal
    refine ⟨equal, fun unanimous => ?_⟩
    exact unanimous left.entry.claim right.entry.claim (origin first left here leftObserved)
      (origin second right there rightObserved) rfl named.symm rfl equal.symm
  refine ⟨clocks, rows, ?_⟩
  intro holder owner row member observed named
  have ownObserved : (cluster.table owner).own.isObserved :=
    decide_eq_true (sincere.tables owner).ownObserved
  exact rows holder owner row member _ List.mem_cons_self observed ownObserved named

/-! ## Two nodes that disagree for good -/

/--
The right node has new metadata at the clock at which the left one suspects it, and has
told them; the left node was told on a tie and keeps its suspicion, which nobody sends.
-/
def standoff : Side → Table
  | .left =>
    .ofTwo Side.left.started { Side.right.renewed with status := .suspect } 2
      (((ackOf Side.right.label Side.right.label 1).insert
        (Side.right.label, Side.right.label) 2).insert (Side.right.label, Side.left.label) 1)
  | .right =>
    .ofTwo Side.right.renewed Side.left.started 2
      (((ackOf Side.left.label Side.right.label 1).insert
        (Side.left.label, Side.right.label) 2).insert (Side.left.label, Side.left.label) 1)

/-- The left node has probed the right one in vain. -/
def suspecting : Side → Table
  | .left =>
    .ofTwo Side.left.started { Side.right.started with status := .suspect, clock := 2 } 2
      (ackOf Side.right.label Side.right.label 1)
  | .right => greeted .right

/-- Meanwhile the right node has changed its metadata. -/
def estranged : Side → Table
  | .left => suspecting .left
  | .right =>
    .ofTwo Side.right.renewed (.unobserved Side.left.label 0) 2
      (ackOf Side.left.label Side.right.label 1)

/-- The right node has pushed its own row again. -/
def reminded : Side → Table
  | .left =>
    .ofTwo Side.left.started { Side.right.renewed with status := .suspect } 2
      ((ackOf Side.right.label Side.right.label 1).insert
        (Side.right.label, Side.right.label) 2)
  | .right =>
    .ofTwo Side.right.renewed (.unobserved Side.left.label 0) 2
      ((ackOf Side.left.label Side.right.label 1).insert (Side.left.label, Side.right.label) 2)

theorem exists_run_suspecting : ∃ issued : Claim → Prop, Run issued (pair suspecting) := by
  rcases exists_run_greeted with ⟨issued, run, -⟩
  have different : Side.right.started.name ≠ Side.left.started.name := by decide
  have found : (greeted .left).find? Side.right.label = some Side.right.started :=
    Table.find?_ofTwo different
  have suspected : Side.right.started.updated .strict 0 .suspect 2 none =
      { Side.right.started with status := .suspect, clock := 2 } := by
    decide
  have moved : ((greeted .left).tick.apply 0 Side.right.label .suspect 2 none).table =
      suspecting .left := by
    rw [suspecting, ← suspected]
    exact Table.update_ofTwo different .strict 0 .suspect 2 none
  refine run.act_pair .left (.recordProbe Side.right.label false) 0 trivial ?_ rfl
  apply (Participant.outcome_recordProbe found rfl).trans
  show ({ Side.left.profile.participant with
    table := ((greeted .left).tick.apply 0 Side.right.label .suspect 2 none).table }, []) = _
  rw [moved]
  rfl

theorem exists_run_estranged : ∃ issued : Claim → Prop, Run issued (pair estranged) := by
  rcases exists_run_suspecting with ⟨issued, run⟩
  exact run.act_pair .right (.setMetadata [1]) 0 trivial rfl rfl

theorem exists_run_reminded : ∃ issued : Claim → Prop, Run issued (pair reminded) := by
  rcases exists_run_estranged with ⟨issued, run⟩
  have owes : (estranged .right).outstanding Side.left.label = [Side.right.renewed.entry] := by
    apply (Table.outstanding_ofTwo Side.left.label).trans
    simp [Table.isOutstanding_ofTwo, Side.renewed, Side.started, Member.unobserved]
  -- The clocks are equal, so the left node takes the metadata but not the status.
  have tied : ({ Side.right.started with status := .suspect, clock := 2 } : Member).updated
      .lenient 0 Side.right.renewed.entry.status Side.right.renewed.entry.clock
        Side.right.renewed.entry.metadata = { Side.right.renewed with status := .suspect } := by
    decide
  have known : (ackOf Side.right.label Side.right.label 1)[(Side.right.label,
      Side.right.label)]?.getD 0 = 1 := by
    simp
  have told : (ackOf Side.left.label Side.right.label 1)[(Side.left.label, Side.right.label)]?.getD
      0 = 1 := by
    simp
  have pushes : ∃ later : Claim → Prop, Run later (pair reminded) ∧
      ∀ claim, claim.clock ≤ 1 → later claim → issued claim := by
    refine run.push_pair ?_ .right owes ?_ ?_ rfl (by decide +kernel) (by decide +kernel)
    · intro side
      cases side <;> rfl
    · apply (Table.merge_ofTwo rfl (by decide) tied Side.right.label).trans
      exact Table.recordAck_ofTwo known (Nat.le_succ 1)
    · exact Table.recordAck_ofTwo told (Nat.le_succ 1)
  exact pushes.imp fun _ => And.left

theorem exists_run_standoff : ∃ issued : Claim → Prop, Run issued (pair standoff) := by
  rcases exists_run_reminded with ⟨issued, run⟩
  have owes : (reminded .left).outstanding Side.right.label = [Side.left.started.entry] := by
    apply (Table.outstanding_ofTwo Side.right.label).trans
    simp [Table.isOutstanding_ofTwo, Side.renewed, Side.started, Side.label]
  have heard : (Member.unobserved Side.left.label 0).updated .lenient 0
      Side.left.started.entry.status Side.left.started.entry.clock
        Side.left.started.entry.metadata = Side.left.started := by
    decide
  have known : (((ackOf Side.right.label Side.right.label 1).insert
      (Side.right.label, Side.right.label) 2)[(Side.right.label,
        Side.left.label)]?).getD 0 = 0 := by
    simp [Side.label]
  have told : (((ackOf Side.left.label Side.right.label 1).insert
      (Side.left.label, Side.right.label) 2)[(Side.left.label, Side.left.label)]?).getD 0 = 0 := by
    simp [Side.label]
  have pushes : ∃ later : Claim → Prop, Run later (pair standoff) ∧
      ∀ claim, claim.clock ≤ 2 → later claim → issued claim := by
    refine run.push_pair ?_ .left owes ?_ ?_ rfl (by decide +kernel) (by decide +kernel)
    · intro side
      cases side <;> rfl
    · apply (Table.merge_ofTwo rfl (by decide) heard Side.left.label).trans
      exact Table.recordAck_ofTwo told (Nat.zero_le 1)
    · exact Table.recordAck_ofTwo known (Nat.zero_le 1)
  exact pushes.imp fun _ => And.left

section Settled

variable (peer : MemberName) (base : Std.ExtHashMap (MemberName × MemberName) Nat)

theorem acked_right (left right : Nat) :
    (((base.insert (peer, Side.right.label) right).insert
      (peer, Side.left.label) left)[(peer, Side.right.label)]?).getD 0 = right := by
  have other : ((peer, Side.left.label) == (peer, Side.right.label)) = false := by
    simp [Side.label]
  rw [Std.ExtHashMap.getElem?_insert, if_neg (by simp [other]),
    Std.ExtHashMap.getElem?_insert_self]
  rfl

theorem acked_left (left : Nat) :
    ((base.insert (peer, Side.left.label) left)[(peer, Side.left.label)]?).getD 0 = left := by
  rw [Std.ExtHashMap.getElem?_insert_self]
  rfl

end Settled

/-- A pair is settled when each node has told the other one all it knows. -/
theorem settled_pair
    {tables : Side → Table}
    (named : ∀ side, (tables side).own.name = side.label)
    (nothing : ∀ side, (tables side).outstanding side.opposite.label = [])
    (holder peer : Side)
    (different : holder ≠ peer)
    (count : Nat) :
    ((pair tables).table holder).gossip ((pair tables).name peer) count = [] := by
  have opposite : (pair tables).name peer = holder.opposite.label := by
    rw [Side.eq_opposite different.symm]
    exact named holder.opposite
  show ((tables holder).outstanding _).take count = []
  rw [opposite, nothing, List.take_nil]

/-- The two nodes of the standoff owe each other nothing. -/
theorem settled_standoff (holder peer : Side) (different : holder ≠ peer) (count : Nat) :
    ((pair standoff).table holder).gossip ((pair standoff).name peer) count = [] := by
  refine settled_pair (fun side => ?_) (fun side => ?_) holder peer different count
  · cases side <;> rfl
  · cases side
    · exact Table.outstanding_ofTwo_eq_nil (Nat.le_of_eq (acked_left _ _ _).symm)
        (Nat.le_of_eq (acked_right _ _ _ _).symm)
    · exact Table.outstanding_ofTwo_eq_nil (Nat.le_of_eq (acked_right _ _ _ _).symm)
        (Nat.le_of_eq (acked_left _ _ _).symm)

/--
Nodes that owe each other nothing, with nothing on its way, may hold a member in
different statuses, its owner included.
-/
theorem not_agreement_without_unanimity :
    ¬∀ (Node : Type) (_ : DecidableEq Node) (issued : Claim → Prop) (cluster : Cluster Node),
      Run issued cluster →
      cluster.flights = [] →
      (∀ holder peer : Node, holder ≠ peer →
        ∀ count, (cluster.table holder).gossip (cluster.name peer) count = []) →
      ∀ first second : Node,
        ∀ left ∈ (cluster.table first).members, ∀ right ∈ (cluster.table second).members,
          left.isObserved → right.isObserved → left.name = right.name →
          left.status = right.status := by
  intro agreement
  rcases exists_run_standoff with ⟨issued, run⟩
  have agreed := agreement Side inferInstance issued (pair standoff) run rfl settled_standoff
    .left .right { Side.right.renewed with status := .suspect }
    (List.mem_cons_of_mem _ List.mem_cons_self) Side.right.renewed List.mem_cons_self
  exact absurd (agreed rfl rfl rfl) (by decide)

/-! ## Two nodes that agree -/

/-- Both nodes have pushed their own row. -/
def acquainted : Side → Table
  | .left =>
    .ofTwo Side.left.started Side.right.started 1
      ((ackOf Side.right.label Side.right.label 1).insert (Side.right.label, Side.left.label) 1)
  | .right =>
    .ofTwo Side.right.started Side.left.started 1
      ((ackOf Side.left.label Side.right.label 1).insert (Side.left.label, Side.left.label) 1)

/-- The claims at the clock of the start are still those of the start. -/
theorem exists_run_acquainted :
    ∃ issued : Claim → Prop, Run issued (pair acquainted) ∧
      ∀ claim, claim.clock ≤ 1 → issued claim → claim.status = .online := by
  rcases exists_run_greeted with ⟨issued, run, online⟩
  have owes : (greeted .left).outstanding Side.right.label = [Side.left.started.entry] := by
    apply (Table.outstanding_ofTwo Side.right.label).trans
    simp [Table.isOutstanding_ofTwo, Side.started, Side.label]
  have heard : (Member.unobserved Side.left.label 0).updated .lenient 0
      Side.left.started.entry.status Side.left.started.entry.clock
        Side.left.started.entry.metadata = Side.left.started := by
    decide
  have known : (ackOf Side.right.label Side.right.label 1)[(Side.right.label,
      Side.left.label)]?.getD 0 = 0 := by
    simp [Side.label]
  have told : (ackOf Side.left.label Side.right.label 1)[(Side.left.label, Side.left.label)]?.getD
      0 = 0 := by
    simp [Side.label]
  have pushes : ∃ later : Claim → Prop, Run later (pair acquainted) ∧
      ∀ claim, claim.clock ≤ 1 → later claim → issued claim := by
    refine run.push_pair ?_ .left owes ?_ ?_ rfl (by decide +kernel) (by decide +kernel)
    · intro side
      cases side <;> rfl
    · apply (Table.merge_ofTwo rfl (by decide) heard Side.left.label).trans
      exact Table.recordAck_ofTwo told (Nat.zero_le 1)
    · exact Table.recordAck_ofTwo known (Nat.zero_le 1)
  rcases pushes with ⟨later, again, within⟩
  exact ⟨later, again, fun claim first made => online claim first (within claim first made)⟩

/-- The two nodes owe each other nothing. -/
theorem settled_acquainted (holder peer : Side) (different : holder ≠ peer) (count : Nat) :
    ((pair acquainted).table holder).gossip ((pair acquainted).name peer) count = [] := by
  refine settled_pair (fun side => ?_) (fun side => ?_) holder peer different count
  · cases side <;> rfl
  · cases side
    · exact Table.outstanding_ofTwo_eq_nil (Nat.le_of_eq (acked_left _ _ _).symm)
        (Nat.le_of_eq (acked_right _ _ _ _).symm)
    · exact Table.outstanding_ofTwo_eq_nil (Nat.le_of_eq (acked_right _ _ _ _).symm)
        (Nat.le_of_eq (acked_left _ _ _).symm)

/--
In the standoff both nodes hold the right one at one clock, for which claims conflict.  Where both
have only told of themselves, no claims conflict, and each node holds the other in the status that
the other has.
-/
theorem agreement_of_settled_pairs :
    (∃ issued : Claim → Prop, Run issued (pair standoff) ∧
      (∀ holder peer : Side, holder ≠ peer →
        ∀ count, ((pair standoff).table holder).gossip ((pair standoff).name peer) count = []) ∧
      ((pair standoff).table .left).clockOf Side.right.label =
        ((pair standoff).table .right).clockOf Side.right.label ∧
      ¬Unanimous issued Side.right.label 2) ∧
    ∃ issued : Claim → Prop, Run issued (pair acquainted) ∧
      (∀ holder peer : Side, holder ≠ peer →
        ∀ count, ((pair acquainted).table holder).gossip ((pair acquainted).name peer) count =
          []) ∧
      (∀ name, Unanimous issued name 1) ∧
      ∀ holder owner : Side, ∀ row ∈ ((pair acquainted).table holder).members, row.isObserved →
        row.name = (pair acquainted).name owner →
          row.status = ((pair acquainted).table owner).own.status := by
  constructor
  · rcases exists_run_standoff with ⟨issued, run⟩
    have agreed := agreement_of_settled run settled_standoff
    refine ⟨issued, run, settled_standoff, agreed.1 .left .right Side.right.label, ?_⟩
    intro unanimous
    have statuses := (agreed.2.2 .left .right { Side.right.renewed with status := .suspect }
      (List.mem_cons_of_mem _ List.mem_cons_self) rfl rfl).2 unanimous
    exact absurd statuses (by decide)
  · rcases exists_run_acquainted with ⟨issued, run, online⟩
    have unanimous : ∀ name, Unanimous issued name 1 := by
      intro name first second here there _ _ firstClock secondClock
      rw [online first (Nat.le_of_eq firstClock) here,
        online second (Nat.le_of_eq secondClock) there]
    refine ⟨issued, run, settled_acquainted, unanimous, ?_⟩
    intro holder owner row member observed named
    have agreed :=
      (agreement_of_settled run settled_acquainted).2.2 holder owner row member observed named
    have started : ((pair acquainted).table owner).own.clock = 1 := by
      cases owner <;> rfl
    exact agreed.2 (agreed.1.trans started ▸ unanimous row.name)

end Cluster

end ClusterMembership
