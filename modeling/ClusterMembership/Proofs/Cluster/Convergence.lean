import ClusterMembership.Proofs.Cluster.Schedule
import Mathlib.Data.List.Infix

/-!
# Pushes spread what nodes hold

Along a schedule no report falls back, and after a push the target reports every member
at least as late as the source did: what the source left out the target had acknowledged,
and acks are held.  By induction over the hops of a path, whatever a node holds arrives
wherever the pushes lead.  When they lead from everywhere to everywhere, every table holds
the own rows of all nodes.
-/

namespace ClusterMembership

namespace Schedule

open Table

variable {Node : Type} [DecidableEq Node]

/-! ## Playing in parts -/

theorem play_append (tables : Node → Table) (first second : List (Step Node)) :
    play tables (first ++ second) = play (play tables first) second :=
  List.foldl_append

theorem legal_append [Fintype Node] (tables : Node → Table) (first second : List (Step Node)) :
    Legal tables (first ++ second) ↔
      Legal tables first ∧ Legal (play tables first) second := by
  induction first generalizing tables with
  | nil => exact (and_iff_right trivial).symm
  | cons step rest induct =>
    show Allowed tables step ∧ Legal (Schedule.after tables step) (rest ++ second) ↔ _
    rw [induct, ← and_assoc]
    rfl

/-- The entries issued along a schedule: the own rows of all nodes, at any time. -/
def Issued (tables : Node → Table) (steps : List (Step Node)) (entry : GossipEntry) : Prop :=
  ∃ past, past <+: steps ∧ ∃ node, entry = (play tables past node).own.entry

theorem issued_concat
    (tables : Node → Table)
    (steps : List (Step Node))
    (step : Step Node)
    (entry : GossipEntry) :
    Issued tables (steps ++ [step]) entry ↔
      Issued tables steps entry ∨
        ∃ node, entry = (Schedule.after (play tables steps) step node).own.entry := by
  constructor
  · rintro ⟨past, early, last⟩
    rcases List.prefix_concat_iff.1 early with rfl | earlier
    · rw [play_append] at last
      exact Or.inr last
    · exact Or.inl ⟨past, earlier, last⟩
  · rintro (⟨past, early, last⟩ | last)
    · exact ⟨past, early.trans (List.prefix_append steps [step]), last⟩
    · refine ⟨steps ++ [step], List.prefix_refl _, ?_⟩
      rw [play_append]
      exact last

/-- Recording the receipts of a push lets no report fall back. -/
theorem later_recorded
    (tables : Node → Table)
    (source target : Node)
    (count : Nat)
    (order : List GossipEntry)
    (now : Instant) :
    ∀ (node : Node) (name : MemberName),
      ((delivered tables source target order now node).report name).Precedes
        ((pushed tables source target count order now node).report name) := by
  apply (Function.forall_update_iff _ fun node (table : Table) =>
    ∀ name, ((delivered tables source target order now node).report name).Precedes
      (table.report name)).2
  exact ⟨(learns_recordAcks _ _ _).later, fun _ _ _ => .refl _⟩

namespace Authentic

variable [Fintype Node] {issued : GossipEntry → Prop} {tables : Node → Table}

/-- Every state of a schedule is authentic. -/
theorem play
    (authentic : Authentic (Issued tables []) tables)
    {steps : List (Step Node)}
    (legal : Legal tables steps) :
    Authentic (Issued tables steps) (Schedule.play tables steps) := by
  induction steps using List.reverseRecOn with
  | nil => exact authentic
  | append_singleton steps step induct =>
    have parts := (legal_append tables steps [step]).1 legal
    have stepped := (induct parts.1).after parts.2.1
    have issues : Issued tables (steps ++ [step]) = fun entry => Issued tables steps entry ∨
        ∃ node, entry = (Schedule.after (Schedule.play tables steps) step node).own.entry := by
      ext entry
      exact issued_concat tables steps step entry
    rw [issues, play_append]
    exact stepped

/-! ## Nothing falls back -/

omit [Fintype Node] in
theorem later_delivered
    (authentic : Authentic issued tables)
    {source target : Node}
    {count : Nat}
    {order : List GossipEntry}
    (delivers : order.Perm (sent tables source target count))
    (now : Instant) :
    ∀ (node : Node) (name : MemberName),
      ((tables node).report name).Precedes
        ((delivered tables source target order now node).report name) := by
  apply (Function.forall_update_iff tables fun node (table : Table) =>
    ∀ name, ((tables node).report name).Precedes (table.report name)).2
  exact ⟨(authentic.learns_delivered delivers now).later, fun _ _ _ => .refl _⟩

omit [Fintype Node] in
/-- No report falls back in a push. -/
theorem later_pushed
    (authentic : Authentic issued tables)
    {source target : Node}
    {count : Nat}
    {order : List GossipEntry}
    (delivers : order.Perm (sent tables source target count))
    (now : Instant)
    (node : Node)
    (name : MemberName) :
    ((tables node).report name).Precedes
      ((pushed tables source target count order now node).report name) :=
  (authentic.later_delivered delivers now node name).trans
    (later_recorded tables source target count order now node name)

/-- No report falls back in a step. -/
theorem later_after
    (authentic : Authentic issued tables)
    {step : Step Node}
    (allowed : Allowed tables step)
    (node : Node)
    (name : MemberName) :
    ((tables node).report name).Precedes ((Schedule.after tables step node).report name) := by
  rcases authentic.after_cases step with
    ⟨actor, renewal, moved, renews, grows⟩ | ⟨source, target, count, order, now, rfl⟩
  · rw [moved]
    revert node name
    apply (Function.forall_update_iff tables fun node (table : Table) =>
      ∀ name, ((tables node).report name).Precedes (table.report name)).2
    exact ⟨renews.later grows.advances.own, fun _ _ _ => .refl _⟩
  · exact authentic.later_pushed allowed.2 now node name

/-! ## What a push brings -/

omit [DecidableEq Node] in
/-- A node never owes a peer more entries than there are nodes. -/
theorem length_outstanding_le
    (authentic : Authentic issued tables)
    (holder : Node)
    (peer : MemberName) :
    ((tables holder).outstanding peer).length ≤ Fintype.card Node := by
  have faithful := authentic.faithful holder
  have once : (((tables holder).members.filter ((tables holder).isOutstanding peer)).map
      Member.name).Nodup :=
    faithful.sound.nodup_names.sublist (List.filter_sublist.map _)
  have owned : ((tables holder).members.filter ((tables holder).isOutstanding peer)).map
      Member.name ⊆ (Finset.univ : Finset Node).toList.map fun node => (tables node).own.name := by
    intro name listed
    rcases List.mem_map.1 listed with ⟨row, kept, rfl⟩
    rcases List.mem_filter.1 kept with ⟨member, owed⟩
    rw [isOutstanding, Bool.and_eq_true] at owed
    have recorded := faithful.recorded row.name
    rw [faithful.sound.report_of_mem member] at recorded
    rcases authentic.owned _ (recorded.issued_of_pos (of_decide_eq_true owed.1)) with
      ⟨node, about⟩
    exact List.mem_map.2 ⟨node, Finset.mem_toList.2 (Finset.mem_univ node), about.symm⟩
  have bound := (List.subperm_of_subset once owned).length_le
  rw [List.length_map, List.length_map, Finset.length_toList, Finset.card_univ] at bound
  rw [outstanding, List.length_mergeSort, List.length_map]
  exact bound

omit [Fintype Node] in
/-- What is delivered arrives. -/
theorem told_pushed
    (authentic : Authentic issued tables)
    {source target : Node}
    {count : Nat}
    {order : List GossipEntry}
    (delivers : order.Perm (sent tables source target count))
    (now : Instant)
    {entry : GossipEntry}
    (member : entry ∈ sent tables source target count) :
    entry.Precedes ((pushed tables source target count order now target).report entry.name) := by
  have told := (authentic.learns_delivered delivers now).told entry (delivers.mem_iff.2 member)
  have recorded := later_recorded tables source target count order now target entry.name
  rw [delivered, Function.update_self] at recorded
  exact told.trans recorded

/-- After a push the target reports every member at least as late as the source did. -/
theorem transfers
    (authentic : Authentic issued tables)
    {source target : Node}
    {count : Nat}
    (room : Fintype.card Node ≤ count)
    {order : List GossipEntry}
    (delivers : order.Perm (sent tables source target count))
    (now : Instant)
    (name : MemberName) :
    ((tables source).report name).Precedes
      ((pushed tables source target count order now target).report name) := by
  have origin := authentic.faithful source
  have receiver := authentic.faithful target
  have named := origin.sound.name_report name
  have everything : sent tables source target count =
      (tables source).outstanding (tables target).own.name :=
    List.take_of_length_le ((authentic.length_outstanding_le source _).trans room)
  by_cases owed : (tables source).report name ∈ sent tables source target count
  · have told := authentic.told_pushed delivers now owed
    rwa [named] at told
  · -- The target has acknowledged what it is not sent, so it holds it already.
    rw [everything] at owed
    have acknowledged := origin.sound.clockOf_le_acked_of_omitted owed
    have held := acknowledged.trans (authentic.acks source target name)
    have same := named.trans (receiver.sound.name_report name).symm
    have precedes := authentic.chained.precedes_of_clock_le (origin.recorded name)
      (receiver.recorded name) same held
    exact precedes.trans (authentic.later_pushed delivers now target name)

/-! ## Where pushes lead -/

/-- What a node reports arrives, as late or later, wherever the pushes lead. -/
theorem carries
    (authentic : Authentic issued tables)
    {steps : List (Step Node)}
    (legal : Legal tables steps)
    {first last : Node}
    (path : Carries steps first last)
    (name : MemberName) :
    ((tables first).report name).Precedes ((Schedule.play tables steps last).report name) := by
  induction path generalizing issued tables with
  | here node => exact .refl _
  | skip onward induct =>
    exact (authentic.later_after legal.1 _ name).trans (induct (authentic.after legal.1) legal.2)
  | hop onward induct =>
    exact (authentic.transfers legal.1.1 legal.1.2 _ name).trans
      (induct (authentic.after legal.1) legal.2)

/-- Nobody changes its name. -/
theorem name_after
    (authentic : Authentic issued tables)
    {step : Step Node}
    (allowed : Allowed tables step) :
    ∀ node, (Schedule.after tables step node).own.name = (tables node).own.name := by
  rcases authentic.after_cases step with
    ⟨actor, renewal, moved, -, grows⟩ | ⟨source, target, count, order, now, rfl⟩
  · rw [moved]
    apply (Function.forall_update_iff tables fun node (table : Table) =>
      table.own.name = (tables node).own.name).2
    exact ⟨grows.advances.own, fun _ _ => rfl⟩
  · intro node
    exact congrArg Member.name (authentic.own_pushed allowed.2 now node)

theorem name_play
    (authentic : Authentic issued tables)
    {steps : List (Step Node)}
    (legal : Legal tables steps)
    (node : Node) :
    (Schedule.play tables steps node).own.name = (tables node).own.name := by
  induction steps generalizing issued tables with
  | nil => rfl
  | cons step rest induct =>
    exact (induct (authentic.after legal.1) legal.2).trans (authentic.name_after legal.1 node)

/-- As long as nodes only push, own rows stay as they are. -/
theorem own_play
    (authentic : Authentic issued tables)
    {steps : List (Step Node)}
    (legal : Legal tables steps)
    (pushes : ∀ step ∈ steps, step.IsPush)
    (node : Node) :
    (Schedule.play tables steps node).own = (tables node).own := by
  induction steps generalizing issued tables with
  | nil => rfl
  | cons step rest induct =>
    have onward := induct (authentic.after legal.1) legal.2
      fun other member => pushes other (List.mem_cons_of_mem step member)
    apply onward.trans
    cases step with
    | push source target count order now => exact authentic.own_pushed legal.1.2 now node
    | setMetadata _ _ => exact (pushes _ List.mem_cons_self).elim
    | leave _ _ => exact (pushes _ List.mem_cons_self).elim

/-- Where pushes have led from a node, and nothing else has happened, its row is held. -/
theorem report_of_carries
    {later : GossipEntry → Prop}
    {steps : List (Step Node)}
    (authentic : Authentic issued tables)
    (legal : Legal tables steps)
    (pushes : ∀ step ∈ steps, step.IsPush)
    (final : Authentic later (Schedule.play tables steps))
    {owner holder : Node}
    (path : Carries steps owner holder) :
    (Schedule.play tables steps holder).report (Schedule.play tables steps owner).own.name =
      (Schedule.play tables steps owner).own.entry := by
  have own := authentic.own_play legal pushes owner
  have arrived := authentic.carries legal path (tables owner).own.name
  rw [report_own, ← own] at arrived
  have faithful := final.faithful holder
  have recorded := faithful.recorded (Schedule.play tables steps owner).own.name
  have named := faithful.sound.name_report (Schedule.play tables steps owner).own.name
  have known := (final.faithful owner).sound.ownObserved
  have issue := recorded.issued_of_pos (Nat.lt_of_lt_of_le known arrived.clock_le)
  exact ((final.faithful owner).own _ issue named).antisymm arrived

end Authentic

/-! ## Nodes that start and push -/

/-- The tables of nodes that start with the given profiles, after the steps of a schedule. -/
def state (profiles : Node → Profile) (steps : List (Step Node)) : Node → Table :=
  play (Cluster.founded profiles).table steps

theorem state_append (profiles : Node → Profile) (before after : List (Step Node)) :
    state profiles (before ++ after) = play (state profiles before) after :=
  play_append _ before after

section State

variable
    [Fintype Node]
    {profiles : Node → Profile}
    (distinct : Function.Injective fun node => (profiles node).name)

include distinct

theorem authentic_state
    {steps : List (Step Node)}
    (legal : Legal (Cluster.founded profiles).table steps) :
    Authentic (Issued (Cluster.founded profiles).table steps) (state profiles steps) := by
  refine Authentic.play ?_ legal
  have issues : Issued (Cluster.founded profiles).table [] =
      fun entry => ∃ node, entry = ((Cluster.founded profiles).table node).own.entry := by
    ext entry
    constructor
    · rintro ⟨past, early, last⟩
      rw [List.prefix_nil.1 early] at last
      exact last
    · intro last
      exact ⟨[], List.prefix_refl [], last⟩
  rw [issues]
  exact Authentic.founded distinct

theorem name_state
    {steps : List (Step Node)}
    (legal : Legal (Cluster.founded profiles).table steps)
    (node : Node) :
    (state profiles steps node).own.name = (profiles node).name := by
  have named := (Authentic.founded distinct).name_play legal node
  rw [state, named]
  exact congrArg Member.name (own_start _ _ _ _)

/-- An observed row is a row that its owner had at some point. -/
theorem exists_past_of_observed
    {steps : List (Step Node)}
    (legal : Legal (Cluster.founded profiles).table steps)
    {holder : Node}
    {row : Member}
    (member : row ∈ (state profiles steps holder).members)
    (observed : row.isObserved) :
    ∃ (owner : Node) (past : List (Step Node)), past <+: steps ∧
      row.name = (profiles owner).name ∧ row.entry = (state profiles past owner).own.entry := by
  have faithful := (authentic_state distinct legal).faithful holder
  have recorded := faithful.recorded row.name
  rw [faithful.sound.report_of_mem member] at recorded
  rcases recorded.issued_of_pos (of_decide_eq_true observed) with ⟨past, early, owner, issue⟩
  refine ⟨owner, past, early, ?_, issue⟩
  rcases early with ⟨rest, rfl⟩
  have named := name_state distinct ((legal_append _ past rest).1 legal).1 owner
  exact (congrArg GossipEntry.name issue).trans named

/-- Where pushes have led from a node, and nothing else has happened, its row is found. -/
theorem exists_row_of_carries
    {before after : List (Step Node)}
    (legal : Legal (Cluster.founded profiles).table (before ++ after))
    (pushes : ∀ step ∈ after, step.IsPush)
    {owner holder : Node}
    (path : Carries after owner holder) :
    ∃ row, (state profiles (before ++ after) holder).find? (profiles owner).name = some row ∧
      row.status = (state profiles (before ++ after) owner).own.status ∧
      row.clock = (state profiles (before ++ after) owner).own.clock ∧
      row.metadata = (state profiles (before ++ after) owner).own.metadata := by
  have parts := (legal_append _ before after).1 legal
  have final := authentic_state distinct legal
  have reported := (authentic_state distinct parts.1).report_of_carries parts.2 pushes
    (by rwa [← state_append]) path
  rw [← state_append, name_state distinct legal] at reported
  have faithful := final.faithful holder
  have observed := (final.faithful owner).sound.ownObserved
  have known := final.chained.known _ (final.current owner)
  rw [Member.metadataClock_entry] at known
  have held : 0 < (state profiles (before ++ after) holder).clockOf (profiles owner).name := by
    rw [clockOf, reported]
    exact observed
  rcases faithful.sound.exists_row_of_clockOf_pos held with ⟨row, member, about, -, entered⟩
  have same := entered.symm.trans reported
  refine ⟨row, faithful.sound.find?_eq_some_iff.2 ⟨member, about⟩, ?_, ?_, ?_⟩
  · exact congrArg GossipEntry.status same
  · exact congrArg GossipEntry.clock same
  · exact Member.metadata_eq_of_entry same known

/--
Let nodes with distinct names start, and change their rows and push in any order.
Wherever the pushes after some point lead, the clocks that were held there arrive.  Once
nodes only push, and the pushes have led from every node to every other one, all of them
hold the row of each node as the node has it.  And at any point an observed row is one
that its owner had before.
-/
theorem pushes_converge
    {before after : List (Step Node)}
    (legal : Legal (Cluster.founded profiles).table (before ++ after)) :
    (∀ (first last : Node) (name : MemberName), Carries after first last →
      (state profiles before first).clockOf name ≤
          (state profiles (before ++ after) last).clockOf name ∧
        ((state profiles before first).report name).metadataClock ≤
          ((state profiles (before ++ after) last).report name).metadataClock) ∧
    ((∀ step ∈ after, step.IsPush) → (∀ first last : Node, Carries after first last) →
      ∀ holder owner : Node, ∃ row,
        (state profiles (before ++ after) holder).find? (profiles owner).name = some row ∧
          row.status = (state profiles (before ++ after) owner).own.status ∧
          row.clock = (state profiles (before ++ after) owner).own.clock ∧
          row.metadata = (state profiles (before ++ after) owner).own.metadata) ∧
    (∀ holder : Node, ∀ row ∈ (state profiles before holder).members, row.isObserved →
      ∃ (owner : Node) (past : List (Step Node)), past <+: before ∧
        row.name = (profiles owner).name ∧
        row.entry = (state profiles past owner).own.entry) := by
  have parts := (legal_append _ before after).1 legal
  refine ⟨?_, ?_, ?_⟩
  · intro first last name path
    have arrived := (authentic_state distinct parts.1).carries parts.2 path name
    rw [← state_append] at arrived
    exact ⟨arrived.clock_le, arrived.metadataClock_le⟩
  · intro pushes everywhere holder owner
    exact exists_row_of_carries distinct legal pushes (everywhere owner holder)
  · intro holder row member observed
    exact exists_past_of_observed distinct parts.1 member observed

end State

/-! ## The smallest schedule -/

open Cluster

instance : Fintype Side where
  elems := {.left, .right}
  complete side := by cases side <;> decide

/-- One node of a pair pushes a single entry to the other one. -/
theorem push_pair
    {before after : Side → Table}
    (named : ∀ side, (before side).own.name = side.label)
    (sender : Side)
    {entry : GossipEntry}
    (owes : (before sender).outstanding sender.opposite.label = [entry])
    (merged : ((before sender.opposite).merge 0 sender.label entry).table = after sender.opposite)
    (recorded : (before sender).recordAck sender.opposite.label entry.name entry.clock =
      after sender) :
    Allowed before (.push sender sender.opposite 2 [entry] 0) ∧
      Schedule.after before (.push sender sender.opposite 2 [entry] 0) = after := by
  have single : sent before sender sender.opposite 2 = [entry] := by
    rw [sent, named, gossip, owes]
    rfl
  have told : delivered before sender sender.opposite [entry] 0 =
      Function.update before sender.opposite (after sender.opposite) := by
    rw [delivered, named, ← merged]
    rfl
  constructor
  · refine ⟨Nat.le_of_ble_eq_true rfl, ?_⟩
    rw [single]
  · show pushed before sender sender.opposite 2 [entry] 0 = after
    rw [pushed, single, told, named, Function.update_of_ne sender.ne_opposite]
    apply Function.update_eq_iff.2
    refine ⟨recorded, fun side other => ?_⟩
    rw [Side.eq_opposite other, Function.update_self]

/-- The left node has changed its metadata. -/
def renewedPair : Side → Table
  | .left => .ofTwo Side.left.renewed (.unobserved Side.right.label 0) 2 ∅
  | .right => .ofTwo Side.right.started (.unobserved Side.left.label 0) 1 ∅

/-- The left node has told the right one. -/
def toldPair : Side → Table
  | .left =>
    .ofTwo Side.left.renewed (.unobserved Side.right.label 0) 2
      (ackOf Side.right.label Side.left.label 2)
  | .right =>
    .ofTwo Side.right.started Side.left.renewed 2 (ackOf Side.left.label Side.left.label 2)

/-- The right node has answered. -/
def acquaintedPair : Side → Table
  | .left =>
    .ofTwo Side.left.renewed Side.right.started 2
      ((ackOf Side.right.label Side.left.label 2).insert (Side.right.label, Side.right.label) 1)
  | .right =>
    .ofTwo Side.right.started Side.left.renewed 2
      ((ackOf Side.left.label Side.left.label 2).insert (Side.left.label, Side.right.label) 1)

theorem after_setMetadata_pair :
    Schedule.after (founded Side.profile).table (.setMetadata .left [1]) = renewedPair := by
  rw [founded_profile]
  apply Function.update_eq_iff.2
  refine ⟨rfl, fun side other => ?_⟩
  cases side
  · exact absurd rfl other
  · rfl

theorem push_renewedPair :
    Allowed renewedPair (.push .left .right 2 [Side.left.renewed.entry] 0) ∧
      Schedule.after renewedPair (.push .left .right 2 [Side.left.renewed.entry] 0) =
        toldPair := by
  have owes : (renewedPair .left).outstanding Side.right.label = [Side.left.renewed.entry] := by
    apply (outstanding_ofTwo Side.right.label).trans
    simp [isOutstanding_ofTwo, Side.renewed, Side.started, Member.unobserved]
  have heard : (Member.unobserved Side.left.label 0).updated .lenient 0
      Side.left.renewed.entry.status Side.left.renewed.entry.clock
        Side.left.renewed.entry.metadata = Side.left.renewed := by
    decide
  refine push_pair ?_ .left owes ?_ ?_
  · intro side
    cases side <;> rfl
  · apply (merge_ofTwo rfl (by decide) heard Side.left.label).trans
    exact recordAck_ofTwo (by simp) (Nat.zero_le 2)
  · exact recordAck_ofTwo (by simp) (Nat.zero_le 2)

theorem push_toldPair :
    Allowed toldPair (.push .right .left 2 [Side.right.started.entry] 0) ∧
      Schedule.after toldPair (.push .right .left 2 [Side.right.started.entry] 0) =
        acquaintedPair := by
  have owes : (toldPair .right).outstanding Side.left.label = [Side.right.started.entry] := by
    apply (outstanding_ofTwo Side.left.label).trans
    simp [isOutstanding_ofTwo, Side.renewed, Side.started, Side.label]
  have heard : (Member.unobserved Side.right.label 0).updated .lenient 0
      Side.right.started.entry.status Side.right.started.entry.clock
        Side.right.started.entry.metadata = Side.right.started := by
    decide
  have known : ((ackOf Side.right.label Side.left.label 2)[(Side.right.label,
      Side.right.label)]?).getD 0 = 0 := by
    simp [Side.label]
  have told : ((ackOf Side.left.label Side.left.label 2)[(Side.left.label,
      Side.right.label)]?).getD 0 = 0 := by
    simp [Side.label]
  refine push_pair ?_ .right owes ?_ ?_
  · intro side
    cases side <;> rfl
  · apply (merge_ofTwo rfl (by decide) heard Side.right.label).trans
    exact recordAck_ofTwo known (Nat.zero_le 1)
  · exact recordAck_ofTwo told (Nat.zero_le 1)

/-- One node of a pair changes its metadata. -/
def change : List (Step Side) :=
  [.setMetadata .left [1]]

/-- Each node of a pair pushes to the other one. -/
def greetings : List (Step Side) :=
  [.push .left .right 2 [Side.left.renewed.entry] 0,
    .push .right .left 2 [Side.right.started.entry] 0]

theorem carries_greetings (first last : Side) : Carries greetings first last := by
  cases first <;> cases last
  · exact .skip (.skip (.here _))
  · exact .hop (.skip (.here _))
  · exact .skip (.hop (.here _))
  · exact .skip (.skip (.here _))

/-- When each node of a pair has pushed to the other one, both hold what one of them has changed. -/
theorem pushes_converge_pair :
    Legal (founded Side.profile).table (change ++ greetings) ∧
      ∀ holder : Side, ∃ row,
        (state Side.profile (change ++ greetings) holder).find? Side.left.label = some row ∧
          row.clock = 2 ∧ row.metadata = { clock := 2, payload := some [1] } := by
  have legal : Legal (founded Side.profile).table (change ++ greetings) := by
    show Allowed _ _ ∧ Allowed _ _ ∧ Allowed _ _ ∧ True
    rw [after_setMetadata_pair, push_renewedPair.2]
    exact ⟨trivial, push_renewedPair.1, push_toldPair.1, trivial⟩
  have final : state Side.profile (change ++ greetings) = acquaintedPair := by
    simp only [state, play, change, greetings, List.cons_append, List.nil_append, List.foldl_cons,
      List.foldl_nil, after_setMetadata_pair, push_renewedPair.2, push_toldPair.2]
  have pushes : ∀ step ∈ greetings, step.IsPush := by
    simp [greetings, Step.IsPush]
  refine ⟨legal, fun holder => ?_⟩
  have converged :=
    (pushes_converge Side.label_injective legal).2.1 pushes carries_greetings holder .left
  rcases converged with ⟨row, found, -, clock, metadata⟩
  rw [final] at clock metadata
  exact ⟨row, found, clock, metadata⟩

end Schedule

end ClusterMembership
