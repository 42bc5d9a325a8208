import ClusterMembership.Proofs.Cluster.Acknowledgement
import ClusterMembership.Proofs.Table.Lineage
import Mathlib.Data.Fintype.Card

/-!
# Schedules of pushes

A schedule is a sequence of local changes and of pushes between the tables of a family.
In a push the target merges what the source owes it, in any order, and the source
records the receipts.  Nobody is suspected, so each node alone decides about itself.

`Authentic` is what every state along a schedule satisfies: each table reports entries
that were issued by their owners, the entries of one owner form a chain that ends in the
owner's row, and acks are held.
-/

namespace ClusterMembership

namespace Schedule

open Table

variable {Node : Type}

/-- A step of a schedule. -/
inductive Step (Node : Type) where
  | setMetadata (node : Node) (payload : Bytes)
  | leave (node : Node) (now : Instant)
  /-- The source sends up to `count` entries, which the target merges in the given order. -/
  | push (source target : Node) (count : Nat) (order : List GossipEntry) (now : Instant)

/-- Whether a step is a push. -/
def Step.IsPush : Step Node → Prop
  | .push .. => True
  | .setMetadata .. | .leave .. => False

/-- What the source of a push sends. -/
def sent (tables : Node → Table) (source target : Node) (count : Nat) : List GossipEntry :=
  (tables source).gossip (tables target).own.name count

section Playing

variable [DecidableEq Node]

/-- The tables after the target of a push has merged what it was sent. -/
def delivered
    (tables : Node → Table)
    (source target : Node)
    (order : List GossipEntry)
    (now : Instant) :
    Node → Table :=
  Function.update tables target
    ((tables target).mergeAll now (tables source).own.name order).table

/-- The tables after the source of a push has recorded the receipts as well. -/
def pushed
    (tables : Node → Table)
    (source target : Node)
    (count : Nat)
    (order : List GossipEntry)
    (now : Instant) :
    Node → Table :=
  Function.update (delivered tables source target order now) source
    ((delivered tables source target order now source).recordAcks (tables target).own.name
      ((sent tables source target count).map GossipEntry.ack))

/-- The tables after a step. -/
def after (tables : Node → Table) : Step Node → Node → Table
  | .setMetadata node payload =>
    Function.update tables node ((tables node).setMetadata payload).table
  | .leave node now => Function.update tables node ((tables node).leave now).table
  | .push source target count order now => pushed tables source target count order now

/-- The tables after all steps of a schedule. -/
def play (tables : Node → Table) (steps : List (Step Node)) : Node → Table :=
  steps.foldl after tables

/-- A push has room for an entry about every node, and delivers exactly what was sent. -/
def Allowed [Fintype Node] (tables : Node → Table) : Step Node → Prop
  | .push source target count order _ =>
    Fintype.card Node ≤ count ∧ order.Perm (sent tables source target count)
  | .setMetadata .. | .leave .. => True

/-- Every step of a schedule is allowed where it is taken. -/
def Legal [Fintype Node] (tables : Node → Table) : List (Step Node) → Prop
  | [] => True
  | step :: rest => Allowed tables step ∧ Legal (after tables step) rest

end Playing

/--
The pushes of a schedule lead from one node to another: each hop starts where the one
before it has arrived, and later.
-/
inductive Carries : List (Step Node) → Node → Node → Prop where
  | here (node : Node) : Carries [] node node
  | skip {step : Step Node} {rest : List (Step Node)} {first last : Node}
      (onward : Carries rest first last) :
      Carries (step :: rest) first last
  | hop {source target last : Node} {count : Nat} {order : List GossipEntry} {now : Instant}
      {rest : List (Step Node)}
      (onward : Carries rest target last) :
      Carries (.push source target count order now :: rest) source last

/-! ## What every state satisfies -/

/-- Every table of a family holds what owners issued, and the acks it has recorded are held. -/
structure Authentic (issued : GossipEntry → Prop) (tables : Node → Table) : Prop where
  distinct : Function.Injective fun node => (tables node).own.name
  chained : Chained issued
  faithful : ∀ node : Node, Faithful issued (tables node)
  /-- The own row of each node is the last entry it issued. -/
  current : ∀ node : Node, issued (tables node).own.entry
  owned : ∀ entry, issued entry → ∃ node : Node, entry.name = (tables node).own.name
  acks : AcksHeld tables

namespace Authentic

/-- Nodes that have just started have issued their own rows, and report nothing else. -/
theorem founded
    {profiles : Node → Profile}
    (distinct : Function.Injective fun node => (profiles node).name) :
    Authentic (fun entry => ∃ node, entry = ((Cluster.founded profiles).table node).own.entry)
      (Cluster.founded profiles).table := by
  have sincere := Cluster.sincere_founded distinct
  have own : ∀ node, ((Cluster.founded profiles).table node).own =
      { name := (profiles node).name, status := .online, clock := 1,
        statusTime := (profiles node).startedAt,
        metadata := { clock := 1, payload := some (profiles node).metadata } } :=
    fun node => own_start _ _ _ _
  refine ⟨sincere.distinct, ⟨?_, ?_, ?_⟩, ?_, fun node => ⟨node, rfl⟩, ?_, sincere.acks⟩
  · rintro entry ⟨node, rfl⟩
    rw [own]
    exact Nat.one_pos
  · rintro entry ⟨node, rfl⟩
    rw [own, Member.metadataClock_entry]
    exact Nat.one_pos
  · rintro first second ⟨node, rfl⟩ ⟨other, rfl⟩ same
    rw [sincere.distinct same]
    exact Or.inl (.refl _)
  · intro node
    refine ⟨sincere.tables node, fun name => ?_, ?_⟩
    · by_cases about : name = (profiles node).name
      · have named : name = ((Cluster.founded profiles).table node).own.name := by
          rw [own]
          exact about
        rw [named, report_own]
        exact Or.inr ⟨node, rfl⟩
      · have blank : ((Cluster.founded profiles).table node).report name = .blank name :=
          report_start_other _ _ _ about
        rw [blank]
        exact Or.inl rfl
    · rintro entry ⟨other, rfl⟩ about
      rw [sincere.distinct about]
      exact .refl _
  · rintro entry ⟨node, rfl⟩
    exact ⟨node, rfl⟩

/-- Entries that are issued besides those of a predicate may be limited to the own rows. -/
theorem of_own
    {issued wider : GossipEntry → Prop}
    {tables : Node → Table}
    (authentic : Authentic wider tables)
    (kept : ∀ entry, issued entry → wider entry)
    (limited : ∀ entry, wider entry →
      issued entry ∨ ∃ node, entry = (tables node).own.entry) :
    Authentic (fun entry => issued entry ∨ ∃ node, entry = (tables node).own.entry) tables := by
  have same : (fun entry => issued entry ∨ ∃ node, entry = (tables node).own.entry) = wider := by
    ext entry
    constructor
    · rintro (issue | ⟨node, rfl⟩)
      · exact kept entry issue
      · exact authentic.current node
    · exact limited entry
  rw [same]
  exact authentic

section Update

variable
    [DecidableEq Node]
    {issued : GossipEntry → Prop}
    {tables : Node → Table}
    {claims : Claim → Prop}
    {receipts : Receipts}
    {node : Node}
    {after : Table}

/-- A node that learns issued entries, and records receipts of what is held, stays authentic. -/
theorem learn
    {entries : List GossipEntry}
    (authentic : Authentic issued tables)
    (learns : Learns entries (tables node) after)
    (issues : ∀ entry ∈ entries, issued entry)
    (grows : Grows claims receipts (tables node) after)
    (received : ∀ peer ack, receipts (tables peer).own.name ack →
      ack.clock ≤ (tables peer).clockOf ack.name) :
    Authentic issued (Function.update tables node after) := by
  have own : ∀ other, (Function.update tables node after other).own = (tables other).own :=
    (Function.forall_update_iff tables fun other table => table.own = (tables other).own).2
      ⟨learns.own, fun _ _ => rfl⟩
  constructor
  · simpa only [own] using authentic.distinct
  · exact authentic.chained
  · apply (Function.forall_update_iff tables fun _ table => Faithful issued table).2
    exact ⟨(authentic.faithful node).of_learns grows.sound learns issues,
      fun other _ => authentic.faithful other⟩
  · intro other
    rw [own]
    exact authentic.current other
  · intro entry issue
    simpa only [own] using authentic.owned entry issue
  · exact authentic.acks.update grows received

/-- A node that renews its row issues it, and stays authentic. -/
theorem renew
    (authentic : Authentic issued tables)
    (renews : Renews (tables node) after)
    (grows : Grows claims (fun _ _ => False) (tables node) after) :
    Authentic (fun entry => issued entry ∨ entry = after.own.entry)
      (Function.update tables node after) := by
  have named : ∀ other, (Function.update tables node after other).own.name =
      (tables other).own.name :=
    (Function.forall_update_iff tables fun other table =>
      table.own.name = (tables other).own.name).2 ⟨grows.advances.own, fun _ _ => rfl⟩
  have last : ∀ entry, issued entry → entry.name = after.own.entry.name →
      entry.Precedes after.own.entry := by
    intro entry issue about
    have own : entry.name = (tables node).own.name := about.trans grows.advances.own
    exact ((authentic.faithful node).own entry issue own).trans renews.own
  constructor
  · simpa only [named] using authentic.distinct
  · constructor
    · rintro entry (issue | rfl)
      · exact authentic.chained.observed entry issue
      · exact grows.sound.ownObserved
    · rintro entry (issue | rfl)
      · exact authentic.chained.known entry issue
      · exact Nat.lt_of_lt_of_le (authentic.chained.known _ (authentic.current node))
          renews.own.metadataClock_le
    · rintro first second (issue | rfl) (other | rfl) same
      · exact authentic.chained.ordered first second issue other same
      · exact Or.inl (last first issue same)
      · exact Or.inr (last second other same.symm)
      · exact Or.inl (.refl _)
  · apply (Function.forall_update_iff tables fun _ table =>
      Faithful (fun entry => issued entry ∨ entry = after.own.entry) table).2
    constructor
    · refine ⟨grows.sound, fun name => ?_, ?_⟩
      · by_cases about : name = (tables node).own.name
        · rw [about, ← grows.advances.own, report_own]
          exact Or.inr (Or.inr rfl)
        · rw [renews.others name about]
          exact ((authentic.faithful node).recorded name).imp id Or.inl
      · rintro entry (issue | rfl) about
        · exact last entry issue about
        · exact .refl _
    · intro other different
      refine ⟨(authentic.faithful other).sound, fun name => ?_, ?_⟩
      · exact ((authentic.faithful other).recorded name).imp id Or.inl
      · rintro entry (issue | rfl) about
        · exact (authentic.faithful other).own entry issue about
        · exact absurd (authentic.distinct (about.symm.trans grows.advances.own)) different
  · apply (Function.forall_update_iff tables fun _ table =>
      issued table.own.entry ∨ table.own.entry = after.own.entry).2
    exact ⟨Or.inr rfl, fun other _ => Or.inl (authentic.current other)⟩
  · rintro entry (issue | rfl)
    · simpa only [named] using authentic.owned entry issue
    · refine ⟨node, ?_⟩
      rw [Function.update_self]
      rfl
  · exact authentic.acks.update grows fun _ _ absurd => absurd.elim

end Update

section Step

variable {issued : GossipEntry → Prop} {tables : Node → Table}

/-- What is sent about a member is what the source reports about it, and was issued. -/
theorem of_mem_sent
    (authentic : Authentic issued tables)
    {source target : Node}
    {count : Nat}
    {entry : GossipEntry}
    (member : entry ∈ sent tables source target count) :
    issued entry ∧ (tables source).report entry.name = entry := by
  have faithful := authentic.faithful source
  have outstanding := List.mem_of_mem_take member
  have reported := faithful.sound.report_of_mem_outstanding outstanding
  rcases mem_outstanding.1 outstanding with ⟨row, -, owed, rfl⟩
  rw [isOutstanding, Bool.and_eq_true] at owed
  have recorded := faithful.recorded row.entry.name
  rw [reported] at recorded
  exact ⟨recorded.issued_of_pos (of_decide_eq_true owed.1), reported⟩

theorem issued_of_delivered
    (authentic : Authentic issued tables)
    {source target : Node}
    {count : Nat}
    {order : List GossipEntry}
    (delivers : order.Perm (sent tables source target count)) :
    ∀ entry ∈ order, issued entry := by
  intro entry member
  exact (authentic.of_mem_sent (delivers.mem_iff.1 member)).1

/-- The target of a push learns what is delivered. -/
theorem learns_delivered
    (authentic : Authentic issued tables)
    {source target : Node}
    {count : Nat}
    {order : List GossipEntry}
    (delivers : order.Perm (sent tables source target count))
    (now : Instant) :
    Learns order (tables target)
      ((tables target).mergeAll now (tables source).own.name order).table :=
  (authentic.faithful target).learns_mergeAll now _ authentic.chained
    (authentic.issued_of_delivered delivers)

variable [DecidableEq Node]

theorem deliver
    (authentic : Authentic issued tables)
    {source target : Node}
    {count : Nat}
    {order : List GossipEntry}
    (delivers : order.Perm (sent tables source target count))
    (now : Instant) :
    Authentic issued (delivered tables source target order now) := by
  apply authentic.learn (authentic.learns_delivered delivers now)
    (authentic.issued_of_delivered delivers)
    ((authentic.faithful target).sound.grows_mergeAll now (tables source).own.name order)
  rintro peer ack ⟨told, entry, member, rfl⟩
  have held := (authentic.of_mem_sent (delivers.mem_iff.1 member)).2
  rw [authentic.distinct told]
  exact Nat.le_of_eq (congrArg GossipEntry.clock held).symm

/-- By the time the source of a push records the receipts, the target holds what was sent. -/
theorem push
    (authentic : Authentic issued tables)
    {source target : Node}
    {count : Nat}
    {order : List GossipEntry}
    (delivers : order.Perm (sent tables source target count))
    (now : Instant) :
    Authentic issued (pushed tables source target count order now) := by
  have delivery := authentic.deliver delivers now
  have learns := authentic.learns_delivered delivers now
  refine delivery.learn (learns_recordAcks _ _ _) (fun _ absurd => by cases absurd)
    ((delivery.faithful source).sound.grows_recordAcks _ _) ?_
  rintro peer ack ⟨told, member⟩
  rcases List.mem_map.1 member with ⟨entry, sent, rfl⟩
  have own : ((delivered tables source target order now) target).own = (tables target).own := by
    rw [delivered, Function.update_self]
    exact learns.own
  rw [← own] at told
  rw [delivery.distinct told, delivered, Function.update_self]
  exact (learns.told entry (delivers.mem_iff.2 sent)).clock_le

/-- Pushes change no own row. -/
theorem own_pushed
    (authentic : Authentic issued tables)
    {source target : Node}
    {count : Nat}
    {order : List GossipEntry}
    (delivers : order.Perm (sent tables source target count))
    (now : Instant)
    (node : Node) :
    (pushed tables source target count order now node).own = (tables node).own := by
  have learns := authentic.learns_delivered delivers now
  have merged : ∀ node, (delivered tables source target order now node).own = (tables node).own :=
    (Function.forall_update_iff tables fun node table => table.own = (tables node).own).2
      ⟨learns.own, fun _ _ => rfl⟩
  have recorded : ∀ node, (pushed tables source target count order now node).own =
      (delivered tables source target order now node).own :=
    (Function.forall_update_iff _ fun node (table : Table) =>
      table.own = (delivered tables source target order now node).own).2
      ⟨(learns_recordAcks _ _ _).own, fun _ _ => rfl⟩
  exact (recorded node).trans (merged node)

/-- A step either renews the row of one node, or is a push. -/
theorem after_cases (authentic : Authentic issued tables) (step : Step Node) :
    (∃ (node : Node) (renewal : Table),
      Schedule.after tables step = Function.update tables node renewal ∧
        Renews (tables node) renewal ∧
        Grows (fun claim => claim.name = (tables node).own.name) (fun _ _ => False) (tables node)
          renewal) ∨
      ∃ source target count order now, step = .push source target count order now := by
  cases step with
  | setMetadata node payload =>
    have sound := (authentic.faithful node).sound
    exact Or.inl ⟨node, _, rfl, sound.renews_setMetadata payload, sound.grows_setMetadata payload⟩
  | leave node now =>
    have sound := (authentic.faithful node).sound
    exact Or.inl ⟨node, _, rfl, sound.renews_leave now, sound.grows_leave now⟩
  | push source target count order now =>
    exact Or.inr ⟨source, target, count, order, now, rfl⟩

variable [Fintype Node]

/-- After a step, the own rows it leaves are issued as well. -/
theorem after
    (authentic : Authentic issued tables)
    {step : Step Node}
    (allowed : Allowed tables step) :
    Authentic (fun entry => issued entry ∨
        ∃ node, entry = (Schedule.after tables step node).own.entry)
      (Schedule.after tables step) := by
  rcases authentic.after_cases step with
    ⟨node, renewal, moved, renews, grows⟩ | ⟨source, target, count, order, now, rfl⟩
  · rw [moved]
    apply (authentic.renew renews grows).of_own (fun _ => Or.inl)
    rintro entry (issue | rfl)
    · exact Or.inl issue
    · refine Or.inr ⟨node, ?_⟩
      rw [Function.update_self]
  · exact (authentic.push allowed.2 now).of_own (fun _ => id) fun _ => Or.inl

end Step

end Authentic

end Schedule

end ClusterMembership
