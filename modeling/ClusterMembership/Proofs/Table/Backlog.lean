import ClusterMembership.Proofs.Table.Expiry
import Mathlib.Data.String.Basic
import Mathlib.Order.Compare

/-!
# The backlog of a peer

A peer is owed every row that it has not acknowledged at its clock or newer, `Table.Owes`.  There
is only one way to put the entries of these rows in order, newest first and those of one clock by
name, so what is sent is determined by what is owed, `Consistent.outstanding_eq`.

Receipts take off what they acknowledge, and nothing else.  So a peer that is sent the first few
entries and acknowledges just these is owed the rest, `Consistent.outstanding_acknowledged`, and
round by round the backlog is sent from front to back.
-/

namespace ClusterMembership

namespace GossipEntry

/-- The entry goes first: it is newer, or of the same clock and first by name. -/
def Leads (entry other : GossipEntry) : Prop :=
  other.clock < entry.clock ∨ entry.clock = other.clock ∧ entry.name.text < other.name.text

theorem Leads.clock_le {entry other : GossipEntry} (leads : entry.Leads other) :
    other.clock ≤ entry.clock :=
  leads.elim Nat.le_of_lt fun level => Nat.le_of_eq level.1.symm

theorem Leads.asymm {entry other : GossipEntry} (leads : entry.Leads other) :
    ¬other.Leads entry := by
  intro back
  rcases leads with newer | ⟨level, first⟩
  · exact Nat.not_lt.2 back.clock_le newer
  · rcases back with newer | ⟨-, second⟩
    · exact Nat.ne_of_lt newer level
    · exact lt_asymm first second

/-- Entries that are in order are determined by which they are. -/
theorem eq_of_leads
    {first second : List GossipEntry}
    (ordered : first.Pairwise Leads)
    (sorted : second.Pairwise Leads)
    (same : ∀ entry, entry ∈ first ↔ entry ∈ second) :
    first = second := by
  have distinct {entries : List GossipEntry} (leads : entries.Pairwise Leads) : entries.Nodup := by
    refine leads.imp fun ahead equal => ?_
    subst equal
    exact ahead.asymm ahead
  have rearranged := (List.perm_ext_iff_of_nodup (distinct ordered) (distinct sorted)).2 same
  refine rearranged.eq_of_pairwise ?_ ordered sorted
  intro entry other _ _ ahead behind
  exact absurd behind ahead.asymm

end GossipEntry

namespace Table

variable
    {table : Table}
    {peer name : MemberName}
    {entry : GossipEntry}
    {count : Nat}

/-! ## What is owed -/

/-- The peer has yet to acknowledge the row that the entry tells of. -/
def Owes (table : Table) (peer : MemberName) (entry : GossipEntry) : Prop :=
  ∃ row ∈ table.members, row.entry = entry ∧ 0 < row.clock ∧ table.acked peer row.name < row.clock

theorem mem_outstanding_iff : entry ∈ table.outstanding peer ↔ table.Owes peer entry := by
  rw [mem_outstanding, Owes]
  refine exists_congr fun row => and_congr_right fun _ => ?_
  rw [isOutstanding, Member.isObserved, Bool.and_eq_true, decide_eq_true_iff, decide_eq_true_iff,
    and_comm]

theorem precedes_iff {left right : GossipEntry} :
    precedes left right = true ↔
      right.clock < left.clock ∨ left.clock = right.clock ∧ left.name.text ≤ right.name.text := by
  have named : (compare left.name right.name).isLE = true ↔ left.name.text ≤ right.name.text :=
    Ordering.isLE_iff_ne_gt.trans
      (@compare_le_iff_le String _ left.name.text right.name.text)
  rw [precedes, Bool.or_eq_true, Bool.and_eq_true, decide_eq_true_iff, decide_eq_true_iff, named]

theorem precedes_trans
    (first second third : GossipEntry)
    (before : precedes first second = true)
    (behind : precedes second third = true) :
    precedes first third = true := by
  rw [precedes_iff] at before behind ⊢
  rcases before with newer | ⟨level, named⟩
  · left
    rcases behind with newest | ⟨same, -⟩
    · exact Nat.lt_trans newest newer
    · exact same ▸ newer
  · rcases behind with newer | ⟨same, ordered⟩
    · exact Or.inl (level ▸ newer)
    · exact Or.inr ⟨level.trans same, le_trans named ordered⟩

theorem precedes_total (first second : GossipEntry) :
    (precedes first second || precedes second first) = true := by
  rw [Bool.or_eq_true, precedes_iff, precedes_iff]
  rcases Nat.lt_trichotomy first.clock second.clock with older | level | newer
  · exact Or.inr (Or.inl older)
  · rcases le_total first.name.text second.name.text with before | behind
    · exact Or.inl (Or.inr ⟨level, before⟩)
    · exact Or.inr (Or.inr ⟨level.symm, behind⟩)
  · exact Or.inl (Or.inl newer)

/-- No member is outstanding twice. -/
theorem Consistent.nodup_outstanding (consistent : table.Consistent) (peer : MemberName) :
    ((table.outstanding peer).map GossipEntry.name).Nodup := by
  have sorted := List.mergeSort_perm
    ((table.members.filter (table.isOutstanding peer)).map Member.entry) precedes
  refine (sorted.map GossipEntry.name).nodup_iff.2 ?_
  rw [List.map_map]
  exact consistent.nodup_names.sublist (List.filter_sublist.map Member.name)

/-- What is outstanding is in order, newest first and those of one clock by name. -/
theorem Consistent.leads_outstanding (consistent : table.Consistent) (peer : MemberName) :
    (table.outstanding peer).Pairwise GossipEntry.Leads := by
  have distinct := List.pairwise_map.1 (consistent.nodup_outstanding peer)
  have sorted : (table.outstanding peer).Pairwise fun left right => precedes left right = true :=
    List.pairwise_mergeSort precedes_trans precedes_total _
  refine (sorted.and distinct).imp ?_
  rintro left right ⟨before, differ⟩
  refine (precedes_iff.1 before).imp_right (And.imp_right fun named => lt_of_le_of_ne named ?_)
  intro same
  exact differ (congrArg MemberName.mk same)

/-- What is outstanding is determined by what the peer is owed. -/
theorem Consistent.outstanding_eq
    (consistent : table.Consistent)
    {entries : List GossipEntry}
    (ordered : entries.Pairwise GossipEntry.Leads)
    (owed : ∀ entry, entry ∈ entries ↔ table.Owes peer entry) :
    table.outstanding peer = entries :=
  GossipEntry.eq_of_leads (consistent.leads_outstanding peer) ordered fun entry =>
    mem_outstanding_iff.trans (owed entry).symm

/-! ## Receipts -/

/-- Acks are a running maximum: a clock is beyond the ack exactly if it was and is beyond all. -/
theorem acked_recordAcks_lt_iff {acks : List EntryAck} {clock : Nat} :
    (table.recordAcks peer acks).acked peer name < clock ↔
      table.acked peer name < clock ∧ ∀ ack ∈ acks, ack.name = name → ack.clock < clock := by
  induction acks generalizing table with
  | nil => simp [recordAcks]
  | cons ack rest step =>
    have recorded : table.recordAcks peer (ack :: rest) =
        (table.recordAck peer ack.name ack.clock).recordAcks peer rest := rfl
    rw [recorded, step, acked_recordAck, List.forall_mem_cons, ← and_assoc]
    refine and_congr_left fun _ => ?_
    by_cases about : name = ack.name
    · rw [if_pos ⟨rfl, about⟩, Nat.max_lt, about]
      simp
    · rw [if_neg fun same => about same.2]
      simp [Ne.symm about]

theorem acked_recordAcks_other
    {other : MemberName}
    (differ : other ≠ peer)
    (acks : List EntryAck) :
    (table.recordAcks peer acks).acked other = table.acked other := by
  induction acks generalizing table with
  | nil => rfl
  | cons ack rest step =>
    have others : (table.recordAcks peer (ack :: rest)).acked other =
        (table.recordAck peer ack.name ack.clock).acked other := step
    rw [others]
    funext queried
    rw [acked_recordAck, if_neg fun same => differ same.1]

theorem members_recordAcks (table : Table) (peer : MemberName) (acks : List EntryAck) :
    (table.recordAcks peer acks).members = table.members := by
  rcases recordAcks_eq table peer acks with ⟨recorded, same⟩
  rw [same]
  rfl

theorem Consistent.recordAcks
    (consistent : table.Consistent)
    (peer : MemberName)
    (acks : List EntryAck) :
    (table.recordAcks peer acks).Consistent := by
  rcases recordAcks_eq table peer acks with ⟨recorded, same⟩
  rw [same]
  exact consistent.of_sameArena rfl rfl rfl rfl

/-- Receipts take off what they acknowledge at its clock or newer. -/
theorem owes_recordAcks_iff {acks : List EntryAck} :
    (table.recordAcks peer acks).Owes peer entry ↔
      table.Owes peer entry ∧ ∀ ack ∈ acks, ack.name = entry.name → ack.clock < entry.clock := by
  simp only [Owes, members_recordAcks, acked_recordAcks_lt_iff]
  constructor
  · rintro ⟨row, member, rfl, observed, newer, beyond⟩
    exact ⟨⟨row, member, rfl, observed, newer⟩, beyond⟩
  · rintro ⟨⟨row, member, rfl, observed, newer⟩, beyond⟩
    exact ⟨row, member, rfl, observed, newer, beyond⟩

/-- What one peer acknowledges makes no difference to what another one is sent. -/
theorem gossip_recordAcks_other
    {other : MemberName}
    (differ : peer ≠ other)
    (acks : List EntryAck) :
    (table.recordAcks other acks).gossip peer count = table.gossip peer count := by
  have owed : (table.recordAcks other acks).isOutstanding peer = table.isOutstanding peer := by
    funext row
    rw [isOutstanding, acked_recordAcks_other differ, isOutstanding]
  rw [gossip, gossip, outstanding, outstanding, owed, members_recordAcks]

/-! ## Rounds -/

/-- A peer acknowledges just the entries that it is sent. -/
def acknowledged (table : Table) (peer : MemberName) (count : Nat) : Table :=
  table.recordAcks peer ((table.gossip peer count).map GossipEntry.ack)

/-- A number of rounds, in each of which a peer is sent entries and acknowledges just these. -/
def drained (table : Table) (peer : MemberName) (count : Nat) : (rounds : Nat) → Table
  | 0 => table
  | rounds + 1 => (table.drained peer count rounds).acknowledged peer count

/-- After the first few entries are acknowledged, the others are outstanding. -/
theorem Consistent.outstanding_acknowledged (consistent : table.Consistent) :
    (table.acknowledged peer count).outstanding peer = (table.outstanding peer).drop count := by
  refine (consistent.recordAcks peer _).outstanding_eq
    (consistent.leads_outstanding peer).drop fun entry => ?_
  have parts : table.gossip peer count ++ (table.outstanding peer).drop count =
      table.outstanding peer :=
    List.take_append_drop count _
  have disjoint : (table.gossip peer count ++ (table.outstanding peer).drop count).Pairwise
      fun left right => left.name ≠ right.name := by
    rw [parts]
    exact List.pairwise_map.1 (consistent.nodup_outstanding peer)
  rw [owes_recordAcks_iff, ← mem_outstanding_iff]
  constructor
  · intro left
    refine ⟨List.mem_of_mem_drop left, ?_⟩
    rintro ack told about
    rcases List.mem_map.1 told with ⟨sent, among, rfl⟩
    exact absurd about ((List.pairwise_append.1 disjoint).2.2 sent among entry left)
  · rintro ⟨owed, beyond⟩
    rw [← parts, List.mem_append] at owed
    refine owed.resolve_left fun sent => ?_
    exact Nat.lt_irrefl _ (beyond entry.ack (List.mem_map_of_mem sent) rfl)

theorem Consistent.drained
    (consistent : table.Consistent)
    (peer : MemberName)
    (count rounds : Nat) :
    (table.drained peer count rounds).Consistent := by
  induction rounds with
  | zero => exact consistent
  | succ rounds step => exact step.recordAcks peer _

theorem Consistent.outstanding_drained (consistent : table.Consistent) (rounds : Nat) :
    (table.drained peer count rounds).outstanding peer =
      (table.outstanding peer).drop (rounds * count) := by
  induction rounds with
  | zero => simp [Table.drained]
  | succ rounds step =>
    rw [Table.drained, (consistent.drained peer count rounds).outstanding_acknowledged, step,
      List.drop_drop, Nat.succ_mul]

/-- Every round goes on where the last one ended. -/
theorem Consistent.gossip_drained (consistent : table.Consistent) (rounds : Nat) :
    (table.drained peer count rounds).gossip peer count =
      ((table.outstanding peer).drop (rounds * count)).take count := by
  rw [gossip, consistent.outstanding_drained]

/-- What is sent in a number of rounds, one after the other, is the front of the backlog. -/
theorem Consistent.flatMap_gossip_drained (consistent : table.Consistent) (rounds : Nat) :
    (List.range rounds).flatMap (fun round =>
        (table.drained peer count round).gossip peer count) =
      (table.outstanding peer).take (rounds * count) := by
  induction rounds with
  | zero => simp
  | succ rounds step =>
    rw [List.range_succ, List.flatMap_append, step, Nat.succ_mul, List.take_add,
      ← consistent.gossip_drained, List.flatMap_singleton]

/-- So many rounds are enough if the backlog is not longer than what they send. -/
theorem rounds_le_iff {length round : Nat} (positive : 0 < count) :
    (length + count - 1) / count ≤ round ↔ length ≤ round * count := by
  rw [Nat.div_le_iff_le_mul_add_pred positive, Nat.mul_comm]
  omega

theorem Consistent.gossip_drained_eq_nil_iff
    (consistent : table.Consistent)
    (positive : 0 < count)
    {round : Nat} :
    (table.drained peer count round).gossip peer count = [] ↔
      ((table.outstanding peer).length + count - 1) / count ≤ round := by
  rw [consistent.gossip_drained, rounds_le_iff positive, List.take_eq_nil_iff,
    or_iff_right (Nat.ne_of_gt positive), List.drop_eq_nil_iff]

/-! ## Acks in the life of a table -/

/-- By this operation the peer tells that it holds the member at a clock. -/
def Operation.Acknowledges (operation : Operation) (peer : MemberName) (ack : EntryAck) : Prop :=
  match operation with
  | .merge _ source entry => source = peer ∧ entry.ack = ack
  | .recordAcks teller acks => teller = peer ∧ ack ∈ acks
  | .apply .. | .observe _ | .tick | .expire .. | .setMetadata _ | .leave _ | .insert ..
  | .takeInserted => False

/-- An ack rises only to what the peer tells. -/
theorem Timely.acked_perform
    (timely : table.Timely)
    (operation : Operation)
    (peer name : MemberName) :
    (table.perform operation).acked peer name ≤ table.acked peer name ∨
      operation.Acknowledges peer
        { name, clock := (table.perform operation).acked peer name } := by
  have kept {later : Table} (same : later.acks = table.acks) :
      later.acked peer name ≤ table.acked peer name :=
    Nat.le_of_eq (by rw [acked_congr same])
  cases operation with
  | apply now about status clock metadata =>
    exact Or.inl (kept (timely.acks_update .strict now status clock metadata about))
  | merge now source entry =>
    refine ((timely.grows_merge now source entry).acks peer name).imp Nat.le_of_eq ?_
    rintro ⟨teller, told⟩
    exact ⟨teller.symm, told.symm⟩
  | recordAcks source acks =>
    refine ((timely.grows_recordAcks source acks).acks peer name).imp Nat.le_of_eq ?_
    rintro ⟨teller, told⟩
    exact ⟨teller.symm, told⟩
  | expire wall asOf timeouts =>
    left
    rw [Table.perform, acked, timely.acks_expire]
    split
    · exact Nat.zero_le _
    · exact Nat.le_refl _
  | leave now =>
    refine Or.inl (kept ?_)
    rw [Table.perform, Table.leave]
    split <;> rfl
  | insert about now => exact Or.inl (kept (sameOutsideArena_insert table about now).acks)
  | observe | tick | setMetadata | takeInserted => exact Or.inl (kept rfl)

/-- A clock that is beyond the ack stays so until the peer acknowledges it or a newer one. -/
theorem Reachable.acked_performAll_lt
    (reachable : table.Reachable)
    {clock : Nat}
    (beyond : table.acked peer name < clock)
    {operations : List Operation}
    (untold : ∀ operation ∈ operations, ∀ told,
      operation.Acknowledges peer { name, clock := told } → told < clock) :
    (table.performAll operations).acked peer name < clock := by
  induction operations generalizing table with
  | nil => exact beyond
  | cons operation rest step =>
    refine step (reachable.perform operation) ?_ fun other among =>
      untold other (List.mem_cons_of_mem operation among)
    rcases reachable.timely.acked_perform operation peer name with kept | told
    · exact Nat.lt_of_le_of_lt kept beyond
    · exact untold operation List.mem_cons_self _ told

theorem length_outstanding_le_members (table : Table) (peer : MemberName) :
    (table.outstanding peer).length ≤ table.members.length := by
  rw [outstanding, List.length_mergeSort, List.length_map]
  exact List.length_filter_le _ _

/--
What a peer is sent is exactly the front of its backlog: the entries of the observed rows, the own
one included, that the peer has not acknowledged at their clock or newer, each once, newest first
and those of one clock by name; what is left out is never newer than what is sent.

If the peer acknowledges just what it is sent, round by round, the backlog is sent from front to
back, in as many rounds as it takes and in no more: from then on nothing is sent.

What others acknowledge makes no difference.  Acks are a running maximum, and whatever is done with
the table, a row whose clock is beyond all that the peer has acknowledged of the member is sent.
-/
theorem gossip_is_exact_and_drains (reachable : table.Reachable) (peer : MemberName) :
    ∃ backlog : List GossipEntry,
      (∀ entry, entry ∈ backlog ↔ ∃ row ∈ table.members, row.entry = entry ∧
        0 < row.clock ∧ ¬row.clock ≤ table.acked peer row.name) ∧
      (backlog.map GossipEntry.name).Nodup ∧
      backlog.Pairwise GossipEntry.Leads ∧
      (∀ count, table.gossip peer count = backlog.take count ∧
        ∀ sent ∈ table.gossip peer count, ∀ omitted ∈ backlog.drop count,
          omitted.clock ≤ sent.clock) ∧
      (∀ count, 0 < count →
        let rounds := (backlog.length + count - 1) / count
        (∀ round, (table.drained peer count round).gossip peer count =
          (backlog.drop (round * count)).take count) ∧
        (List.range rounds).flatMap
          (fun round => (table.drained peer count round).gossip peer count) = backlog ∧
        ∀ round, (table.drained peer count round).gossip peer count = [] ↔ rounds ≤ round) ∧
      (∀ other acks count, peer ≠ other →
        (table.recordAcks other acks).gossip peer count = table.gossip peer count) ∧
      (∀ acks name clock, (table.recordAcks peer acks).acked peer name < clock ↔
        table.acked peer name < clock ∧ ∀ ack ∈ acks, ack.name = name → ack.clock < clock) ∧
      ∀ operations, ∀ row ∈ (table.performAll operations).members,
        table.acked peer row.name < row.clock →
        (∀ operation ∈ operations, ∀ told,
          operation.Acknowledges peer { name := row.name, clock := told } → told < row.clock) →
        ∀ count, (table.performAll operations).members.length ≤ count →
          row.entry ∈ (table.performAll operations).gossip peer count := by
  have consistent := reachable.sound.toConsistent
  have ordered := consistent.leads_outstanding peer
  refine ⟨table.outstanding peer, fun entry => ?owed, consistent.nodup_outstanding peer, ordered,
    fun count => ⟨rfl, ?newest⟩, fun count positive => ⟨?sent, ?whole, ?ended⟩, ?others,
    fun acks name clock => acked_recordAcks_lt_iff, ?renewed⟩
  case owed =>
    simp only [Nat.not_le]
    exact mem_outstanding_iff
  case newest =>
    intro sent among omitted behind
    rw [← List.take_append_drop count (table.outstanding peer)] at ordered
    exact ((List.pairwise_append.1 ordered).2.2 sent among omitted behind).clock_le
  case sent => exact consistent.gossip_drained
  case whole =>
    rw [consistent.flatMap_gossip_drained]
    exact List.take_of_length_le ((rounds_le_iff positive).1 (Nat.le_refl _))
  case ended => exact fun round => consistent.gossip_drained_eq_nil_iff positive
  case others => exact fun other acks count differ => gossip_recordAcks_other differ acks
  case renewed =>
    intro operations row member beyond untold count room
    have newer := reachable.acked_performAll_lt beyond untold
    have observed : 0 < row.clock := Nat.lt_of_le_of_lt (Nat.zero_le _) beyond
    rw [gossip, List.take_of_length_le ((length_outstanding_le_members _ peer).trans room)]
    exact mem_outstanding_iff.2 ⟨row, member, rfl, observed, newer⟩

/--
A member is heard of, and another peer is sent one entry a round: first the news, then the own
entry, then nothing.
-/
theorem gossip_is_exact_and_drains_news :
    let peer : MemberName := { text := "10.0.0.3:7946" }
    let heard : GossipEntry :=
      { name := { text := "10.0.0.2:7946" }, clock := 5, status := .suspect, metadata := none }
    let start := start { text := "10.0.0.1:7946" } [] [] 0
    let table := start.performAll [.merge 0 heard.name heard]
    table.Reachable ∧ table.gossip peer 1 = [heard] ∧
      (table.drained peer 1 1).gossip peer 1 = [start.own.entry] ∧
      (table.drained peer 1 2).gossip peer 1 = [] := by
  intro peer heard start table
  have reachable : table.Reachable := (reachable_start _ _ _ _).performAll _
  have sound : start.Sound := sound_start _ _ _ _
  have foreign : heard.name ≠ start.own.name := by
    rw [own_start]
    decide
  have own : table.own = start.own := by
    have kept := sound.own_merge 0 heard.name heard
    rwa [if_neg foreign] at kept
  have rows (queried : MemberName) : table.other? queried =
      if queried = heard.name then
        some { name := heard.name, status := .suspect, clock := 5, statusTime := 0,
               metadata := .unknown }
      else none := by
    have alone : start.other? queried = none := by simp [start, Table.start, other?]
    have merged := sound.other?_merge 0 heard.name foreign queried
    rw [rowFor_start, alone] at merged
    exact merged
  have unacknowledged (name : MemberName) : table.acked peer name = 0 := by
    have timely : start.Timely := (reachable_start _ _ _ _).timely
    rcases timely.acked_perform (.merge 0 heard.name heard) peer name with kept | ⟨told, -⟩
    · rw [acked_start] at kept
      exact Nat.le_zero.1 kept
    · exact absurd told (by decide)
  rcases gossip_is_exact_and_drains reachable peer with
    ⟨backlog, owed, -, ordered, front, rounds, -⟩
  have whole : backlog = [heard, start.own.entry] := by
    refine GossipEntry.eq_of_leads ordered ?_ fun entry => (owed entry).trans ?_
    · rw [List.pairwise_pair, own_start]
      exact Or.inl (by decide)
    · simp only [unacknowledged, members, own, List.mem_cons, List.not_mem_nil, or_false]
      constructor
      · rintro ⟨row, rfl | other, rfl, -⟩
        · exact Or.inr rfl
        · have found := reachable.sound.other?_eq_some_iff.2 ⟨other, rfl⟩
          rw [rows] at found
          split at found
          · cases found
            exact Or.inl rfl
          · cases found
      · rintro (rfl | rfl)
        · have known := (rows heard.name).trans (if_pos rfl)
          have among := (reachable.sound.other?_eq_some_iff.1 known).1
          exact ⟨_, Or.inr among, rfl, by decide, by decide⟩
        · exact ⟨_, Or.inl rfl, rfl, by rw [own_start]; decide, by rw [own_start]; decide⟩
  rw [whole] at front rounds
  have sent := (rounds 1 Nat.one_pos).1
  exact ⟨reachable, (front 1).1, sent 1, sent 2⟩

end Table

end ClusterMembership
