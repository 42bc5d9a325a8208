import ClusterMembership.Proofs.Table.Decisions

/-!
# Entries of one owner

When nobody but the owner decides about a member, the entries about it form a chain: each
has a newer clock than the one before, and its metadata are the same or newer too.  Two
such entries are joined by taking the later one, so a table that merges them holds, for
every member, one of the entries the owner issued and never a mixture.

`Table.Faithful` says this of a table, together with what keeps refutations away: no
entry that was issued about the node itself contradicts its row.
-/

namespace ClusterMembership

namespace GossipEntry

/-- An entry is outdated by another one with a newer clock and no older metadata. -/
structure Outdated (older newer : GossipEntry) : Prop where
  name : older.name = newer.name
  clock : older.clock < newer.clock
  metadata : older.metadata = newer.metadata ∨ older.metadataClock < newer.metadataClock

/-- One entry comes before another one in the chain of its member, or is the same. -/
def Precedes (older newer : GossipEntry) : Prop :=
  older = newer ∨ Outdated older newer

theorem Outdated.metadataClock_le {older newer : GossipEntry} (outdated : Outdated older newer) :
    older.metadataClock ≤ newer.metadataClock := by
  rcases outdated.metadata with same | less
  · exact Nat.le_of_eq (by rw [metadataClock, metadataClock, same])
  · exact Nat.le_of_lt less

theorem Outdated.trans
    {first second third : GossipEntry}
    (before : Outdated first second)
    (after : Outdated second third) :
    Outdated first third := by
  constructor
  · exact before.name.trans after.name
  · exact Nat.lt_trans before.clock after.clock
  · rcases before.metadata with same | less
    · rcases after.metadata with unchanged | newer
      · exact Or.inl (same.trans unchanged)
      · rw [metadataClock, same]
        exact Or.inr newer
    · exact Or.inr (Nat.lt_of_lt_of_le less after.metadataClock_le)

/-- The entry of a member nothing was heard of is outdated by any that says something. -/
theorem outdated_blank
    {entry : GossipEntry}
    (observed : 0 < entry.clock)
    (known : 0 < entry.metadataClock) :
    Outdated (blank entry.name) entry :=
  ⟨rfl, observed, Or.inr known⟩

namespace Precedes

variable {first second third : GossipEntry}

theorem refl (entry : GossipEntry) : Precedes entry entry :=
  Or.inl rfl

theorem trans (before : Precedes first second) (after : Precedes second third) :
    Precedes first third := by
  rcases before with rfl | older
  · exact after
  · rcases after with rfl | newer
    · exact Or.inr older
    · exact Or.inr (older.trans newer)

theorem clock_le (precedes : Precedes first second) : first.clock ≤ second.clock := by
  rcases precedes with rfl | outdated
  · exact Nat.le_refl first.clock
  · exact Nat.le_of_lt outdated.clock

theorem metadataClock_le (precedes : Precedes first second) :
    first.metadataClock ≤ second.metadataClock := by
  rcases precedes with rfl | outdated
  · exact Nat.le_refl first.metadataClock
  · exact outdated.metadataClock_le

/-- The clock decides: an entry that is not behind its successor is the successor. -/
theorem eq_of_clock_le (precedes : Precedes first second) (level : second.clock ≤ first.clock) :
    first = second := by
  rcases precedes with same | outdated
  · exact same
  · exact absurd level (Nat.not_le_of_lt outdated.clock)

theorem antisymm (forth : Precedes first second) (back : Precedes second first) :
    first = second :=
  forth.eq_of_clock_le back.clock_le

/-- Joining a later entry takes all of it. -/
theorem join_newer (precedes : Precedes first second) : first.join second = second := by
  rcases precedes with rfl | outdated
  · simp [join]
  · have clock : max first.clock second.clock = second.clock :=
      Nat.max_eq_right (Nat.le_of_lt outdated.clock)
    have metadata : (if first.metadataClock < second.metadataClock then second.metadata
        else first.metadata) = second.metadata := by
      rcases outdated.metadata with same | less
      · simp [same]
      · exact if_pos less
    rw [join, clock, metadata, if_pos outdated.clock, outdated.name]

/-- Joining an earlier entry takes nothing of it. -/
theorem join_older (precedes : Precedes first second) : second.join first = second := by
  have clock : max second.clock first.clock = second.clock := Nat.max_eq_left precedes.clock_le
  have behind : ¬second.clock < first.clock := Nat.not_lt_of_le precedes.clock_le
  have outdated : ¬second.metadataClock < first.metadataClock :=
    Nat.not_lt_of_le precedes.metadataClock_le
  rw [join, clock, if_neg behind, if_neg outdated]

end Precedes

end GossipEntry

namespace Table

/-! ## What owners issue -/

/-- The entries issued about one member form a chain, and all of them say something. -/
structure Chained (issued : GossipEntry → Prop) : Prop where
  observed : ∀ entry, issued entry → 0 < entry.clock
  known : ∀ entry, issued entry → 0 < entry.metadataClock
  ordered : ∀ first second, issued first → issued second → first.name = second.name →
    first.Precedes second ∨ second.Precedes first

/-- What a table may report: nothing, or an entry that was issued. -/
def Recorded (issued : GossipEntry → Prop) (entry : GossipEntry) : Prop :=
  entry = .blank entry.name ∨ issued entry

section Chained

variable {issued : GossipEntry → Prop} (chained : Chained issued)

include chained

/-- Whatever is reported about a member is no earlier than no entry at all. -/
theorem Chained.blank_precedes {entry : GossipEntry} (recorded : Recorded issued entry) :
    (GossipEntry.blank entry.name).Precedes entry := by
  rcases recorded with blank | issue
  · exact Or.inl blank.symm
  · exact Or.inr
      (GossipEntry.outdated_blank (chained.observed entry issue) (chained.known entry issue))

/-- Of two entries that may be reported about one member, one precedes the other. -/
theorem Chained.comparable
    {first second : GossipEntry}
    (former : Recorded issued first)
    (latter : Recorded issued second)
    (same : first.name = second.name) :
    first.Precedes second ∨ second.Precedes first := by
  rcases former with blank | issue
  · rw [blank, same]
    exact Or.inl (chained.blank_precedes latter)
  · rcases latter with void | other
    · rw [void, ← same]
      exact Or.inr (chained.blank_precedes (Or.inr issue))
    · exact chained.ordered first second issue other same

/-- Of two entries that may be reported about one member, the clocks tell which is later. -/
theorem Chained.precedes_of_clock_le
    {first second : GossipEntry}
    (former : Recorded issued first)
    (latter : Recorded issued second)
    (same : first.name = second.name)
    (level : first.clock ≤ second.clock) :
    first.Precedes second := by
  rcases chained.comparable former latter same with older | newer
  · exact older
  · exact Or.inl (newer.eq_of_clock_le level).symm

end Chained

/-- What is reported at a positive clock was issued. -/
theorem Recorded.issued_of_pos
    {issued : GossipEntry → Prop}
    {entry : GossipEntry}
    (recorded : Recorded issued entry)
    (observed : 0 < entry.clock) :
    issued entry := by
  rcases recorded with blank | issue
  · rw [blank] at observed
    exact absurd observed (Nat.lt_irrefl 0)
  · exact issue

/-! ## Merging issued entries -/

/-- A table reports only what was issued, and nothing issued contradicts its own row. -/
structure Faithful (issued : GossipEntry → Prop) (table : Table) : Prop where
  sound : table.Sound
  recorded : ∀ name : MemberName, Recorded issued (table.report name)
  own : ∀ entry, issued entry → entry.name = table.own.name → entry.Precedes table.own.entry

/-- A table learns entries when it adopts some of them whole, and none is later than it knows. -/
structure Learns (entries : List GossipEntry) (before after : Table) : Prop where
  own : after.own = before.own
  later : ∀ name : MemberName, (before.report name).Precedes (after.report name)
  adopted : ∀ name : MemberName,
    after.report name = before.report name ∨ after.report name ∈ entries
  told : ∀ entry ∈ entries, entry.Precedes (after.report entry.name)

namespace Learns

theorem refl (table : Table) : Learns [] table table :=
  ⟨rfl, fun _ => .refl _, fun _ => Or.inl rfl, fun _ absurd => by cases absurd⟩

theorem trans
    {first second third : Table}
    {earlier later : List GossipEntry}
    (before : Learns earlier first second)
    (after : Learns later second third) :
    Learns (earlier ++ later) first third := by
  constructor
  · exact after.own.trans before.own
  · intro name
    exact (before.later name).trans (after.later name)
  · intro name
    rcases after.adopted name with same | new
    · rcases before.adopted name with unchanged | older
      · exact Or.inl (same.trans unchanged)
      · rw [same]
        exact Or.inr (List.mem_append_left later older)
    · exact Or.inr (List.mem_append_right earlier new)
  · intro entry member
    rcases List.mem_append.1 member with old | new
    · exact (before.told entry old).trans (after.later entry.name)
    · exact after.told entry new

end Learns

section Merge

variable
    {issued : GossipEntry → Prop}
    {table : Table}
    (now : Instant)
    (source : MemberName)

/-- A table that learns issued entries stays faithful. -/
theorem Faithful.of_learns
    {after : Table}
    {entries : List GossipEntry}
    (faithful : Faithful issued table)
    (sound : after.Sound)
    (learns : Learns entries table after)
    (issues : ∀ entry ∈ entries, issued entry) :
    Faithful issued after := by
  constructor
  · exact sound
  · intro name
    rcases learns.adopted name with same | new
    · rw [same]
      exact faithful.recorded name
    · exact Or.inr (issues _ new)
  · intro entry issue about
    rw [learns.own] at about ⊢
    exact faithful.own entry issue about

/-- An issued entry about the node itself is no reason to answer. -/
theorem Faithful.own_merge
    (faithful : Faithful issued table)
    {entry : GossipEntry}
    (issue : issued entry) :
    (table.merge now source entry).table.own = table.own := by
  have recorded := faithful.sound.recordAck source entry.name entry.clock
  have moved := recorded.own_update .lenient now entry.status entry.clock entry.metadata entry.name
  rw [← table_merge] at moved
  rw [moved]
  split
  · rename_i about
    have precedes := faithful.own entry issue about
    show table.own.answering table.clock entry.status entry.clock = table.own
    apply if_pos
    rcases precedes with same | outdated
    · exact Or.inr ⟨congrArg GossipEntry.status same, congrArg GossipEntry.clock same⟩
    · exact Or.inl outdated.clock
  · rfl

variable (chained : Chained issued)

include chained

/-- Of what a table reports and an issued entry about the same member, merging keeps the later. -/
theorem Faithful.report_merge
    (faithful : Faithful issued table)
    {entry : GossipEntry}
    (issue : issued entry) :
    entry.Precedes (table.report entry.name) ∧
        (table.merge now source entry).table.report entry.name = table.report entry.name ∨
      (table.report entry.name).Precedes entry ∧
        (table.merge now source entry).table.report entry.name = entry := by
  by_cases about : entry.name = table.own.name
  · have own := faithful.own_merge now source issue
    have reported := report_own (table.merge now source entry).table
    rw [own, ← report_own] at reported
    rw [about, reported, report_own]
    exact Or.inl ⟨faithful.own entry issue about, rfl⟩
  · have named := faithful.sound.name_report entry.name
    rw [faithful.sound.report_merge now source about]
    rcases chained.comparable (Or.inr issue) (faithful.recorded entry.name) named.symm with
      older | newer
    · exact Or.inl ⟨older, older.join_older⟩
    · exact Or.inr ⟨newer, newer.join_newer⟩

/-- Merging an issued entry learns it. -/
theorem Faithful.learns_merge
    (faithful : Faithful issued table)
    {entry : GossipEntry}
    (issue : issued entry) :
    Learns [entry] table (table.merge now source entry).table := by
  have here := faithful.report_merge now source chained issue
  have elsewhere : ∀ name, name ≠ entry.name →
      (table.merge now source entry).table.report name = table.report name :=
    fun name other => faithful.sound.report_merge_elsewhere now source entry other
  constructor
  · exact faithful.own_merge now source issue
  · intro name
    by_cases same : name = entry.name
    · rw [same]
      rcases here with ⟨-, kept⟩ | ⟨newer, adopted⟩
      · rw [kept]
        exact .refl _
      · rw [adopted]
        exact newer
    · rw [elsewhere name same]
      exact .refl _
  · intro name
    by_cases same : name = entry.name
    · rw [same]
      rcases here with ⟨-, kept⟩ | ⟨-, adopted⟩
      · exact Or.inl kept
      · exact Or.inr (List.mem_singleton.2 adopted)
    · exact Or.inl (elsewhere name same)
  · intro other member
    rw [List.mem_singleton.1 member]
    rcases here with ⟨older, kept⟩ | ⟨-, adopted⟩
    · rw [kept]
      exact older
    · rw [adopted]
      exact .refl _

/-- Merging issued entries learns them all, in whatever order they come. -/
theorem Faithful.learns_mergeAll
    (faithful : Faithful issued table)
    {entries : List GossipEntry}
    (issues : ∀ entry ∈ entries, issued entry) :
    Learns entries table (table.mergeAll now source entries).table := by
  induction entries generalizing table with
  | nil => exact .refl table
  | cons entry rest step =>
    have issue := issues entry List.mem_cons_self
    have first := faithful.learns_merge now source chained issue
    have after := faithful.of_learns (faithful.sound.merge now source entry) first
      fun other member => by rwa [List.mem_singleton.1 member]
    exact first.trans (step after fun other member => issues other (List.mem_cons_of_mem _ member))

end Merge

/-- Recording receipts learns nothing. -/
theorem learns_recordAcks (table : Table) (peer : MemberName) (acks : List EntryAck) :
    Learns [] table (table.recordAcks peer acks) := by
  induction acks generalizing table with
  | nil => exact .refl table
  | cons ack rest step =>
    have reports := report_recordAck table peer ack.name ack.clock
    have first : Learns [] table (table.recordAck peer ack.name ack.clock) := by
      refine ⟨rfl, fun name => ?_, fun name => Or.inl ?_, fun _ absurd => by cases absurd⟩
      · rw [reports]
        exact .refl _
      · rw [reports]
    exact first.trans (step _)

/-! ## What the owner issues next -/

/-- The own row is renewed, and nothing else that is reported changes. -/
structure Renews (before after : Table) : Prop where
  own : before.own.entry.Precedes after.own.entry
  others : ∀ name : MemberName, name ≠ before.own.name → after.report name = before.report name

theorem Renews.refl (table : Table) : Renews table table :=
  ⟨.refl _, fun _ _ => rfl⟩

/-- A node that renews its row reports no member behind what it reported before. -/
theorem Renews.later
    {before after : Table}
    (renews : Renews before after)
    (name : after.own.name = before.own.name)
    (queried : MemberName) :
    (before.report queried).Precedes (after.report queried) := by
  by_cases own : queried = before.own.name
  · have reported := report_own after
    rw [name] at reported
    rw [own, reported, report_own]
    exact renews.own
  · rw [renews.others queried own]
    exact .refl _

theorem Sound.renews_setMetadata {table : Table} (sound : table.Sound) (payload : Bytes) :
    Renews table (table.setMetadata payload).table := by
  have own := sound.own_setMetadata payload
  have newer : table.own.clock < table.clock + 1 := Nat.lt_succ_of_le sound.ownSeen
  have older : table.own.metadata.clock < table.clock + 1 :=
    Nat.lt_succ_of_le (Nat.le_trans sound.ownMetadata sound.ownSeen)
  constructor
  · rw [own]
    refine Or.inr ⟨rfl, newer, Or.inr ?_⟩
    rw [Member.metadataClock_entry, Member.metadataClock_entry]
    exact older
  · intro name foreign
    refine report_of_sameOthers table (table.setMetadata payload).table rfl rfl ?_ foreign
    rw [own]

theorem Sound.renews_leave {table : Table} (sound : table.Sound) (now : Instant) :
    Renews table (table.leave now).table := by
  rw [leave]
  split
  · exact .refl table
  · constructor
    · exact Or.inr ⟨rfl, Nat.lt_succ_of_le sound.ownSeen, Or.inl rfl⟩
    · intro name foreign
      refine report_of_sameOthers table _ ?_ ?_ ?_ foreign <;> rfl

end Table

end ClusterMembership
