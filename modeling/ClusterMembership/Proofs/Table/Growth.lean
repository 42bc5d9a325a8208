import ClusterMembership.Proofs.Table.Report

/-!
# Reports only move on

A claim is what an entry says about the liveness of a member: a clock and a status.
`Table.Advances` relates a table to a later one: for every member, the report makes
the same claim as before, or a claim with a newer clock.  It also says where the newer
claims may come from, and so carries two facts at once: clocks never fall, and nothing
is believed that was not told or decided.

`Table.Sound` is what every table keeps from its start on: the arena is consistent, the
own row is observed, its metadata is no newer than the row, and the logical clock has
seen the own clock.  Each operation is shown to keep it and to advance the table.
-/

namespace ClusterMembership

/-- What an entry says about the liveness of a member. -/
structure Claim where
  name : MemberName
  clock : Nat
  status : Status
  deriving DecidableEq

/-- The claim an entry makes. -/
def GossipEntry.claim (entry : GossipEntry) : Claim where
  name := entry.name
  clock := entry.clock
  status := entry.status

namespace Table

/-- Reports only move on, and newer claims are among the given ones. -/
structure Advances (claims : Claim → Prop) (before after : Table) : Prop where
  own : after.own.name = before.own.name
  reports : ∀ name : MemberName,
    (after.report name).claim = (before.report name).claim ∨
      before.clockOf name < after.clockOf name ∧ claims (after.report name).claim

namespace Advances

variable {claims : Claim → Prop} {first second third : Table}

theorem refl (claims : Claim → Prop) (table : Table) : Advances claims table table :=
  ⟨rfl, fun _ => Or.inl rfl⟩

/-- Tables that report the same advance by no claim at all. -/
theorem of_sameReport
    (claims : Claim → Prop)
    (own : second.own.name = first.own.name)
    (same : second.report = first.report) :
    Advances claims first second :=
  ⟨own, fun name => Or.inl (by rw [same])⟩

theorem mono
    {wider : Claim → Prop}
    (advances : Advances claims first second)
    (included : ∀ claim, claims claim → wider claim) :
    Advances wider first second :=
  ⟨advances.own, fun name => (advances.reports name).imp id
    fun newer => ⟨newer.1, included _ newer.2⟩⟩

/-- A later table holds every member at a clock at least as new. -/
theorem clockOf_le (advances : Advances claims first second) (name : MemberName) :
    first.clockOf name ≤ second.clockOf name := by
  rcases advances.reports name with same | newer
  · exact Nat.le_of_eq (congrArg Claim.clock same).symm
  · exact Nat.le_of_lt newer.1

theorem trans
    (before : Advances claims first second)
    (after : Advances claims second third) :
    Advances claims first third := by
  refine ⟨after.own.trans before.own, fun name => ?_⟩
  rcases after.reports name with same | newer
  · rcases before.reports name with unchanged | older
    · exact Or.inl (same.trans unchanged)
    · have clocks : third.clockOf name = second.clockOf name := congrArg Claim.clock same
      refine Or.inr ⟨?_, ?_⟩
      · rw [clocks]
        exact older.1
      · rw [same]
        exact older.2
  · exact Or.inr ⟨Nat.lt_of_le_of_lt (before.clockOf_le name) newer.1, newer.2⟩

end Advances

/-! ## What every table keeps -/

/-- The invariant of a table from its start on. -/
structure Sound (table : Table) : Prop extends Consistent table where
  /-- The own row is observed. -/
  ownObserved : 0 < table.own.clock
  /-- The own metadata is no newer than the own row. -/
  ownMetadata : table.own.metadata.clock ≤ table.own.clock
  /-- The logical clock has seen the own clock. -/
  ownSeen : table.own.clock ≤ table.clock

theorem sound_start
    (name : MemberName)
    (metadata : Bytes)
    (seeds : List MemberName)
    (now : Instant) :
    (start name metadata seeds now).Sound := by
  refine ⟨consistent_start name metadata seeds now, ?_, ?_, ?_⟩ <;>
    simp [own_start, clock_start]

/-- A table stays sound when only its logical clock moves on, and its acks change. -/
theorem Sound.of_sameRows
    {before after : Table}
    (sound : before.Sound)
    (own : after.own = before.own)
    (slots : after.slots = before.slots)
    (index : after.index = before.index)
    (free : after.free = before.free)
    (clock : before.clock ≤ after.clock) :
    after.Sound := by
  refine ⟨sound.of_sameArena (by rw [own]) slots index free, ?_, ?_, ?_⟩
  · rw [own]
    exact sound.ownObserved
  · rw [own]
    exact sound.ownMetadata
  · rw [own]
    exact Nat.le_trans sound.ownSeen clock

/-! ## Updates -/

section Update

variable
    {table : Table}
    (policy : Policy)
    (now : Instant)
    (name : MemberName)
    (status : Status)
    (clock : Nat)
    (metadata : Option Metadata)

/-- A claim about the node itself is answered at a clock that is not behind it. -/
theorem le_clock_answering (member : Member) (logical : Nat) :
    clock ≤ (member.answering logical status clock).clock := by
  rw [Member.answering]
  split
  · rename_i settled
    rcases settled with older | echo
    · exact Nat.le_of_lt older
    · exact Nat.le_of_eq echo.2
  · exact Nat.le_succ_of_le (Nat.le_max_right logical clock)

theorem clock_answering_eq_or_lt (member : Member) (logical : Nat) :
    member.answering logical status clock = member ∨
      member.clock < (member.answering logical status clock).clock := by
  rw [Member.answering]
  split
  · exact Or.inl rfl
  · rename_i contradicted
    have newer : member.clock ≤ clock :=
      Nat.le_of_not_lt fun older => contradicted (Or.inl older)
    exact Or.inr (Nat.lt_succ_of_le (Nat.le_trans newer (Nat.le_max_right logical clock)))

theorem Consistent.advances_update (consistent : table.Consistent) :
    Advances (fun claim => claim = { name, clock, status } ∨ claim.name = table.own.name) table
      (table.update policy now name status clock metadata).table := by
  have after := consistent.update policy now status clock metadata name
  refine ⟨?_, fun queried => ?_⟩
  · rw [consistent.own_update]
    split
    · exact Member.name_answering _ _ _ _
    · rfl
  · by_cases elsewhere : queried = name
    · subst elsewhere
      by_cases own : queried = table.own.name
      · subst own
        have rows := @own_update_own table policy now status clock metadata
        have named :
            (table.update policy now table.own.name status clock metadata).table.own.name =
              table.own.name := by
          rw [rows, Member.name_answering]
        have reported := report_own
          (table.update policy now table.own.name status clock metadata).table
        rw [named, rows] at reported
        rw [clockOf, clockOf, reported, report_own]
        rcases clock_answering_eq_or_lt status clock table.own table.clock with same | newer
        · rw [same]
          exact Or.inl rfl
        · refine Or.inr ⟨newer, Or.inr ?_⟩
          exact Member.name_answering _ _ _ _
      · have reported := consistent.report_update_other policy now status clock metadata own
        rw [clockOf, clockOf, reported]
        split
        · exact Or.inl rfl
        · by_cases newer : (table.report queried).clock < clock
          · have joined : max (table.report queried).clock clock = clock :=
              Nat.max_eq_right (Nat.le_of_lt newer)
            refine Or.inr ⟨?_, Or.inl ?_⟩
            · rw [GossipEntry.clock_join, joined]
              exact newer
            · simp [GossipEntry.claim, GossipEntry.join, newer, joined, consistent.name_report]
          · have joined : max (table.report queried).clock clock = (table.report queried).clock :=
              Nat.max_eq_left (Nat.le_of_not_lt newer)
            apply Or.inl
            simp [GossipEntry.claim, GossipEntry.join, newer, joined]
    · have same := consistent.report_update_elsewhere policy now status clock metadata elsewhere
      exact Or.inl (by rw [same])

theorem Sound.update (sound : table.Sound) :
    (table.update policy now name status clock metadata).table.Sound := by
  refine ⟨sound.toConsistent.update policy now status clock metadata name, ?_, ?_, ?_⟩
  · rw [sound.own_update]
    split
    · rcases clock_answering_eq_or_lt status clock table.own table.clock with same | newer
      · rw [same]
        exact sound.ownObserved
      · exact Nat.lt_of_le_of_lt (Nat.zero_le _) newer
    · exact sound.ownObserved
  · rw [sound.own_update]
    split
    · have metadata : (table.own.answering table.clock status clock).metadata =
          table.own.metadata := by
        rw [Member.answering]
        split <;> rfl
      rw [metadata]
      rcases clock_answering_eq_or_lt status clock table.own table.clock with same | newer
      · rw [same]
        exact sound.ownMetadata
      · exact Nat.le_trans sound.ownMetadata (Nat.le_of_lt newer)
    · exact sound.ownMetadata
  · by_cases own : name = table.own.name
    · subst own
      rw [own_update_own, clock_update_own, Member.answering]
      split
      · exact Nat.le_trans sound.ownSeen (Nat.le_max_left _ _)
      · exact Nat.le_refl _
    · have outside := sound.sameOutsideArena_update policy now status clock metadata own
      rw [outside.own, outside.clock]
      exact Nat.le_trans sound.ownSeen (Nat.le_max_left _ _)

end Update

/-! ## Merging received entries -/

section Merge

variable {table : Table} (now : Instant) (source : MemberName)

theorem report_recordAck (table : Table) (peer name : MemberName) (clock : Nat) :
    (table.recordAck peer name clock).report = table.report :=
  report_congr rfl (other?_congr rfl rfl)

theorem Sound.recordAck (sound : table.Sound) (peer name : MemberName) (clock : Nat) :
    (table.recordAck peer name clock).Sound :=
  sound.of_sameRows rfl rfl rfl rfl (Nat.le_refl _)

theorem table_merge (table : Table) (now : Instant) (source : MemberName) (entry : GossipEntry) :
    (table.merge now source entry).table =
      ((table.recordAck source entry.name entry.clock).update .lenient now entry.name entry.status
        entry.clock entry.metadata).table :=
  rfl

/-- Merging an entry about another member updates the row of that member only. -/
theorem Consistent.other?_merge
    (consistent : table.Consistent)
    {entry : GossipEntry}
    (foreign : entry.name ≠ table.own.name)
    (queried : MemberName) :
    (table.merge now source entry).table.other? queried =
      if queried = entry.name then
        some ((table.rowFor entry.name now).updated .lenient now entry.status entry.clock
          entry.metadata)
      else
        table.other? queried := by
  have recorded : (table.recordAck source entry.name entry.clock).Consistent :=
    consistent.of_sameArena rfl rfl rfl rfl
  exact recorded.other?_update .lenient now entry.status entry.clock entry.metadata foreign queried

theorem Consistent.own_merge
    (consistent : table.Consistent)
    (entry : GossipEntry) :
    (table.merge now source entry).table.own =
      if entry.name = table.own.name then
        table.own.answering table.clock entry.status entry.clock
      else
        table.own := by
  have recorded : (table.recordAck source entry.name entry.clock).Consistent :=
    consistent.of_sameArena rfl rfl rfl rfl
  exact recorded.own_update .lenient now entry.status entry.clock entry.metadata entry.name

theorem Sound.merge (sound : table.Sound) (entry : GossipEntry) :
    (table.merge now source entry).table.Sound := by
  rw [table_merge]
  exact (sound.recordAck source entry.name entry.clock).update _ _ _ _ _ _

theorem Sound.advances_merge (sound : table.Sound) (entry : GossipEntry) :
    Advances (fun claim => claim = entry.claim ∨ claim.name = table.own.name) table
      (table.merge now source entry).table := by
  have recorded := sound.recordAck source entry.name entry.clock
  have noted : Advances (fun claim => claim = entry.claim ∨ claim.name = table.own.name) table
      (table.recordAck source entry.name entry.clock) :=
    .of_sameReport _ rfl (report_recordAck _ _ _ _)
  exact noted.trans
    (recorded.advances_update .lenient now entry.name entry.status entry.clock entry.metadata)

/-- What is reported about another member after merging an entry about it. -/
theorem Sound.report_merge
    (sound : table.Sound)
    {entry : GossipEntry}
    (foreign : entry.name ≠ table.own.name) :
    (table.merge now source entry).table.report entry.name =
      (table.report entry.name).join entry := by
  have recorded := sound.recordAck source entry.name entry.clock
  have another : entry.name ≠ (table.recordAck source entry.name entry.clock).own.name := foreign
  have reported := recorded.report_update_other .lenient now entry.status entry.clock
    entry.metadata another
  rw [report_recordAck] at reported
  rw [table_merge, reported]
  simp [Policy.rejects]

theorem Sound.report_merge_elsewhere
    (sound : table.Sound)
    (entry : GossipEntry)
    {name : MemberName}
    (elsewhere : name ≠ entry.name) :
    (table.merge now source entry).table.report name = table.report name := by
  have recorded := sound.recordAck source entry.name entry.clock
  have kept := recorded.report_update_elsewhere .lenient now entry.status entry.clock
    entry.metadata elsewhere
  rwa [report_recordAck, ← table_merge] at kept

/-- An entry that was merged is held, at its clock or newer, whomever it is about. -/
theorem Sound.le_clockOf_merge (sound : table.Sound) (entry : GossipEntry) :
    entry.clock ≤ (table.merge now source entry).table.clockOf entry.name := by
  by_cases own : entry.name = table.own.name
  · have recorded := sound.recordAck source entry.name entry.clock
    have after := recorded.own_update .lenient now entry.status entry.clock entry.metadata
      entry.name
    have about : entry.name = (table.recordAck source entry.name entry.clock).own.name := own
    rw [if_pos about, ← table_merge] at after
    have named : (table.merge now source entry).table.own.name = entry.name := by
      rw [after, Member.name_answering]
      exact own.symm
    rw [← named, clockOf_own, after]
    exact le_clock_answering _ _ _ _
  · rw [clockOf, sound.report_merge now source own, GossipEntry.clock_join]
    exact Nat.le_max_right _ _

end Merge

end Table

end ClusterMembership
