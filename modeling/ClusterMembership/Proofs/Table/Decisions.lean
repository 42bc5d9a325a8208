import ClusterMembership.Proofs.Table.Acks
import ClusterMembership.Table.Sweep

/-!
# Decisions of the node itself

A node decides about others when a probe ends or a timeout passes, and about itself
when it changes its metadata or leaves.  Every decision is stamped with a tick of the
logical clock, so it is a growth of the table like any other, with two differences:
nothing is known in advance of the claims it makes, and no receipt is recorded.

A sweep is covered as long as it drops nobody.  A dropped member would be reported at
clock zero again.
-/

namespace ClusterMembership

namespace Table

/-- Growth by decisions of the node alone. -/
abbrev Decides : Table → Table → Prop :=
  Grows (fun _ => True) (fun _ _ => False)

variable {table : Table}

theorem Sound.tick (sound : table.Sound) : table.tick.Sound :=
  sound.of_sameRows rfl rfl rfl rfl (Nat.le_succ _)

theorem report_tick (table : Table) : table.tick.report = table.report :=
  report_congr rfl (other?_congr rfl rfl)

/-- A decision about another member, under a tick of the logical clock. -/
theorem Sound.decides_apply
    (sound : table.Sound)
    (now : Instant)
    (name : MemberName)
    (status : Status) :
    Decides table (table.tick.apply now name status table.tick.clock none).table := by
  have ticked : Advances (fun _ => True) table table.tick :=
    .of_sameReport _ rfl (report_tick table)
  have moved := sound.tick.advances_update .strict now name status table.tick.clock none
  have kept := sound.tick.acks_update .strict now status table.tick.clock none name
  exact .of_sameAcks _ (sound.tick.update .strict now name status _ none)
    (ticked.trans (moved.mono fun _ _ => trivial)) kept

theorem Sound.decides_advanceAll
    (sound : table.Sound)
    (wall : Instant)
    (steps : List (MemberName × Status)) :
    Decides table (table.advanceAll wall steps).table := by
  induction steps generalizing table with
  | nil => exact .refl _ _ sound
  | cons first rest step =>
    have moved := sound.decides_apply wall first.1 first.2
    exact moved.trans (step moved.sound)

/-- A sweep that drops nobody only moves members on. -/
theorem Sound.decides_expire
    (sound : table.Sound)
    {timeouts : Timeouts}
    {wall asOf : Instant}
    (retained : table.duePrunes timeouts asOf = []) :
    Decides table (table.expire wall asOf timeouts).table := by
  have moved : (table.expire wall asOf timeouts).table =
      (table.advanceAll wall (table.dueAdvances timeouts asOf)).table := by
    simp [expire, retained]
  rw [moved]
  exact sound.decides_advanceAll wall _

/-- A new value of the own row shows in no other report. -/
theorem report_of_sameOthers
    (before after : Table)
    (slots : after.slots = before.slots)
    (index : after.index = before.index)
    (name : after.own.name = before.own.name)
    {queried : MemberName}
    (foreign : queried ≠ before.own.name) :
    after.report queried = before.report queried := by
  have still : queried ≠ after.own.name := by
    rw [name]
    exact foreign
  rw [report_other foreign, report_other still, other?_congr slots index]

/-- The own row takes a new value under a fresh clock. -/
theorem Sound.decides_own
    (sound : table.Sound)
    {after : Table}
    (arena : after.slots = table.slots ∧ after.index = table.index ∧ after.free = table.free)
    (acks : after.acks = table.acks)
    (name : after.own.name = table.own.name)
    (ownClock : after.own.clock = table.clock + 1)
    (metadata : after.own.metadata.clock ≤ table.clock + 1)
    (clock : after.clock = table.clock + 1) :
    Grows (fun claim => claim.name = table.own.name) (fun _ _ => False) table after := by
  have consistent := sound.of_sameArena name arena.1 arena.2.1 arena.2.2
  refine .of_sameAcks _ ⟨consistent, ?_, ?_, ?_⟩ ⟨name, fun queried => ?_⟩ acks
  · rw [ownClock]
    exact Nat.succ_pos _
  · rw [ownClock]
    exact metadata
  · exact Nat.le_of_eq (ownClock.trans clock.symm)
  · by_cases own : queried = table.own.name
    · subst own
      have seen := sound.ownSeen
      refine Or.inr ⟨?_, consistent.name_report _⟩
      rw [clockOf_own, ← name, clockOf_own, ownClock]
      omega
    · have same := report_of_sameOthers table after arena.1 arena.2.1 name own
      exact Or.inl (congrArg GossipEntry.claim same)

theorem Sound.own_setMetadata (sound : table.Sound) (payload : Bytes) :
    (table.setMetadata payload).table.own =
      { table.own with
        clock := table.clock + 1
        metadata := { clock := table.clock + 1, payload := some payload } } := by
  have older : table.own.metadata.clock < table.clock + 1 :=
    Nat.lt_succ_of_le (Nat.le_trans sound.ownMetadata sound.ownSeen)
  simp [setMetadata, Table.tick, Member.mergeMetadata, older]

theorem Sound.grows_setMetadata (sound : table.Sound) (payload : Bytes) :
    Grows (fun claim => claim.name = table.own.name) (fun _ _ => False) table
      (table.setMetadata payload).table := by
  have own := sound.own_setMetadata payload
  refine sound.decides_own ⟨rfl, rfl, rfl⟩ rfl ?_ ?_ ?_ rfl
  · rw [own]
  · rw [own]
  · exact Nat.le_of_eq (by rw [own])

theorem Sound.grows_leave (sound : table.Sound) (now : Instant) :
    Grows (fun claim => claim.name = table.own.name) (fun _ _ => False) table
      (table.leave now).table := by
  rw [leave]
  split
  · exact .refl _ _ sound
  · refine sound.decides_own ⟨rfl, rfl, rfl⟩ rfl rfl rfl ?_ rfl
    exact Nat.le_trans sound.ownMetadata (Nat.le_succ_of_le sound.ownSeen)

end Table

end ClusterMembership
