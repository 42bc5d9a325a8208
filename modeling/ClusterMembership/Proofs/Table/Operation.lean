import ClusterMembership.Proofs.Table.Decisions
import ClusterMembership.Proofs.Table.Sweep

/-!
# The life of a table

A table starts, and from then on it is changed by its operations only, in any order and with
any arguments: received clocks and metadata clocks are arbitrary, and an operation may fail.
`Table.Reachable` says that a table is met in such a life.

Whatever happens, the table stays sound.  Sweeps are included with the members they drop.
-/

namespace ClusterMembership

namespace Table

/-- What may be done with a table. -/
inductive Operation where
  | apply (now : Instant) (name : MemberName) (status : Status) (clock : Nat)
      (metadata : Option Metadata)
  | merge (now : Instant) (source : MemberName) (entry : GossipEntry)
  | observe (clock : Nat)
  | tick
  | recordAcks (peer : MemberName) (acks : List EntryAck)
  | expire (wall asOf : Instant) (timeouts : Timeouts)
  | setMetadata (payload : Bytes)
  | leave (now : Instant)
  | insert (name : MemberName) (now : Instant)
  | takeInserted

/-- The table that an operation leaves, whatever it answers. -/
def perform (table : Table) : Operation → Table
  | .apply now name status clock metadata => (table.apply now name status clock metadata).table
  | .merge now source entry => (table.merge now source entry).table
  | .observe clock => table.observe clock
  | .tick => table.tick
  | .recordAcks peer acks => table.recordAcks peer acks
  | .expire wall asOf timeouts => (table.expire wall asOf timeouts).table
  | .setMetadata payload => (table.setMetadata payload).table
  | .leave now => (table.leave now).table
  | .insert name now => (table.insert name now).2
  | .takeInserted => table.takeInserted.2

/-- The table after a number of operations, one after the other. -/
def performAll (table : Table) (operations : List Operation) : Table :=
  operations.foldl perform table

@[simp]
theorem performAll_nil (table : Table) : table.performAll [] = table :=
  rfl

@[simp]
theorem performAll_cons (table : Table) (operation : Operation) (rest : List Operation) :
    table.performAll (operation :: rest) = (table.perform operation).performAll rest :=
  rfl

theorem performAll_append (table : Table) (earlier later : List Operation) :
    table.performAll (earlier ++ later) = (table.performAll earlier).performAll later :=
  List.foldl_append

/-- A table that some node may have after some operations. -/
def Reachable (table : Table) : Prop :=
  ∃ (name : MemberName) (metadata : Bytes) (seeds : List MemberName) (now : Instant)
    (operations : List Operation),
    (start name metadata seeds now).performAll operations = table

theorem reachable_start
    (name : MemberName)
    (metadata : Bytes)
    (seeds : List MemberName)
    (now : Instant) :
    (start name metadata seeds now).Reachable :=
  ⟨name, metadata, seeds, now, [], rfl⟩

theorem Reachable.performAll
    {table : Table}
    (reachable : table.Reachable)
    (operations : List Operation) :
    (table.performAll operations).Reachable := by
  rcases reachable with ⟨name, metadata, seeds, now, earlier, rfl⟩
  exact ⟨name, metadata, seeds, now, earlier ++ operations, performAll_append _ _ _⟩

theorem Reachable.perform
    {table : Table}
    (reachable : table.Reachable)
    (operation : Operation) :
    (table.perform operation).Reachable :=
  reachable.performAll [operation]

/-! ## What every operation keeps -/

section Invariants

variable {table : Table}

/-- A property of tables that every operation keeps holds throughout the life of a table. -/
theorem performAll_induction
    {property : Table → Prop}
    (kept : ∀ (table : Table) (operation : Operation),
      property table → property (table.perform operation))
    (holds : property table)
    (operations : List Operation) :
    property (table.performAll operations) := by
  induction operations generalizing table with
  | nil => exact holds
  | cons operation rest step => exact step (kept table operation holds)

theorem Sound.observe (sound : table.Sound) (clock : Nat) : (table.observe clock).Sound :=
  sound.of_sameRows rfl rfl rfl rfl (Nat.le_max_left _ _)

theorem Sound.of_sameSelf
    {after : Table}
    (sound : table.Sound)
    (consistent : after.Consistent)
    (self : SameSelf table after) :
    after.Sound := by
  refine ⟨consistent, ?_, ?_, ?_⟩
  · rw [self.own]
    exact sound.ownObserved
  · rw [self.own]
    exact sound.ownMetadata
  · rw [self.own, self.clock]
    exact sound.ownSeen

theorem sameSelf_insert (table : Table) (name : MemberName) (now : Instant) :
    SameSelf table (table.insert name now).2 := by
  have outside := sameOutsideArena_insert table name now
  exact ⟨outside.own, outside.clock, outside.stopped⟩

theorem Sound.insert (sound : table.Sound) (name : MemberName) (now : Instant) :
    (table.insert name now).2.Sound :=
  sound.of_sameSelf (sound.toConsistent.insert name now) (sameSelf_insert table name now)

theorem Sound.pruneAll (sound : table.Sound) (names : List MemberName) :
    (names.foldl Table.prune table).Sound :=
  sound.of_sameSelf (sound.toConsistent.pruneAll names).1 (sameSelf_pruneAll table names)

theorem table_expire (table : Table) (wall asOf : Instant) (timeouts : Timeouts) :
    (table.expire wall asOf timeouts).table =
      (table.duePrunes timeouts asOf).foldl Table.prune
        (table.advanceAll wall (table.dueAdvances timeouts asOf)).table :=
  rfl

theorem Sound.perform (sound : table.Sound) (operation : Operation) :
    (table.perform operation).Sound := by
  cases operation with
  | apply now name status clock metadata =>
    exact sound.update .strict now name status clock metadata
  | merge now source entry => exact sound.merge now source entry
  | observe clock => exact sound.observe clock
  | tick => exact sound.tick
  | recordAcks peer acks => exact (sound.grows_recordAcks peer acks).sound
  | expire wall asOf timeouts =>
    show (table.expire wall asOf timeouts).table.Sound
    rw [table_expire]
    apply Sound.pruneAll
    exact (sound.decides_advanceAll wall _).sound
  | setMetadata payload => exact (sound.grows_setMetadata payload).sound
  | leave now => exact (sound.grows_leave now).sound
  | insert name now => exact sound.insert name now
  | takeInserted => exact sound.of_sameRows rfl rfl rfl rfl (Nat.le_refl _)

theorem Sound.performAll (sound : table.Sound) (operations : List Operation) :
    (table.performAll operations).Sound :=
  performAll_induction (fun _ operation sound => sound.perform operation) sound operations

theorem Reachable.sound (reachable : table.Reachable) : table.Sound := by
  rcases reachable with ⟨name, metadata, seeds, now, operations, rfl⟩
  exact (sound_start name metadata seeds now).performAll operations

end Invariants

end Table

end ClusterMembership
