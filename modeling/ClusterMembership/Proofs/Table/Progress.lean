import ClusterMembership.Proofs.Table.LogicalClock
import ClusterMembership.Proofs.Table.OwnRow
import ClusterMembership.Proofs.Table.Slots
import Mathlib.Data.List.Induction

/-!
# Rows only move forward

A row has two version counters, one for its status and one for its metadata.  Neither falls,
and what a counter versions changes only when the counter rises, `Member.Follows`.  The time of
the status is a third thing: an operation that changes the status sets it to its own instant,
and any other operation leaves it, however often it renews the clock, `Member.Moves`.

Every operation does this to the row of every name, and handles carry it over to members: as
long as a handle resolves, it names one and the same row, so whatever is true of one operation
is true of the whole time in which the member is in the table.
-/

namespace ClusterMembership

namespace Member

/-- The row is the same or a newer version of an earlier one, in status and in metadata. -/
structure Follows (later earlier : Member) : Prop where
  clock : earlier.clock ≤ later.clock
  status : later.status = earlier.status ∨ earlier.clock < later.clock
  metadata : later.metadata = earlier.metadata ∨ earlier.metadata.clock < later.metadata.clock

/-- The row follows an earlier one, and an instant is its status time if the status changed. -/
structure Moves (instant? : Option Instant) (earlier later : Member) : Prop
    extends later.Follows earlier where
  kept : later.status = earlier.status → later.statusTime = earlier.statusTime
  changed : later.status ≠ earlier.status → instant? = some later.statusTime

variable {first second third : Member} {instant? : Option Instant}

theorem Follows.refl (member : Member) : member.Follows member :=
  ⟨Nat.le_refl _, Or.inl rfl, Or.inl rfl⟩

theorem Follows.metadataClock_le (follows : second.Follows first) :
    first.metadata.clock ≤ second.metadata.clock := by
  rcases follows.metadata with same | newer
  · exact Nat.le_of_eq (congrArg Metadata.clock same.symm)
  · exact Nat.le_of_lt newer

theorem Follows.trans (next : third.Follows second) (before : second.Follows first) :
    third.Follows first := by
  refine ⟨Nat.le_trans before.clock next.clock, ?_, ?_⟩
  · rcases next.status with same | newer
    · rcases before.status with unchanged | older
      · exact Or.inl (same.trans unchanged)
      · exact Or.inr (Nat.lt_of_lt_of_le older next.clock)
    · exact Or.inr (Nat.lt_of_le_of_lt before.clock newer)
  · rcases next.metadata with same | newer
    · rcases before.metadata with unchanged | older
      · exact Or.inl (same.trans unchanged)
      · exact Or.inr (Nat.lt_of_lt_of_le older next.metadataClock_le)
    · exact Or.inr (Nat.lt_of_le_of_lt before.metadataClock_le newer)

theorem Moves.refl (instant? : Option Instant) (member : Member) : Moves instant? member member :=
  ⟨.refl member, fun _ => rfl, fun differs => absurd rfl differs⟩

/-! ## Changes of one row -/

theorem moves_accept (member : Member) (status : Status) (clock : Nat) (now : Instant) :
    Moves (some now) member (member.accept status clock now) := by
  rw [accept]
  split
  · rename_i older
    have newer : member.clock < clock := of_decide_eq_true older
    refine ⟨⟨Nat.le_of_lt newer, Or.inr newer, Or.inl rfl⟩, ?_, ?_⟩
    · intro same
      exact if_pos same
    · intro differs
      exact congrArg some (if_neg differs).symm
  · exact .refl _ member

/-- Metadata are taken in addition where they are newer. -/
theorem Moves.mergeMetadata?
    (moves : Moves instant? first second)
    (metadata : Option Metadata) :
    Moves instant? first (second.mergeMetadata? metadata) := by
  cases metadata with
  | none => exact moves
  | some metadata =>
    rw [Member.mergeMetadata?, mergeMetadata]
    split
    · rename_i newer
      exact ⟨⟨moves.clock, moves.status,
        Or.inr (Nat.lt_of_le_of_lt moves.metadataClock_le newer)⟩, moves.kept, moves.changed⟩
    · exact moves

theorem moves_updated
    (member : Member)
    (policy : Table.Policy)
    (now : Instant)
    (status : Status)
    (clock : Nat)
    (metadata : Option Metadata) :
    Moves (some now) member (member.updated policy now status clock metadata) := by
  rw [updated]
  split
  · exact .refl _ member
  · exact (member.moves_accept status clock now).mergeMetadata? metadata

/-- Whatever the first update says of a member, its row has the time of the update. -/
theorem statusTime_updated_unobserved
    (name : MemberName)
    (policy : Table.Policy)
    (now : Instant)
    (status : Status)
    (clock : Nat)
    (metadata : Option Metadata) :
    ((unobserved name now).updated policy now status clock metadata).statusTime = now := by
  have moves := (unobserved name now).moves_updated policy now status clock metadata
  by_cases same : ((unobserved name now).updated policy now status clock metadata).status =
      (unobserved name now).status
  · exact moves.kept same
  · exact (Option.some.inj (moves.changed same)).symm

theorem moves_answering
    (member : Member)
    (instant? : Option Instant)
    (logical : Nat)
    (status : Status)
    (clock : Nat) :
    Moves instant? member (member.answering logical status clock) := by
  rw [answering]
  split
  · exact .refl _ member
  · rename_i contradicted
    rw [not_or, Nat.not_lt] at contradicted
    have rises : member.clock ≤ max logical clock + 1 :=
      Nat.le_succ_of_le (Nat.le_trans contradicted.1 (Nat.le_max_right _ _))
    exact ⟨⟨rises, Or.inl rfl, Or.inl rfl⟩, fun _ => rfl, fun differs => absurd rfl differs⟩

end Member

namespace Table

/-! ## Changes of the rows of names -/

/-- The time that an operation puts into rows. -/
def Operation.instant? : Operation → Option Instant
  | .apply now .. | .merge now .. | .leave now | .insert _ now => some now
  | .expire wall _ _ => some wall
  | .observe _ | .tick | .recordAcks .. | .setMetadata _ | .takeInserted => none

/-- A row that stays moves, and a row that comes has the instant as its status time. -/
def RowMoves (instant? : Option Instant) : Option Member → Option Member → Prop
  | some row, some later => row.Moves instant? later
  | none, some later => instant? = some later.statusTime
  | _, none => True

theorem RowMoves.of_eq {instant? : Option Instant} {before after : Option Member}
    (same : after = before) :
    RowMoves instant? before after := by
  subst same
  cases after with
  | none => trivial
  | some row => exact Member.Moves.refl instant? row

section Rows

variable
    {table : Table}
    (policy : Policy)
    (now wall : Instant)
    (name : MemberName)
    (status : Status)
    (clock : Nat)
    (metadata : Option Metadata)

theorem Consistent.moves_own_update
    (consistent : table.Consistent)
    (instant? : Option Instant) :
    table.own.Moves instant? (table.update policy now name status clock metadata).table.own := by
  rw [consistent.own_update]
  split
  · exact table.own.moves_answering instant? table.clock status clock
  · exact .refl _ _

theorem Consistent.rowMoves_update
    (consistent : table.Consistent)
    (queried : MemberName) :
    RowMoves (some now) (table.other? queried)
      ((table.update policy now name status clock metadata).table.other? queried) := by
  by_cases own : name = table.own.name
  · subst own
    have arena := @arena_update_own table policy now status clock metadata
    exact .of_eq (congrFun (other?_congr arena.1 arena.2.1) queried)
  · rw [consistent.other?_update policy now status clock metadata own]
    by_cases same : queried = name
    · subst same
      rw [if_pos rfl, rowFor]
      cases table.other? queried with
      | none =>
        exact congrArg some
          (Member.statusTime_updated_unobserved queried policy now status clock metadata).symm
      | some row => exact row.moves_updated policy now status clock metadata
    · rw [if_neg same]
      exact .of_eq rfl

theorem Consistent.rowMoves_insert
    (consistent : table.Consistent)
    (queried : MemberName) :
    RowMoves (some now) (table.other? queried) ((table.insert name now).2.other? queried) := by
  by_cases own : name = table.own.name
  · rw [own, insert_own]
    exact .of_eq rfl
  · rw [consistent.other?_insert now own]
    by_cases same : queried = name
    · subst same
      rw [if_pos rfl]
      cases table.other? queried with
      | none => rfl
      | some row => exact Member.Moves.refl _ row
    · rw [if_neg same]
      exact .of_eq rfl

/-- A sweep moves every member once, so no status is changed back and forth. -/
theorem Timely.rowMoves_advanceAll
    (timely : table.Timely)
    {steps : List (MemberName × Status)}
    (feasible : table.Feasible steps)
    (queried : MemberName) :
    RowMoves (some wall) (table.other? queried)
      ((table.advanceAll wall steps).table.other? queried) := by
  induction steps generalizing table with
  | nil => exact .of_eq rfl
  | cons first rest step =>
    rcases feasible.permitted _ List.mem_cons_self with ⟨row, known, -⟩
    have foreign : first.1 ≠ table.tick.own.name := timely.foreign_of_other? known
    have moved := timely.tick.update .strict wall first.1 first.2 table.tick.clock none
    have others :
        (table.tick.apply wall first.1 first.2 table.tick.clock none).table.Feasible rest :=
      feasible.tail timely
    by_cases same : queried = first.1
    · -- The member moves now, and none of the later moves is its own.
      have once := (List.nodup_cons.1 feasible.once).1
      rw [← same] at once
      have kept : (table.advanceAll wall (first :: rest)).table.other? queried =
          (table.tick.apply wall first.1 first.2 table.tick.clock none).table.other? queried :=
        moved.other?_advanceAll_elsewhere others once
      rw [kept]
      exact timely.tick.rowMoves_update .strict wall first.1 first.2 table.tick.clock none queried
    · have kept :=
        timely.tick.other?_update .strict wall first.2 table.tick.clock none foreign queried
      rw [if_neg same] at kept
      have later := step moved others
      rw [kept] at later
      exact later

theorem Timely.own_advanceAll
    (timely : table.Timely)
    {steps : List (MemberName × Status)}
    (feasible : table.Feasible steps) :
    (table.advanceAll wall steps).table.own = table.own := by
  induction steps generalizing table with
  | nil => rfl
  | cons first rest step =>
    rcases feasible.permitted _ List.mem_cons_self with ⟨row, known, -⟩
    have foreign : first.1 ≠ table.tick.own.name := timely.foreign_of_other? known
    have moved := timely.tick.update .strict wall first.1 first.2 table.tick.clock none
    have kept := timely.tick.own_update .strict wall first.2 table.tick.clock none first.1
    rw [if_neg foreign] at kept
    exact (step moved (feasible.tail timely)).trans kept

theorem Timely.rowMoves_expire
    (timely : table.Timely)
    (asOf : Instant)
    (timeouts : Timeouts)
    (queried : MemberName) :
    RowMoves (some wall) (table.other? queried)
      ((table.expire wall asOf timeouts).table.other? queried) := by
  have feasible := timely.feasible_dueAdvances timeouts asOf
  have moves := timely.rowMoves_advanceAll wall feasible queried
  rw [timely.other?_expire_eq]
  split
  · cases table.other? queried <;> trivial
  · exact moves

theorem Timely.own_expire (timely : table.Timely) (asOf : Instant) (timeouts : Timeouts) :
    (table.expire wall asOf timeouts).table.own = table.own := by
  have feasible := timely.feasible_dueAdvances timeouts asOf
  rw [table_expire, (sameSelf_pruneAll _ _).own]
  exact timely.own_advanceAll wall feasible

end Rows

section Step

variable {table : Table}

theorem Reachable.announced (reachable : table.Reachable) : table.Announced := by
  rcases reachable with ⟨name, metadata, seeds, now, operations, rfl⟩
  refine (sound_start name metadata seeds now).announced_performAll ?_ operations
  rw [Announced, stopped_start, own_start]
  rfl

/-- Every operation moves the own row, and the row of every other name. -/
theorem Reachable.rowMoves_other
    (reachable : table.Reachable)
    (operation : Operation)
    (queried : MemberName) :
    RowMoves operation.instant? (table.other? queried)
      ((table.perform operation).other? queried) := by
  have timely := reachable.timely
  cases operation with
  | apply now name status clock metadata =>
    exact timely.rowMoves_update .strict now name status clock metadata queried
  | merge now source entry =>
    have recorded := timely.recordAck source entry.name entry.clock
    exact recorded.rowMoves_update .lenient now entry.name entry.status entry.clock entry.metadata
      queried
  | observe clock => exact .of_eq (congrFun (other?_congr rfl rfl) queried)
  | tick => exact .of_eq (congrFun (other?_congr rfl rfl) queried)
  | recordAcks peer acks =>
    rcases recordAcks_eq table peer acks with ⟨recorded, same⟩
    rw [Table.perform, same]
    exact .of_eq (congrFun (other?_congr rfl rfl) queried)
  | expire wall asOf timeouts => exact timely.rowMoves_expire wall asOf timeouts queried
  | setMetadata payload => exact .of_eq (congrFun (other?_congr rfl rfl) queried)
  | leave now =>
    have arena := arena_leave table now
    exact .of_eq (congrFun (other?_congr arena.1 arena.2) queried)
  | insert name now => exact timely.rowMoves_insert now name queried
  | takeInserted => exact .of_eq (congrFun (other?_congr rfl rfl) queried)

theorem Reachable.moves_own (reachable : table.Reachable) (operation : Operation) :
    table.own.Moves operation.instant? (table.perform operation).own := by
  have timely := reachable.timely
  have kept : ∀ {later : Member}, later = table.own → table.own.Moves operation.instant? later := by
    rintro later rfl
    exact .refl _ _
  cases operation with
  | apply now name status clock metadata =>
    exact timely.moves_own_update .strict now name status clock metadata _
  | merge now source entry =>
    have recorded := timely.recordAck source entry.name entry.clock
    exact recorded.moves_own_update .lenient now entry.name entry.status entry.clock entry.metadata _
  | observe clock => exact kept rfl
  | tick => exact kept rfl
  | recordAcks peer acks =>
    rcases recordAcks_eq table peer acks with ⟨recorded, same⟩
    rw [Table.perform, same]
    exact kept rfl
  | expire wall asOf timeouts => exact kept (timely.own_expire wall asOf timeouts)
  | setMetadata payload =>
    rw [Table.perform, timely.own_setMetadata]
    have newer : table.own.metadata.clock < table.clock + 1 :=
      Nat.lt_succ_of_le timely.ownMetadata_le
    exact ⟨⟨Nat.le_succ_of_le timely.ownSeen, Or.inl rfl, Or.inr newer⟩, fun _ => rfl,
      fun differs => absurd rfl differs⟩
  | leave now =>
    cases stopped : table.stopped with
    | true =>
      apply kept
      simp [Table.perform, Table.leave, stopped]
    | false =>
      -- A node that has not left is online, so leaving does change its status.
      have online : table.own.status = .online := by
        rw [reachable.announced, stopped]
        rfl
      rw [Table.perform, own_leave stopped]
      refine ⟨⟨Nat.le_succ_of_le timely.ownSeen, Or.inr (Nat.lt_succ_of_le timely.ownSeen),
        Or.inl rfl⟩, ?_, fun _ => rfl⟩
      intro same
      rw [online] at same
      cases same
  | insert name now => exact kept (sameSelf_insert table name now).own
  | takeInserted => exact kept rfl

end Step

/-! ## Members -/

/-- The node itself, or whatever member a handle was issued for. -/
inductive Subject where
  | own
  | handle (handle : Handle)
  deriving DecidableEq, Repr

/-- The row of a member, as long as the member is in the table. -/
def row? (table : Table) : Subject → Option Member
  | .own => some table.own
  | .handle handle => table.resolve? handle

section Members

variable {table : Table} {subject : Subject}

/-- Every operation moves the row of every member. -/
theorem Reachable.rowMoves
    (reachable : table.Reachable)
    (operation : Operation)
    (subject : Subject) :
    RowMoves operation.instant? (table.row? subject) ((table.perform operation).row? subject) := by
  have sound := reachable.sound
  have performed := sound.perform operation
  have rearranges := sound.rearranges_perform operation
  cases subject with
  | own => exact reachable.moves_own operation
  | handle handle =>
    show RowMoves _ (table.resolve? handle) ((table.perform operation).resolve? handle)
    cases after : (table.perform operation).resolve? handle with
    | none => cases table.resolve? handle <;> trivial
    | some later =>
      have moves := reachable.rowMoves_other operation later.name
      rw [(performed.resolve?_eq_some_iff.1 after).2] at moves
      cases before : table.resolve? handle with
      | none =>
        rw [rearranges.other?_eq_none_of_issued sound.toConsistent performed.toConsistent before
          after] at moves
        exact moves
      | some row =>
        rw [sound.name_resolve?_perform before after, (sound.resolve?_eq_some_iff.1 before).2] at moves
        exact moves

/-- As long as a member is in the table, its row follows what it was before. -/
theorem Reachable.follows_performAll
    (reachable : table.Reachable)
    {operations : List Operation}
    {row later : Member}
    (before : table.row? subject = some row)
    (after : (table.performAll operations).row? subject = some later) :
    later.Follows row := by
  induction operations generalizing table row with
  | nil =>
    rw [performAll_nil, before] at after
    cases after
    exact .refl _
  | cons operation rest step =>
    -- A handle that resolves again after it expired would break the chain.
    have present : ∃ next, (table.perform operation).row? subject = some next := by
      cases subject with
      | own => exact ⟨_, rfl⟩
      | handle handle => exact reachable.sound.resolves_perform before after
    rcases present with ⟨next, found⟩
    have moves := reachable.rowMoves operation subject
    rw [before, found] at moves
    have moved : row.Moves operation.instant? next := moves
    exact (step (reachable.performAll [operation]) found after).trans moved.toFollows

/-- Throughout some operations a member is in the table with one status since one instant. -/
def Steady
    (table : Table)
    (subject : Subject)
    (status : Status)
    (since : Instant)
    (operations : List Operation) :
    Prop :=
  ∀ earlier later, operations = earlier ++ later →
    ∃ row, (table.performAll earlier).row? subject = some row ∧
      row.status = status ∧ row.statusTime = since

theorem steady_nil {row : Member} (found : table.row? subject = some row) :
    table.Steady subject row.status row.statusTime [] := by
  intro earlier later split
  rw [(List.nil_eq_append_iff.1 split).1]
  exact ⟨row, found, rfl, rfl⟩

theorem Steady.concat
    {operations : List Operation}
    {operation : Operation}
    {row : Member}
    (steady : table.Steady subject row.status row.statusTime operations)
    (found : (table.performAll (operations ++ [operation])).row? subject = some row) :
    table.Steady subject row.status row.statusTime (operations ++ [operation]) := by
  intro earlier later split
  rcases List.eq_nil_or_concat later with rfl | ⟨later, last, rfl⟩
  · rw [List.append_nil] at split
    subst split
    exact ⟨row, found, rfl, rfl⟩
  · rw [List.concat_eq_append, ← List.append_assoc] at split
    exact steady earlier later (List.append_inj' split rfl).1

/-- Every row of a table that has just started has the time of the start. -/
theorem statusTime_start
    {name : MemberName}
    {metadata : Bytes}
    {seeds : List MemberName}
    {startedAt : Instant}
    {row : Member}
    (found : (start name metadata seeds startedAt).row? subject = some row) :
    row.statusTime = startedAt := by
  cases subject with
  | own =>
    cases found
    rw [own_start]
  | handle handle =>
    have consistent := consistent_start name metadata seeds startedAt
    have known := (consistent.resolve?_eq_some_iff.1 found).2
    rw [other?_start known]
    rfl

/-- A row has its status since the operation that gave it the status, and its time from there. -/
theorem exists_steady
    (name : MemberName)
    (metadata : Bytes)
    (seeds : List MemberName)
    (startedAt : Instant)
    {operations : List Operation}
    {row : Member}
    (found : ((start name metadata seeds startedAt).performAll operations).row? subject = some row) :
    ∃ earlier later, operations = earlier ++ later ∧
      ((start name metadata seeds startedAt).performAll earlier).Steady subject row.status
        row.statusTime later ∧
      (earlier = [] ∧ row.statusTime = startedAt ∨
        ∃ before operation, earlier = before ++ [operation] ∧
          operation.instant? = some row.statusTime ∧
          ∀ old, ((start name metadata seeds startedAt).performAll before).row? subject = some old →
            old.status ≠ row.status) := by
  -- From the end: the last operation gave the row its status, or found the row with it.
  induction operations using List.reverseRecOn generalizing row with
  | nil => exact ⟨[], [], rfl, steady_nil found, Or.inl ⟨rfl, statusTime_start found⟩⟩
  | append_singleton sofar operation step =>
    have reachable := (reachable_start name metadata seeds startedAt).performAll sofar
    have moves := reachable.rowMoves operation subject
    have performed : (((start name metadata seeds startedAt).performAll sofar).perform
        operation).row? subject = some row := by
      rw [performAll_append] at found
      exact found
    rw [performed] at moves
    cases previous : ((start name metadata seeds startedAt).performAll sofar).row? subject with
    | none =>
      rw [previous] at moves
      refine ⟨sofar ++ [operation], [], (List.append_nil _).symm, steady_nil found,
        Or.inr ⟨sofar, operation, rfl, moves, ?_⟩⟩
      intro old present
      rw [previous] at present
      cases present
    | some old =>
      rw [previous] at moves
      have moved : old.Moves operation.instant? row := moves
      by_cases same : row.status = old.status
      · have time := moved.kept same
        rcases step previous with ⟨earlier, later, rfl, steady, origin⟩
        rw [← same, ← time] at steady origin
        refine ⟨earlier, later ++ [operation], List.append_assoc _ _ _, steady.concat ?_, origin⟩
        rw [← performAll_append, ← List.append_assoc]
        exact found
      · refine ⟨sofar ++ [operation], [], (List.append_nil _).symm, steady_nil found,
          Or.inr ⟨sofar, operation, rfl, moved.changed same, ?_⟩⟩
        intro other present
        rw [previous] at present
        cases present
        exact Ne.symm same

end Members

/--
Rows only move forward, whatever is done with a table.  Take a member, the node itself or one
that a handle was issued for, at two moments at which it is in the table.  Its clock has not
fallen, and its status differs only if the clock has risen; its metadata clock has not fallen,
and its metadata differ only if that clock has risen.

The status time is the instant of the last change of the status, in this sense: the status and
its time have been the same since the start, at the instant of the start, or since an operation
at that very instant before which the member was not in the table or had another status.  An
operation that leaves the status leaves its time too.
-/
theorem rows_only_move_forward
    (name : MemberName)
    (metadata : Bytes)
    (seeds : List MemberName)
    (startedAt : Instant)
    (subject : Subject)
    (operations : List Operation) :
    let start := start name metadata seeds startedAt
    let table := start.performAll operations
    (∀ earlier later row following, operations = earlier ++ later →
      (start.performAll earlier).row? subject = some row →
      table.row? subject = some following →
      row.clock ≤ following.clock ∧
      (following.status ≠ row.status → row.clock < following.clock) ∧
      row.metadata.clock ≤ following.metadata.clock ∧
      (following.metadata.payload ≠ row.metadata.payload →
        row.metadata.clock < following.metadata.clock)) ∧
    (∀ row, table.row? subject = some row →
      ∃ earlier later, operations = earlier ++ later ∧
        (start.performAll earlier).Steady subject row.status row.statusTime later ∧
        (earlier = [] ∧ row.statusTime = startedAt ∨
          ∃ before operation, earlier = before ++ [operation] ∧
            operation.instant? = some row.statusTime ∧
            ∀ old, (start.performAll before).row? subject = some old → old.status ≠ row.status)) ∧
    ∀ operation row following, table.row? subject = some row →
      (table.perform operation).row? subject = some following →
      following.status = row.status → following.statusTime = row.statusTime := by
  intro start table
  have started : start.Reachable := reachable_start name metadata seeds startedAt
  refine ⟨?_, fun row found => exists_steady name metadata seeds startedAt found, ?_⟩
  · rintro earlier later row following rfl before after
    have whole : table = (start.performAll earlier).performAll later := performAll_append _ _ _
    rw [whole] at after
    have follows := (started.performAll earlier).follows_performAll before after
    refine ⟨follows.clock, follows.status.resolve_left, follows.metadataClock_le, ?_⟩
    intro differs
    refine follows.metadata.resolve_left fun same => differs ?_
    rw [same]
  · intro operation row following before after same
    have moves := (started.performAll operations).rowMoves operation subject
    rw [before, after] at moves
    have moved : row.Moves operation.instant? following := moves
    exact moved.kept same

/-- A node is told to be suspect and leaves: its clock rises, and its status has a new time. -/
theorem rows_only_move_forward_departure :
    let name : MemberName := { text := "10.0.0.1:7946" }
    let start := start name [] [] 5
    let told := start.performAll [.apply 7 name .suspect 4 none]
    let left := told.perform (.leave 9)
    told.own.statusTime = 5 ∧ left.own.statusTime = 9 ∧ told.own.clock < left.own.clock := by
  intro name start told left
  have holds := rows_only_move_forward name [] [] 5 .own
  have kept := (holds []).2.2 (.apply 7 name .suspect 4 none) _ _ rfl rfl rfl
  have moved := (holds [.apply 7 name .suspect 4 none, .leave 9]).1
    [.apply 7 name .suspect 4 none] [.leave 9] _ _ rfl rfl rfl
  exact ⟨kept, rfl, moved.2.1 (by decide)⟩

end Table

end ClusterMembership
