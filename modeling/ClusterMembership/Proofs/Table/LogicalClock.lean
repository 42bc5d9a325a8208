import ClusterMembership.Proofs.Table.Operation

/-!
# The logical clock bounds every row

A table folds every clock it is told into its logical clock before it takes anything of the
update, so no row is ahead of the logical clock.  `Table.Timely` adds this to soundness.
Metadata of other members are not bounded: their clocks only order metadata.

A tick is therefore a fresh stamp, `Table.IsFresh`, and an update under a tick is accepted
whenever the transition table permits it.
-/

namespace ClusterMembership

theorem Member.accept_of_lt
    {member : Member}
    {clock : Nat}
    (newer : member.clock < clock)
    (status : Status)
    (now : Instant) :
    (member.accept status clock now).status = status ∧
      (member.accept status clock now).clock = clock := by
  simp [accept, isOlderThan, newer]

namespace Table

/-- A sound table whose logical clock has seen the clock of every row. -/
structure Timely (table : Table) : Prop extends Sound table where
  seen : ∀ name : MemberName, table.clockOf name ≤ table.clock

/-- A stamp that is newer than everything the table orders updates by. -/
structure IsFresh (table : Table) (stamp : Nat) : Prop where
  logical : table.clock < stamp
  rows : ∀ row ∈ table.members, row.clock < stamp
  ownMetadata : table.own.metadata.clock < stamp

section Timely

variable {table before after : Table}

theorem Timely.clock_le
    (timely : table.Timely)
    {row : Member}
    (member : row ∈ table.members) :
    row.clock ≤ table.clock := by
  rw [← timely.clockOf_of_mem member]
  exact timely.seen row.name

theorem Timely.other_clock_le
    (timely : table.Timely)
    {name : MemberName}
    {row : Member}
    (known : table.other? name = some row) :
    row.clock ≤ table.clock := by
  rcases timely.other?_eq_some_iff.1 known with ⟨member, -⟩
  exact timely.clock_le (List.mem_cons_of_mem _ member)

theorem Timely.ownMetadata_le (timely : table.Timely) :
    table.own.metadata.clock ≤ table.clock :=
  Nat.le_trans timely.ownMetadata timely.ownSeen

theorem Timely.isFresh (timely : table.Timely) {stamp : Nat} (newer : table.clock < stamp) :
    table.IsFresh stamp := by
  refine ⟨newer, ?_, Nat.lt_of_le_of_lt timely.ownMetadata_le newer⟩
  intro row member
  exact Nat.lt_of_le_of_lt (timely.clock_le member) newer

/-! ## Keeping the bound -/

/-- The bound is kept where every newer claim is about the node itself or was folded in. -/
theorem Timely.of_advances
    (timely : before.Timely)
    (sound : after.Sound)
    (advances :
      Advances (fun claim => claim.clock ≤ after.clock ∨ claim.name = before.own.name) before after)
    (clock : before.clock ≤ after.clock) :
    after.Timely := by
  refine ⟨sound, ?_⟩
  intro name
  rcases advances.reports name with same | ⟨-, folded | own⟩
  · have clocks : after.clockOf name = before.clockOf name := congrArg Claim.clock same
    rw [clocks]
    exact Nat.le_trans (timely.seen name) clock
  · exact folded
  · have named : name = after.own.name := by
      rw [advances.own, ← own]
      exact (sound.name_report name).symm
    rw [named, clockOf_own]
    exact sound.ownSeen

theorem Timely.of_sameReport
    (timely : before.Timely)
    (sound : after.Sound)
    (own : after.own.name = before.own.name)
    (same : after.report = before.report)
    (clock : before.clock ≤ after.clock) :
    after.Timely :=
  timely.of_advances sound (.of_sameReport _ own same) clock

theorem timely_start
    (name : MemberName)
    (metadata : Bytes)
    (seeds : List MemberName)
    (now : Instant) :
    (start name metadata seeds now).Timely := by
  have sound := sound_start name metadata seeds now
  refine ⟨sound, ?_⟩
  intro queried
  by_cases own : queried = name
  · have named : queried = (start name metadata seeds now).own.name := by
      rw [own_start]
      exact own
    rw [named, clockOf_own]
    exact sound.ownSeen
  · rw [clockOf, report_start_other metadata seeds now own]
    exact Nat.zero_le _

/-- Whatever comes of an update, its clock is folded into the logical clock first. -/
theorem Consistent.le_clock_update
    (consistent : table.Consistent)
    (policy : Policy)
    (now : Instant)
    (name : MemberName)
    (status : Status)
    (clock : Nat)
    (metadata : Option Metadata) :
    max table.clock clock ≤ (table.update policy now name status clock metadata).table.clock := by
  by_cases own : name = table.own.name
  · subst own
    rw [clock_update_own]
    split
    · exact Nat.le_refl _
    · exact Nat.le_succ _
  · have outside := consistent.sameOutsideArena_update policy now status clock metadata own
    exact Nat.le_of_eq outside.clock.symm

theorem Timely.update
    (timely : table.Timely)
    (policy : Policy)
    (now : Instant)
    (name : MemberName)
    (status : Status)
    (clock : Nat)
    (metadata : Option Metadata) :
    (table.update policy now name status clock metadata).table.Timely := by
  have folded := timely.le_clock_update policy now name status clock metadata
  apply timely.of_advances (timely.toSound.update policy now name status clock metadata)
  · apply (timely.advances_update policy now name status clock metadata).mono
    rintro claim (rfl | own)
    · exact Or.inl (Nat.le_trans (Nat.le_max_right _ _) folded)
    · exact Or.inr own
  · exact Nat.le_trans (Nat.le_max_left _ _) folded

theorem Timely.tick (timely : table.Timely) : table.tick.Timely :=
  timely.of_sameReport timely.toSound.tick rfl (report_tick table) (Nat.le_succ _)

theorem Timely.recordAck
    (timely : table.Timely)
    (peer name : MemberName)
    (clock : Nat) :
    (table.recordAck peer name clock).Timely :=
  timely.of_sameReport (timely.toSound.recordAck peer name clock) rfl
    (report_recordAck table peer name clock) (Nat.le_refl _)

theorem Timely.recordAcks (timely : table.Timely) (peer : MemberName) (acks : List EntryAck) :
    (table.recordAcks peer acks).Timely := by
  induction acks generalizing table with
  | nil => exact timely
  | cons ack rest step => exact step (timely.recordAck peer ack.name ack.clock)

/-- A row that a member gets on insertion says nothing. -/
theorem Consistent.report_insert
    (consistent : table.Consistent)
    (name : MemberName)
    (now : Instant) :
    (table.insert name now).2.report = table.report := by
  by_cases own : name = table.own.name
  · rw [own, insert_own]
  · have self := sameSelf_insert table name now
    funext queried
    by_cases about : queried = table.own.name
    · subst about
      have reported := report_own (table.insert name now).2
      rw [self.own] at reported
      rw [reported, report_own]
    · have still : queried ≠ (table.insert name now).2.own.name := by
        rw [self.own]
        exact about
      rw [report_other about, report_other still, consistent.other?_insert now own]
      by_cases same : queried = name
      · subst same
        rw [if_pos rfl]
        cases table.other? queried with
        | none => rfl
        | some row => rfl
      · rw [if_neg same]

/-- A dropped member is reported as one that nothing was heard of. -/
theorem Consistent.clockOf_pruneAll_le
    (consistent : table.Consistent)
    (names : List MemberName)
    (queried : MemberName) :
    (names.foldl Table.prune table).clockOf queried ≤ table.clockOf queried := by
  have self := sameSelf_pruneAll table names
  by_cases own : queried = table.own.name
  · subst own
    have after := clockOf_own (names.foldl Table.prune table)
    rw [self.own] at after
    exact Nat.le_of_eq (after.trans (clockOf_own table).symm)
  · have still : queried ≠ (names.foldl Table.prune table).own.name := by
      rw [self.own]
      exact own
    rw [clockOf, clockOf, report_other own, report_other still,
      (consistent.pruneAll names).2 queried]
    by_cases dropped : queried ∈ names
    · rw [if_pos dropped]
      exact Nat.zero_le _
    · exact Nat.le_of_eq (by rw [if_neg dropped])

theorem Timely.advanceAll
    (timely : table.Timely)
    (wall : Instant)
    (steps : List (MemberName × Status)) :
    (table.advanceAll wall steps).table.Timely := by
  induction steps generalizing table with
  | nil => exact timely
  | cons first rest step =>
    exact step (timely.tick.update .strict wall first.1 first.2 table.tick.clock none)

theorem Timely.pruneAll (timely : table.Timely) (names : List MemberName) :
    (names.foldl Table.prune table).Timely := by
  refine ⟨timely.toSound.pruneAll names, ?_⟩
  intro queried
  rw [(sameSelf_pruneAll table names).clock]
  exact Nat.le_trans (timely.clockOf_pruneAll_le names queried) (timely.seen queried)

theorem Timely.setMetadata (timely : table.Timely) (payload : Bytes) :
    (table.setMetadata payload).table.Timely := by
  have grows := timely.grows_setMetadata payload
  exact timely.of_advances grows.sound (grows.advances.mono fun _ own => Or.inr own)
    (Nat.le_succ _)

theorem Timely.leave (timely : table.Timely) (now : Instant) :
    (table.leave now).table.Timely := by
  have grows := timely.grows_leave now
  apply timely.of_advances grows.sound (grows.advances.mono fun _ own => Or.inr own)
  rw [Table.leave]
  split
  · exact Nat.le_refl _
  · exact Nat.le_succ _

theorem Timely.perform (timely : table.Timely) (operation : Operation) :
    (table.perform operation).Timely := by
  cases operation with
  | apply now name status clock metadata =>
    exact timely.update .strict now name status clock metadata
  | merge now source entry =>
    have recorded := timely.recordAck source entry.name entry.clock
    exact recorded.update .lenient now entry.name entry.status entry.clock entry.metadata
  | observe clock =>
    exact timely.of_sameReport (timely.toSound.observe clock) rfl
      (report_congr rfl (other?_congr rfl rfl)) (Nat.le_max_left _ _)
  | tick => exact timely.tick
  | recordAcks peer acks => exact timely.recordAcks peer acks
  | expire wall asOf timeouts =>
    show (table.expire wall asOf timeouts).table.Timely
    rw [table_expire]
    exact (timely.advanceAll wall _).pruneAll _
  | setMetadata payload => exact timely.setMetadata payload
  | leave now => exact timely.leave now
  | insert name now =>
    have self := sameSelf_insert table name now
    exact timely.of_sameReport (timely.toSound.insert name now)
      (congrArg Member.name self.own) (timely.report_insert name now) (Nat.le_of_eq self.clock.symm)
  | takeInserted =>
    exact timely.of_sameReport (timely.toSound.perform .takeInserted) rfl
      (report_congr rfl (other?_congr rfl rfl)) (Nat.le_refl _)

theorem Reachable.timely (reachable : table.Reachable) : table.Timely := by
  rcases reachable with ⟨name, metadata, seeds, now, operations, rfl⟩
  exact performAll_induction (fun _ operation timely => timely.perform operation)
    (timely_start name metadata seeds now) operations

end Timely

/-! ## Updates under a tick -/

section Stamped

variable {table : Table} {name : MemberName} {row : Member} {status : Status}

/-- What an update about another member answers. -/
theorem Consistent.answer_update_other
    (consistent : table.Consistent)
    (policy : Policy)
    (now : Instant)
    (status : Status)
    (clock : Nat)
    (metadata : Option Metadata)
    (foreign : name ≠ table.own.name) :
    (table.update policy now name status clock metadata).answer =
      if policy.rejects (table.rowFor name now) status clock then
        .error (.invalidTransition name (table.rowFor name now).status status)
      else
        .ok ((table.rowFor name now).isOlderThan clock ||
          decide (((table.rowFor name now).updated policy now status clock metadata).metadata.payload
            ≠ ((table.rowFor name now).accept status clock now).metadata.payload)) := by
  rw [consistent.update_eq_of_foreign policy now status clock metadata foreign]
  by_cases rejected : policy.rejects (table.rowFor name now) status clock
  · simp [rejected]
  · simp [rejected, Member.updated]

theorem Consistent.foreign_of_other?
    (consistent : table.Consistent)
    (known : table.other? name = some row) :
    name ≠ table.own.name := by
  rintro rfl
  rw [consistent.other?_own] at known
  cases known

/-- A permitted update under a tick is accepted. -/
theorem Timely.apply_stamped
    (timely : table.Timely)
    (known : table.other? name = some row)
    (permitted : row.permits status)
    (now : Instant) :
    (table.tick.apply now name status table.tick.clock none).answer = .ok true ∧
      (table.tick.apply now name status table.tick.clock none).table.other? name =
        some (row.accept status (table.clock + 1) now) := by
  have foreign : name ≠ table.tick.own.name := timely.foreign_of_other? known
  have rows : table.tick.rowFor name now = row := by
    have found : table.tick.other? name = some row := known
    rw [rowFor, found, Option.getD_some]
  have older : row.isOlderThan table.tick.clock :=
    decide_eq_true (Nat.lt_succ_of_le (timely.other_clock_le known))
  have taken : ¬Policy.strict.rejects row status table.tick.clock := by
    simp [Policy.rejects, permitted]
  constructor
  · rw [Table.apply, timely.tick.answer_update_other _ _ _ _ _ foreign, rows, if_neg taken, older]
    rfl
  · rw [Table.apply, timely.tick.other?_update _ _ _ _ _ foreign, if_pos rfl, rows, Member.updated,
      if_neg taken]
    rfl

end Stamped

/-! ## The moves of a sweep -/

/-- Moves of different members, each of which the transition table permits. -/
structure Feasible (table : Table) (steps : List (MemberName × Status)) : Prop where
  once : (steps.map Prod.fst).Nodup
  permitted : ∀ step ∈ steps, ∃ row, table.other? step.1 = some row ∧ row.permits step.2

section Sweep

variable {table : Table} {wall asOf : Instant} {timeouts : Timeouts}

theorem Consistent.feasible_dueAdvances
    (consistent : table.Consistent)
    (timeouts : Timeouts)
    (asOf : Instant) :
    table.Feasible (table.dueAdvances timeouts asOf) := by
  refine ⟨consistent.nodup_dueAdvances, ?_⟩
  rintro ⟨name, status⟩ due
  rcases mem_dueAdvances_iff.1 due with ⟨row, member, named, advances⟩
  exact ⟨row, consistent.other?_eq_some_iff.2 ⟨member, named⟩, permits_of_step advances⟩

/-- A move changes the row of nobody who moves later. -/
theorem Feasible.tail
    {name : MemberName}
    {status : Status}
    {rest : List (MemberName × Status)}
    (feasible : table.Feasible ((name, status) :: rest))
    (timely : table.Timely) :
    (table.tick.apply wall name status table.tick.clock none).table.Feasible rest := by
  rcases List.nodup_cons.1 feasible.once with ⟨fresh, once⟩
  rcases feasible.permitted _ List.mem_cons_self with ⟨row, known, -⟩
  have foreign : name ≠ table.tick.own.name := timely.foreign_of_other? known
  refine ⟨once, ?_⟩
  intro step later
  have elsewhere : step.1 ≠ name := by
    rintro rfl
    exact fresh (List.mem_map.2 ⟨step, later, rfl⟩)
  rcases feasible.permitted step (List.mem_cons_of_mem _ later) with ⟨other, found, permitted⟩
  refine ⟨other, ?_, permitted⟩
  rw [Table.apply, timely.tick.other?_update _ _ _ _ _ foreign, if_neg elsewhere]
  exact found

/-- Every move of a list is accepted where its turn comes. -/
theorem Timely.accepted_of_feasible
    (done : List (MemberName × Status))
    {rest : List (MemberName × Status)}
    {name : MemberName}
    {status : Status}
    (timely : table.Timely)
    (feasible : table.Feasible (done ++ (name, status) :: rest)) :
    let before := (table.advanceAll wall done).table
    (before.tick.apply wall name status before.tick.clock none).answer = .ok true := by
  induction done generalizing table with
  | nil =>
    rcases feasible.permitted _ List.mem_cons_self with ⟨row, known, permitted⟩
    exact (timely.apply_stamped known permitted wall).1
  | cons first done step =>
    apply step ?_ (feasible.tail timely)
    exact timely.tick.update .strict wall first.1 first.2 table.tick.clock none

/-- All moves of a list are counted as accepted. -/
theorem Feasible.answer_advanceAll
    {steps : List (MemberName × Status)}
    (feasible : table.Feasible steps)
    (timely : table.Timely)
    (wall : Instant) :
    (table.advanceAll wall steps).answer = steps.length := by
  induction steps generalizing table with
  | nil => rfl
  | cons first rest step =>
    have accepted : (table.tick.apply wall first.1 first.2 table.tick.clock none).answer =
        .ok true :=
      timely.accepted_of_feasible [] feasible
    have later := step (feasible.tail timely)
      (timely.tick.update .strict wall first.1 first.2 table.tick.clock none)
    simp only [Table.advanceAll, accepted, List.length_cons]
    rw [later]
    exact Nat.add_comm _ _

/-- A member that moves nowhere in a list of moves keeps its row. -/
theorem Timely.other?_advanceAll_elsewhere
    (timely : table.Timely)
    {steps : List (MemberName × Status)}
    (feasible : table.Feasible steps)
    {queried : MemberName}
    (elsewhere : queried ∉ steps.map Prod.fst) :
    (table.advanceAll wall steps).table.other? queried = table.other? queried := by
  induction steps generalizing table with
  | nil => rfl
  | cons first rest step =>
    rw [List.map_cons, List.mem_cons, not_or] at elsewhere
    rcases feasible.permitted _ List.mem_cons_self with ⟨row, known, -⟩
    have foreign : first.1 ≠ table.tick.own.name := timely.foreign_of_other? known
    have moved := timely.tick.update .strict wall first.1 first.2 table.tick.clock none
    have kept :=
      timely.tick.other?_update .strict wall first.2 table.tick.clock none foreign queried
    rw [if_neg elsewhere.1] at kept
    exact (step moved (feasible.tail timely) elsewhere.2).trans kept

/-- Each move of a list takes one tick. -/
theorem Timely.clock_apply_tick
    (timely : table.Timely)
    {name : MemberName}
    {status : Status}
    {row : Member}
    (known : table.other? name = some row) :
    (table.tick.apply wall name status table.tick.clock none).table.clock = table.clock + 1 := by
  have foreign : name ≠ table.tick.own.name := timely.foreign_of_other? known
  have outside := timely.tick.sameOutsideArena_update .strict wall status table.tick.clock none
    foreign
  exact outside.clock.trans (Nat.max_self _)

/-- The row that a move leaves in the end: the move is stamped by its place in the list. -/
theorem Feasible.other?_advanceAll_at
    {steps : List (MemberName × Status)}
    (feasible : table.Feasible steps)
    (timely : table.Timely)
    {name : MemberName}
    {status : Status}
    {row : Member}
    {place : Nat}
    (due : steps[place]? = some (name, status))
    (known : table.other? name = some row) :
    (table.advanceAll wall steps).table.other? name =
      some (row.accept status (table.clock + place + 1) wall) := by
  induction steps generalizing table place with
  | nil => cases due
  | cons first rest step =>
    have moved := timely.tick.update .strict wall first.1 first.2 table.tick.clock none
    have once := (List.nodup_cons.1 feasible.once).1
    cases place with
    | zero =>
      cases due
      rcases feasible.permitted _ List.mem_cons_self with ⟨other, found, permitted⟩
      rw [known] at found
      cases found
      rw [Nat.add_zero, ← (timely.apply_stamped known permitted wall).2]
      exact moved.other?_advanceAll_elsewhere (feasible.tail timely) once
    | succ place =>
      have later : rest[place]? = some (name, status) := due
      have elsewhere : name ≠ first.1 := by
        rintro rfl
        exact once (List.mem_map.2 ⟨_, List.mem_of_getElem? later, rfl⟩)
      rcases feasible.permitted _ List.mem_cons_self with ⟨other, found, -⟩
      have foreign : first.1 ≠ table.tick.own.name := timely.foreign_of_other? found
      have kept :=
        timely.tick.other?_update .strict wall first.2 table.tick.clock none foreign name
      rw [if_neg elsewhere] at kept
      have ticked : (table.tick.apply wall first.1 first.2 table.tick.clock none).table.clock =
          table.clock + 1 :=
        timely.clock_apply_tick found
      have ends := step (feasible.tail timely) moved later (kept.trans known)
      rw [ticked, show table.clock + 1 + place + 1 = table.clock + (place + 1) + 1 by omega] at ends
      exact ends

/-- Every move of a list shows in the end. -/
theorem Feasible.other?_advanceAll
    {steps : List (MemberName × Status)}
    (feasible : table.Feasible steps)
    (timely : table.Timely)
    (wall : Instant)
    {name : MemberName}
    {status : Status}
    (due : (name, status) ∈ steps) :
    ∃ row, (table.advanceAll wall steps).table.other? name = some row ∧
      row.status = status ∧ table.clock < row.clock := by
  rcases List.mem_iff_getElem?.1 due with ⟨place, found⟩
  rcases feasible.permitted _ due with ⟨row, known, -⟩
  have behind := timely.other_clock_le known
  have newer : row.clock < table.clock + place + 1 := by omega
  rcases Member.accept_of_lt newer status wall with ⟨taken, stamped⟩
  refine ⟨_, feasible.other?_advanceAll_at timely found known, taken, ?_⟩
  rw [stamped]
  omega

/-- A sweep takes every move and every drop it has decided on. -/
theorem Timely.answer_expire (timely : table.Timely) :
    (table.expire wall asOf timeouts).answer =
      (table.dueAdvances timeouts asOf).length + (table.duePrunes timeouts asOf).length := by
  have moved := (timely.feasible_dueAdvances timeouts asOf).answer_advanceAll timely wall
  rw [← moved]
  rfl

/-- A member that is due to be dropped is gone, and all the others are left by the moves. -/
theorem Timely.other?_expire_eq (timely : table.Timely) (queried : MemberName) :
    (table.expire wall asOf timeouts).table.other? queried =
      if queried ∈ table.duePrunes timeouts asOf then none
      else (table.advanceAll wall (table.dueAdvances timeouts asOf)).table.other? queried := by
  have advanced := timely.advanceAll wall (table.dueAdvances timeouts asOf)
  rw [table_expire, (advanced.toConsistent.pruneAll _).2]

/-- A member that a sweep moves on has its next status afterwards, under a fresh clock. -/
theorem Timely.other?_expire
    (timely : table.Timely)
    {name : MemberName}
    {status : Status}
    (due : (name, status) ∈ table.dueAdvances timeouts asOf) :
    ∃ row, (table.expire wall asOf timeouts).table.other? name = some row ∧
      row.status = status ∧ table.clock < row.clock := by
  rcases (timely.feasible_dueAdvances timeouts asOf).other?_advanceAll timely wall due with
    ⟨row, found, moved⟩
  refine ⟨row, ?_, moved⟩
  rw [timely.other?_expire_eq, if_neg (timely.not_pruned_of_advanced due)]
  exact found

end Sweep

/-! ## The own row under a fresh stamp -/

section Own

variable {table : Table}

/-- A claim that contradicts the own row is answered under a fresh stamp. -/
theorem Timely.isFresh_refutation
    (timely : table.Timely)
    (policy : Policy)
    (now : Instant)
    {status : Status}
    {clock : Nat}
    (metadata : Option Metadata)
    {name : MemberName}
    (own : name = table.own.name)
    (contradicts :
      ¬(clock < table.own.clock ∨ status = table.own.status ∧ clock = table.own.clock)) :
    table.IsFresh (table.update policy now name status clock metadata).table.own.clock := by
  subst own
  apply timely.isFresh
  rw [own_update_own, Member.answering, if_neg contradicts]
  exact Nat.lt_succ_of_le (Nat.le_max_left _ _)

theorem Timely.isFresh_setMetadata (timely : table.Timely) (payload : Bytes) :
    table.IsFresh (table.setMetadata payload).table.own.clock := by
  apply timely.isFresh
  rw [timely.own_setMetadata]
  exact Nat.lt_succ_self _

theorem Timely.isFresh_leave
    (timely : table.Timely)
    (present : table.stopped = false)
    (now : Instant) :
    table.IsFresh (table.leave now).table.own.clock := by
  apply timely.isFresh
  rw [Table.leave, present]
  exact Nat.lt_succ_self _

end Own

end Table

end ClusterMembership
