import ClusterMembership.Proofs.Table.Arena
import ClusterMembership.Table.Sweep

/-!
# What a sweep does to the rows

A sweep first decides, from the table as it stands, which members move on and which are
dropped; then it acts.  It decides about a member by its row: the row moves on,
`Timeouts.MovesOn`, or its time has run out, `Timeouts.RunsOut`, or it stays.  The members it
decides about have rows, each has one, and a member that moves on is not dropped.  A dropped row
is gone, with the acks by and about its member, and no other row notices.
-/

namespace ClusterMembership

namespace Table

variable {table : Table}

/-! ## Pruning -/

/-- Nothing that concerns the node itself has changed. -/
structure SameSelf (before after : Table) : Prop where
  own : after.own = before.own
  clock : after.clock = before.clock
  stopped : after.stopped = before.stopped

theorem sameSelf_prune (table : Table) (name : MemberName) :
    SameSelf table (table.prune name) := by
  rw [prune]
  dsimp only
  split <;> exact ⟨rfl, rfl, rfl⟩

theorem sameSelf_pruneAll (table : Table) (names : List MemberName) :
    SameSelf table (names.foldl prune table) := by
  induction names generalizing table with
  | nil => exact ⟨rfl, rfl, rfl⟩
  | cons name names step =>
    have first := sameSelf_prune table name
    have others := step (table.prune name)
    exact ⟨others.own.trans first.own, others.clock.trans first.clock,
      others.stopped.trans first.stopped⟩

theorem index_prune (table : Table) (name : MemberName) :
    (table.prune name).index = table.index.erase name := by
  rw [prune]
  dsimp only
  split
  · rename_i unindexed
    ext1 queried
    rw [Std.ExtHashMap.getElem?_erase]
    split
    · rename_i same
      rw [← eq_of_beq same, unindexed]
    · rfl
  · rfl

/-- A pruned row vacates its slot, and the other slots keep their occupants. -/
theorem Consistent.occupant?_prune
    (consistent : table.Consistent)
    (name : MemberName)
    (index : Nat) :
    (table.prune name).occupant? index =
      if table.index[name]? = some index then none else table.occupant? index := by
  rw [prune]
  dsimp only
  cases indexed : table.index[name]? with
  | none => simp [occupant?]
  | some slot =>
    rcases consistent.exists_slot indexed with ⟨place, row, found, -⟩
    by_cases same : slot = index
    · subst same
      simp [occupant?, Array.getElem?_modify, found]
    · simp [occupant?, Array.getElem?_modify, same]

theorem Consistent.other?_prune
    (consistent : table.Consistent)
    (name queried : MemberName) :
    (table.prune name).other? queried =
      if queried = name then none else table.other? queried := by
  have occupants := consistent.occupant?_prune name
  unfold other?
  rw [index_prune, Std.ExtHashMap.getElem?_erase]
  by_cases same : name = queried
  · simp [same]
  · rw [if_neg (by simpa using same), if_neg (Ne.symm same)]
    cases found : table.index[queried]? with
    | none => rfl
    | some index =>
      have elsewhere : table.index[name]? ≠ some index :=
        fun indexed => same (consistent.name_unique indexed found)
      simp [occupants, elsewhere]

theorem Consistent.prune (consistent : table.Consistent) (name : MemberName) :
    (table.prune name).Consistent := by
  have occupants := consistent.occupant?_prune name
  constructor
  · intro queried index
    rw [index_prune, Std.ExtHashMap.getElem?_erase, occupants]
    by_cases same : name = queried
    · subst same
      simp only [beq_self_eq_true, if_true, reduceCtorEq, false_iff]
      rintro ⟨row, occupied, named⟩
      split at occupied
      · cases occupied
      · rename_i unindexed
        exact unindexed ((consistent.indexed name index).2 ⟨row, occupied, named⟩)
    · rw [if_neg (by simpa using same), consistent.indexed queried index]
      split
      · rename_i indexed
        rcases (consistent.indexed name index).1 indexed with ⟨row, occupied, named⟩
        simp [occupied, named, same]
      · rfl
  · rw [index_prune, (sameSelf_prune table name).own, Std.ExtHashMap.getElem?_erase]
    split
    · rfl
    · exact consistent.ownUnindexed
  · intro index
    rw [occupants]
    rw [Table.prune]
    dsimp only
    split
    · rename_i unindexed
      simp [consistent.vacant, unindexed]
    · rename_i slot indexed
      rcases consistent.exists_slot indexed with ⟨place, row, found, -⟩
      have inside : slot < table.slots.size := (Array.getElem?_eq_some_iff.1 found).1
      by_cases same : slot = index
      · subst same
        simp [indexed, inside]
      · simp [consistent.vacant, indexed, same, Ne.symm same]
  · have once := consistent.freeOnce
    rw [Table.prune]
    dsimp only
    split
    · exact once
    · rename_i slot indexed
      rcases (consistent.indexed name slot).1 indexed with ⟨row, occupied, -⟩
      refine List.nodup_cons.2 ⟨?_, once⟩
      rw [consistent.vacant, occupied]
      simp

/-- Dropping members one after the other leaves the rows of all the others. -/
theorem Consistent.pruneAll (consistent : table.Consistent) (names : List MemberName) :
    (names.foldl Table.prune table).Consistent ∧
      ∀ queried : MemberName, (names.foldl Table.prune table).other? queried =
        if queried ∈ names then none else table.other? queried := by
  induction names generalizing table with
  | nil => exact ⟨consistent, fun queried => by simp⟩
  | cons name names step =>
    rcases step (consistent.prune name) with ⟨after, others⟩
    refine ⟨after, ?_⟩
    intro queried
    rw [List.foldl_cons, others, consistent.other?_prune]
    by_cases later : queried ∈ names
    · simp [later]
    · simp [later]

/-- Dropping a member drops every ack by it or about it. -/
theorem acks_prune (table : Table) (name : MemberName) :
    (table.prune name).acks =
      table.acks.filter (fun pair _ => pair.1 ≠ name && pair.2 ≠ name) := by
  rw [prune]
  dsimp only
  split <;> rfl

theorem getElem?_acks_prune (table : Table) (name peer about : MemberName) :
    (table.prune name).acks[(peer, about)]? =
      if peer = name ∨ about = name then none else table.acks[(peer, about)]? := by
  rw [acks_prune, Std.ExtHashMap.getElem?_filter]
  by_cases dropped : peer = name ∨ about = name
  · have filtered : (peer ≠ name && about ≠ name) = false := by
      rcases dropped with rfl | rfl <;> simp
    rw [if_pos dropped]
    simp only [Std.ExtHashMap.getKey_eq, filtered]
    cases table.acks[(peer, about)]? <;> rfl
  · have kept : (peer ≠ name && about ≠ name) = true := by
      rw [not_or] at dropped
      simp [dropped]
    rw [if_neg dropped]
    simp only [Std.ExtHashMap.getKey_eq, kept]
    cases table.acks[(peer, about)]? <;> rfl

/-- Dropping members one after the other leaves the acks that are by and about all the others. -/
theorem getElem?_acks_pruneAll (table : Table) (names : List MemberName) (peer about : MemberName) :
    (names.foldl prune table).acks[(peer, about)]? =
      if peer ∈ names ∨ about ∈ names then none else table.acks[(peer, about)]? := by
  induction names generalizing table with
  | nil => simp
  | cons name names step =>
    rw [List.foldl_cons, step, getElem?_acks_prune]
    by_cases later : peer ∈ names ∨ about ∈ names
    · have dropped : peer ∈ name :: names ∨ about ∈ name :: names :=
        later.imp (List.mem_cons_of_mem name) (List.mem_cons_of_mem name)
      rw [if_pos later, if_pos dropped]
    · rw [if_neg later]
      rw [not_or] at later
      simp only [List.mem_cons, later, or_false]

/-! ## What is due -/

namespace Timeouts

variable {timeouts : Timeouts} {asOf : Instant} {row : Member} {status : Status}

/-- A member has had its status for long enough to be moved on to the next one. -/
inductive MovesOn (timeouts : Timeouts) (asOf : Instant) (row : Member) : Status → Prop where
  | suspect
      (observed : 0 < row.clock)
      (current : row.status = .suspect)
      (elapsed : timeouts.suspect ≤ asOf - row.statusTime) :
      MovesOn timeouts asOf row .unavailable
  | unavailable
      (observed : 0 < row.clock)
      (current : row.status = .unavailable)
      (elapsed : timeouts.unavailable ≤ asOf - row.statusTime) :
      MovesOn timeouts asOf row .offline

/-- A member has been offline for long enough to be dropped. -/
structure RunsOut (timeouts : Timeouts) (asOf : Instant) (row : Member) : Prop where
  observed : 0 < row.clock
  current : row.status = .offline
  elapsed : timeouts.retention ≤ asOf - row.statusTime

theorem MovesOn.differs (moves : timeouts.MovesOn asOf row status) : status ≠ row.status := by
  cases moves with
  | suspect _ current _ =>
    rw [current]
    decide
  | unavailable _ current _ =>
    rw [current]
    decide

theorem MovesOn.step_eq (moves : timeouts.MovesOn asOf row status) :
    timeouts.step asOf row = .advance status := by
  cases moves with
  | suspect observed current elapsed => simp [step, Member.isObserved, observed, current, elapsed]
  | unavailable observed current elapsed =>
    simp [step, Member.isObserved, observed, current, elapsed]

theorem RunsOut.step_eq (runsOut : timeouts.RunsOut asOf row) : timeouts.step asOf row = .prune := by
  simp [step, Member.isObserved, runsOut.observed, runsOut.current, runsOut.elapsed]

/-- A step other than to stay is taken for one of these reasons. -/
theorem step_cases (timeouts : Timeouts) (asOf : Instant) (row : Member) :
    (∃ status, timeouts.step asOf row = .advance status ∧ timeouts.MovesOn asOf row status) ∨
      (timeouts.step asOf row = .prune ∧ timeouts.RunsOut asOf row) ∨
      timeouts.step asOf row = .stay := by
  rcases Nat.eq_zero_or_pos row.clock with silent | observed
  · exact Or.inr (Or.inr (by simp [step, Member.isObserved, silent]))
  · cases current : row.status with
    | online => exact Or.inr (Or.inr (by simp [step, current]))
    | suspect =>
      by_cases elapsed : timeouts.suspect ≤ asOf - row.statusTime
      · have moves : timeouts.MovesOn asOf row .unavailable := .suspect observed current elapsed
        exact Or.inl ⟨_, moves.step_eq, moves⟩
      · exact Or.inr (Or.inr (by simp [step, current, elapsed]))
    | unavailable =>
      by_cases elapsed : timeouts.unavailable ≤ asOf - row.statusTime
      · have moves : timeouts.MovesOn asOf row .offline := .unavailable observed current elapsed
        exact Or.inl ⟨_, moves.step_eq, moves⟩
      · exact Or.inr (Or.inr (by simp [step, current, elapsed]))
    | offline =>
      by_cases elapsed : timeouts.retention ≤ asOf - row.statusTime
      · have runsOut : timeouts.RunsOut asOf row := ⟨observed, current, elapsed⟩
        exact Or.inr (Or.inl ⟨runsOut.step_eq, runsOut⟩)
      · exact Or.inr (Or.inr (by simp [step, current, elapsed]))

theorem step_eq_advance_iff :
    timeouts.step asOf row = .advance status ↔ timeouts.MovesOn asOf row status := by
  refine ⟨fun due => ?_, MovesOn.step_eq⟩
  rcases step_cases timeouts asOf row with ⟨next, taken, moves⟩ | ⟨taken, -⟩ | taken
  · rw [taken] at due
    cases due
    exact moves
  · rw [taken] at due
    cases due
  · rw [taken] at due
    cases due

theorem step_eq_prune_iff : timeouts.step asOf row = .prune ↔ timeouts.RunsOut asOf row := by
  refine ⟨fun due => ?_, RunsOut.step_eq⟩
  rcases step_cases timeouts asOf row with ⟨next, taken, -⟩ | ⟨-, runsOut⟩ | taken
  · rw [taken] at due
    cases due
  · exact runsOut
  · rw [taken] at due
    cases due

end Timeouts

variable {timeouts : Timeouts} {asOf : Instant} {name : MemberName} {status : Status}

/-- A move that is due is one that the transition table allows. -/
theorem permits_of_step {row : Member} (due : timeouts.step asOf row = .advance status) :
    row.permits status := by
  have legal : row.status.canTransition status := by
    cases Timeouts.step_eq_advance_iff.1 due with
    | suspect _ current _ =>
      rw [current]
      rfl
    | unavailable _ current _ =>
      rw [current]
      rfl
  simp [Member.permits, legal]

theorem mem_dueAdvances_iff :
    (name, status) ∈ table.dueAdvances timeouts asOf ↔
      ∃ row ∈ table.others, row.name = name ∧ timeouts.step asOf row = .advance status := by
  rw [dueAdvances, List.mem_filterMap]
  constructor
  · rintro ⟨row, member, decided⟩
    refine ⟨row, member, ?_⟩
    split at decided
    · rename_i due
      simp_all
    · cases decided
    · cases decided
  · rintro ⟨row, member, rfl, due⟩
    exact ⟨row, member, by simp [due]⟩

theorem mem_duePrunes_iff :
    name ∈ table.duePrunes timeouts asOf ↔
      ∃ row ∈ table.others, row.name = name ∧ timeouts.step asOf row = .prune := by
  rw [duePrunes, List.mem_filterMap]
  constructor
  · rintro ⟨row, member, decided⟩
    refine ⟨row, member, ?_⟩
    split at decided
    · rename_i due
      simp_all
    · cases decided
    · cases decided
  · rintro ⟨row, member, rfl, due⟩
    exact ⟨row, member, by simp [due]⟩

/-- Every member moves on once. -/
theorem Consistent.nodup_dueAdvances (consistent : table.Consistent) :
    ((table.dueAdvances timeouts asOf).map Prod.fst).Nodup := by
  have names : (table.others.map Member.name).Nodup := (List.nodup_cons.1 consistent.nodup_names).2
  refine List.Nodup.sublist ?_ names
  rw [dueAdvances]
  generalize table.others = rows
  induction rows with
  | nil => exact .slnil
  | cons row rows step =>
    rw [List.filterMap_cons, List.map_cons]
    cases timeouts.step asOf row with
    | advance status => exact step.cons_cons row.name
    | prune => exact step.cons row.name
    | stay => exact step.cons row.name

/-- A member that moves on is not dropped. -/
theorem Consistent.not_pruned_of_advanced
    (consistent : table.Consistent)
    (due : (name, status) ∈ table.dueAdvances timeouts asOf) :
    name ∉ table.duePrunes timeouts asOf := by
  intro pruned
  rcases mem_dueAdvances_iff.1 due with ⟨row, member, named, advances⟩
  rcases mem_duePrunes_iff.1 pruned with ⟨other, elsewhere, called, drops⟩
  have found := consistent.other?_eq_some_iff.2 ⟨member, named⟩
  rw [consistent.other?_eq_some_iff.2 ⟨elsewhere, called⟩] at found
  cases found
  rw [advances] at drops
  cases drops

end Table

end ClusterMembership
