import ClusterMembership.Proofs.Table.Arena

/-!
# What an update does to the rows

An update about another member changes the row of that member and nothing else in
the arena; an update about the node itself changes at most the clock of its own row.
The row that is left is a function of the row before, `Member.updated`: a policy that
turns the update away leaves the row, and otherwise status and metadata are taken
where they are newer.

`Table.other?_update` and `Table.own_update` are the two equations every statement
about runs of the protocol rests on.
-/

namespace ClusterMembership

/-- The row an update leaves. -/
def Member.updated
    (member : Member)
    (policy : Table.Policy)
    (now : Instant)
    (status : Status)
    (clock : Nat)
    (metadata : Option Metadata) :
    Member :=
  if policy.rejects member status clock then
    member
  else
    (member.accept status clock now).mergeMetadata? metadata

/-- The own row after a claim about the node itself, under the logical clock before it. -/
def Member.answering (member : Member) (logical : Nat) (status : Status) (clock : Nat) : Member :=
  if clock < member.clock ∨ status = member.status ∧ clock = member.clock then
    member
  else
    { member with clock := max logical clock + 1 }

namespace Member

@[simp]
theorem name_accept (member : Member) (status : Status) (clock : Nat) (now : Instant) :
    (member.accept status clock now).name = member.name := by
  rw [accept]
  split <;> rfl

@[simp]
theorem name_mergeMetadata? (member : Member) (metadata : Option Metadata) :
    (member.mergeMetadata? metadata).name = member.name := by
  unfold mergeMetadata? mergeMetadata
  split
  · split <;> rfl
  · rfl

@[simp]
theorem name_updated
    (member : Member)
    (policy : Table.Policy)
    (now : Instant)
    (status : Status)
    (clock : Nat)
    (metadata : Option Metadata) :
    (member.updated policy now status clock metadata).name = member.name := by
  rw [updated]
  split
  · rfl
  · rw [name_mergeMetadata?, name_accept]

@[simp]
theorem name_answering (member : Member) (logical : Nat) (status : Status) (clock : Nat) :
    (member.answering logical status clock).name = member.name := by
  rw [answering]
  split <;> rfl

end Member

namespace Table

variable
    {table : Table}
    (policy : Policy)
    (now : Instant)
    (status : Status)
    (clock : Nat)
    (metadata : Option Metadata)

/-! ## Updates about the node itself -/

theorem refute_eq (table : Table) (status : Status) (clock : Nat) :
    table.refute status clock =
      if clock < table.own.clock ∨ status = table.own.status ∧ clock = table.own.clock then
        table
      else
        { table with
          own := { table.own with clock := table.clock + 1 }
          clock := table.clock + 1 } := by
  rw [refute, tick]
  by_cases older : clock < table.own.clock
  · simp [older]
  · by_cases echo : status = table.own.status ∧ clock = table.own.clock
    · simp [echo]
    · simp [older, echo]

theorem update_own :
    table.update policy now table.own.name status clock metadata =
      { answer := .ok false
        table := (table.observe clock).refute status clock
        changes := [] } := by
  simp [update, observe, isOwn]

theorem own_update_own :
    (table.update policy now table.own.name status clock metadata).table.own =
      table.own.answering table.clock status clock := by
  rw [update_own, refute_eq]
  rw [Member.answering, observe]
  split <;> rfl

theorem clock_update_own :
    (table.update policy now table.own.name status clock metadata).table.clock =
      if clock < table.own.clock ∨ status = table.own.status ∧ clock = table.own.clock then
        max table.clock clock
      else
        max table.clock clock + 1 := by
  rw [update_own, refute_eq]
  rw [observe]
  split <;> rfl

/-- An update about the node itself leaves the arena alone. -/
theorem arena_update_own :
    let after := (table.update policy now table.own.name status clock metadata).table
    after.slots = table.slots ∧ after.index = table.index ∧ after.free = table.free ∧
      after.acks = table.acks ∧ after.stopped = table.stopped := by
  rw [update_own, refute_eq]
  rw [observe]
  split <;> exact ⟨rfl, rfl, rfl, rfl, rfl⟩

/-! ## Updates about another member -/

theorem Consistent.observe (consistent : table.Consistent) (clock : Nat) :
    (table.observe clock).Consistent :=
  consistent.of_sameArena rfl rfl rfl rfl

/-- The row that an update about another member works on. -/
def rowFor (table : Table) (name : MemberName) (now : Instant) : Member :=
  (table.other? name).getD (Member.unobserved name now)

theorem Consistent.name_rowFor
    (consistent : table.Consistent)
    (name : MemberName)
    (now : Instant) :
    (table.rowFor name now).name = name := by
  rw [rowFor]
  cases known : table.other? name with
  | none => rfl
  | some row => exact (consistent.other?_eq_some_iff.1 known).2

/-- A node that has just started has nothing to build on for any other member. -/
theorem rowFor_start
    (name : MemberName)
    (metadata : Bytes)
    (seeds : List MemberName)
    (now : Instant)
    (queried : MemberName) :
    (start name metadata seeds now).rowFor queried now = Member.unobserved queried now := by
  rw [rowFor]
  cases known : (start name metadata seeds now).other? queried with
  | none => rfl
  | some row => exact other?_start known

/-- The member the update is about has a row by then. -/
theorem Consistent.other?_insert_self
    (consistent : table.Consistent)
    {name : MemberName}
    (foreign : name ≠ table.own.name) :
    (table.insert name now).2.other? name = some (table.rowFor name now) := by
  rw [consistent.other?_insert now foreign, if_pos rfl, rowFor]

/-- An update about another member, which has a row by then. -/
theorem Consistent.update_eq_of_foreign
    (consistent : table.Consistent)
    {name : MemberName}
    (foreign : name ≠ table.own.name) :
    table.update policy now name status clock metadata =
      let inserted := ((table.observe clock).insert name now).2
      let member := table.rowFor name now
      let moved := member.accept status clock now
      let merged := moved.mergeMetadata? metadata
      let payloadChanged := merged.metadata.payload ≠ moved.metadata.payload
      if policy.rejects member status clock then
        { answer := .error (.invalidTransition name member.status status)
          table := inserted
          changes := [] }
      else
        { answer := .ok (member.isOlderThan clock || payloadChanged)
          table := inserted.setOther merged
          changes :=
            if moved.status ≠ member.status ∨ payloadChanged then [merged.change] else [] } := by
  have found : ((table.observe clock).insert name now).2.other? name =
      some (table.rowFor name now) :=
    (consistent.observe clock).other?_insert_self now foreign
  have another : (table.observe clock).isOwn name = false := decide_eq_false foreign
  rw [update]
  simp only [another, Bool.false_eq_true, if_false, found]

/-- The table an update about another member leaves. -/
theorem Consistent.table_update_other
    (consistent : table.Consistent)
    {name : MemberName}
    (foreign : name ≠ table.own.name) :
    (table.update policy now name status clock metadata).table =
      if policy.rejects (table.rowFor name now) status clock then
        ((table.observe clock).insert name now).2
      else
        ((table.observe clock).insert name now).2.setOther
          ((table.rowFor name now).updated policy now status clock metadata) := by
  rw [consistent.update_eq_of_foreign policy now status clock metadata foreign]
  by_cases rejected : policy.rejects (table.rowFor name now) status clock
  · simp [rejected]
  · simp [rejected, Member.updated]

theorem Consistent.update_other
    (consistent : table.Consistent)
    {name : MemberName}
    (foreign : name ≠ table.own.name) :
    (table.update policy now name status clock metadata).table.Consistent := by
  have inserted := (consistent.observe clock).insert name now
  rw [consistent.table_update_other policy now status clock metadata foreign]
  split
  · exact inserted
  · exact inserted.setOther _

/-- An update about another member gives it the updated row and changes no other row. -/
theorem Consistent.other?_update
    (consistent : table.Consistent)
    {name : MemberName}
    (foreign : name ≠ table.own.name)
    (queried : MemberName) :
    (table.update policy now name status clock metadata).table.other? queried =
      if queried = name then
        some ((table.rowFor name now).updated policy now status clock metadata)
      else
        table.other? queried := by
  have inserted := (consistent.observe clock).insert name now
  have known := (consistent.observe clock).other?_insert_self now foreign
  have others : ∀ queried, ((table.observe clock).insert name now).2.other? queried =
      if queried = name then some (table.rowFor name now) else table.other? queried :=
    (consistent.observe clock).other?_insert now foreign
  have named := consistent.name_rowFor name now
  rw [consistent.table_update_other policy now status clock metadata foreign]
  by_cases rejected : policy.rejects (table.rowFor name now) status clock
  · rw [if_pos rejected, others]
    simp [Member.updated, rejected]
  · rw [if_neg rejected]
    have held : ((table.observe clock).insert name now).2.other?
        ((table.rowFor name now).updated policy now status clock metadata).name =
          some (table.rowFor name now) := by
      rw [Member.name_updated, named]
      exact known
    rw [inserted.other?_setOther held, others, Member.name_updated, named]
    by_cases same : queried = name
    · simp [same]
    · simp [same]

/-- An update about another member only advances the logical clock outside the arena. -/
theorem Consistent.sameOutsideArena_update
    (consistent : table.Consistent)
    {name : MemberName}
    (foreign : name ≠ table.own.name) :
    SameOutsideArena (table.observe clock)
      (table.update policy now name status clock metadata).table := by
  have inserted := sameOutsideArena_insert (table.observe clock) name now
  rw [consistent.table_update_other policy now status clock metadata foreign]
  split
  · exact inserted
  · exact inserted.trans (sameOutsideArena_setOther _ _)

/-! ## Updates about anybody -/

theorem Consistent.update
    (consistent : table.Consistent)
    (name : MemberName) :
    (table.update policy now name status clock metadata).table.Consistent := by
  by_cases own : name = table.own.name
  · subst own
    have arena := @arena_update_own table policy now status clock metadata
    refine consistent.of_sameArena ?_ arena.1 arena.2.1 arena.2.2.1
    rw [own_update_own, Member.name_answering]
  · exact consistent.update_other policy now status clock metadata own

/-- An update records no ack. -/
theorem Consistent.acks_update
    (consistent : table.Consistent)
    (name : MemberName) :
    (table.update policy now name status clock metadata).table.acks = table.acks := by
  by_cases own : name = table.own.name
  · subst own
    exact (@arena_update_own table policy now status clock metadata).2.2.2.1
  · exact (consistent.sameOutsideArena_update policy now status clock metadata own).acks

/-- Nobody else changes the row of the node itself. -/
theorem Consistent.own_update
    (consistent : table.Consistent)
    (name : MemberName) :
    (table.update policy now name status clock metadata).table.own =
      if name = table.own.name then table.own.answering table.clock status clock
      else table.own := by
  by_cases own : name = table.own.name
  · subst own
    rw [own_update_own, if_pos rfl]
  · rw [if_neg own]
    exact (consistent.sameOutsideArena_update policy now status clock metadata own).own

end Table

end ClusterMembership
