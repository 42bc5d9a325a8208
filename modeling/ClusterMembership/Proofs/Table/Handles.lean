import ClusterMembership.Proofs.Table.LogicalClock
import ClusterMembership.Proofs.Table.OwnRow
import ClusterMembership.Proofs.Table.Slots

/-!
# Handles are never confused

A member gets a handle together with its row, and keeps it until a sweep drops the member.  An
operation either enrols one member that had no row, and notes its handle as inserted, or takes
the handles of the members that it drops, `Table.Turnover`.

A handle that was issued to a member is still the handle of that member, or its slot was vacated
since, `Table.Issued`.  This never ends, and a new member is never given such a handle.  So no
handle is issued twice, and a handle that stopped to resolve does not resolve again, whoever
moves into its slot.
-/

namespace ClusterMembership

namespace Table

variable {table before middle after : Table}

/-! ## What one operation does to handles -/

/-- The members that an operation drops. -/
def dropped (table : Table) : Operation → List MemberName
  | .expire _ asOf timeouts => table.duePrunes timeouts asOf
  | .apply .. | .merge .. | .observe _ | .tick | .recordAcks .. | .setMetadata _ | .leave _
  | .insert .. | .takeInserted => []

/-- The handles that an operation hands out to whoever keeps track of new members. -/
def taken (table : Table) : Operation → List Handle
  | .takeInserted => table.takeInserted.1
  | .apply .. | .merge .. | .observe _ | .tick | .recordAcks .. | .expire .. | .setMetadata _
  | .leave _ | .insert .. => []

/-- Tables with the same slots and the same index have the same handles. -/
theorem handle?_congr
    (slots : after.slots = before.slots)
    (index : after.index = before.index) :
    after.handle? = before.handle? := by
  funext name
  rw [handle?, handle?, slots, index]

/-- No handle was issued or taken away. -/
structure SameHandles (before after : Table) : Prop where
  handles : after.handle? = before.handle?
  inserted : after.inserted = before.inserted

namespace SameHandles

theorem of_sameArena
    (slots : after.slots = before.slots)
    (index : after.index = before.index)
    (inserted : after.inserted = before.inserted) :
    SameHandles before after :=
  ⟨handle?_congr slots index, inserted⟩

theorem refl (table : Table) : SameHandles table table :=
  ⟨rfl, rfl⟩

theorem trans (first : SameHandles before middle) (second : SameHandles middle after) :
    SameHandles before after :=
  ⟨second.handles.trans first.handles, second.inserted.trans first.inserted⟩

end SameHandles

/-- A member that had no handle got one, and the handle was noted as inserted. -/
structure Enrols (name : MemberName) (handle : Handle) (before after : Table) : Prop where
  absent : before.handle? name = none
  handles : ∀ queried : MemberName,
    after.handle? queried = if queried = name then some handle else before.handle? queried
  inserted : after.inserted = before.inserted ++ [handle]

theorem Enrols.after_same
    {name : MemberName}
    {handle : Handle}
    (enrols : Enrols name handle middle after)
    (same : SameHandles before middle) :
    Enrols name handle before after := by
  refine ⟨?_, fun queried => ?_, ?_⟩
  · rw [← same.handles]
    exact enrols.absent
  · rw [← same.handles]
    exact enrols.handles queried
  · rw [← same.inserted]
    exact enrols.inserted

theorem Enrols.before_same
    {name : MemberName}
    {handle : Handle}
    (enrols : Enrols name handle before middle)
    (same : SameHandles middle after) :
    Enrols name handle before after := by
  refine ⟨enrols.absent, fun queried => ?_, ?_⟩
  · rw [same.handles]
    exact enrols.handles queried
  · rw [same.inserted]
    exact enrols.inserted

/-- The handle of a row that is placed has the count of its slot. -/
theorem generation_place_handle (table : Table) (member : Member) :
    table.generation (table.place member).1.index = (table.place member).1.generation := by
  rw [place]
  split
  · rfl
  · simp [generation]

theorem inserted_place (table : Table) (member : Member) :
    (table.place member).2.inserted = table.inserted ++ [(table.place member).1] := by
  rw [place]
  split <;> rfl

/-- Placing a row gives its name the handle of the place, and no other name another handle. -/
theorem Consistent.handle?_place
    (consistent : table.Consistent)
    {member : Member}
    (foreign : member.name ≠ table.own.name)
    (absent : table.other? member.name = none)
    (queried : MemberName) :
    (table.place member).2.handle? queried =
      if queried = member.name then some (table.place member).1 else table.handle? queried := by
  have placed := consistent.place foreign absent
  ext1 handle
  rw [placed.handle?_eq_some, index_place, generation_place, Std.ExtHashMap.getElem?_insert]
  by_cases same : queried = member.name
  · subst same
    rw [if_pos rfl, if_pos (beq_self_eq_true _), Option.some.injEq, Option.some.injEq]
    have count := generation_place_handle table member
    constructor
    · rintro ⟨index, generation⟩
      rw [← index, count] at generation
      rcases handle with ⟨slot, vacated⟩
      cases index
      cases generation
      rfl
    · rintro rfl
      exact ⟨rfl, count⟩
  · rw [if_neg same, if_neg (by simpa using Ne.symm same), consistent.handle?_eq_some]

theorem Consistent.enrols_insert
    (consistent : table.Consistent)
    (name : MemberName)
    (now : Instant) :
    SameHandles table (table.insert name now).2 ∨
      ∃ handle, Enrols name handle table (table.insert name now).2 := by
  by_cases own : name = table.own.name
  · rw [own, insert_own]
    exact Or.inl (.refl table)
  · cases known : table.other? name with
    | some row =>
      rw [consistent.insert_known now known]
      exact Or.inl (.refl table)
    | none =>
      have foreign : (Member.unobserved name now).name ≠ table.own.name := own
      rw [consistent.insert_unknown now own known]
      exact Or.inr ⟨_, (consistent.handle?_eq_none_iff name).2 known,
        consistent.handle?_place foreign known, inserted_place table _⟩

theorem inserted_setOther (table : Table) (member : Member) :
    (table.setOther member).inserted = table.inserted := by
  rw [setOther]
  split <;> rfl

theorem Consistent.sameHandles_setOther (consistent : table.Consistent) (member : Member) :
    SameHandles table (table.setOther member) := by
  refine ⟨?_, inserted_setOther table member⟩
  funext name
  ext1 handle
  rw [(consistent.setOther member).handle?_eq_some, consistent.handle?_eq_some, index_setOther,
    generation_setOther]

theorem Consistent.enrols_update
    (consistent : table.Consistent)
    (policy : Policy)
    (now : Instant)
    (name : MemberName)
    (status : Status)
    (clock : Nat)
    (metadata : Option Metadata) :
    SameHandles table (table.update policy now name status clock metadata).table ∨
      ∃ handle, Enrols name handle table
        (table.update policy now name status clock metadata).table := by
  have observed : SameHandles table (table.observe clock) := .of_sameArena rfl rfl rfl
  by_cases own : name = table.own.name
  · subst own
    left
    rw [update_own, refute_eq]
    split <;> exact .of_sameArena rfl rfl rfl
  · have inserted := (consistent.observe clock).insert name now
    have enrols := (consistent.observe clock).enrols_insert name now
    have same : SameHandles ((table.observe clock).insert name now).2
        (table.update policy now name status clock metadata).table := by
      rw [consistent.table_update_other policy now status clock metadata own]
      split
      · exact .refl _
      · exact inserted.sameHandles_setOther _
    rcases enrols with unchanged | ⟨handle, enrolled⟩
    · exact Or.inl ((observed.trans unchanged).trans same)
    · exact Or.inr ⟨handle, (enrolled.after_same observed).before_same same⟩

/-- The moves of a sweep are about members that have a handle. -/
theorem Timely.sameHandles_advanceAll
    (timely : table.Timely)
    (wall : Instant)
    {steps : List (MemberName × Status)}
    (feasible : table.Feasible steps) :
    SameHandles table (table.advanceAll wall steps).table := by
  induction steps generalizing table with
  | nil => exact .refl table
  | cons first rest step =>
    rcases feasible.permitted _ List.mem_cons_self with ⟨row, known, -⟩
    have ticked : SameHandles table table.tick := .of_sameArena rfl rfl rfl
    have later := step (timely.tick.update .strict wall first.1 first.2 table.tick.clock none)
      (feasible.tail timely)
    rcases timely.tick.enrols_update .strict wall first.1 first.2 table.tick.clock none with
      same | ⟨handle, enrols⟩
    · exact (ticked.trans same).trans later
    · have unknown := (timely.tick.handle?_eq_none_iff first.1).1 enrols.absent
      have found : table.tick.other? first.1 = some row := known
      rw [unknown] at found
      cases found

theorem inserted_prune (table : Table) (name : MemberName) :
    (table.prune name).inserted = table.inserted := by
  rw [prune]
  dsimp only
  split <;> rfl

/-- Dropping members takes their handles, and no others. -/
theorem Consistent.handle?_pruneAll
    (consistent : table.Consistent)
    (names : List MemberName) :
    (∀ queried : MemberName, (names.foldl Table.prune table).handle? queried =
      if queried ∈ names then none else table.handle? queried) ∧
      (names.foldl Table.prune table).inserted = table.inserted := by
  induction names generalizing table with
  | nil => exact ⟨fun queried => by simp, rfl⟩
  | cons name names step =>
    rcases step (consistent.prune name) with ⟨handles, inserted⟩
    refine ⟨fun queried => ?_, inserted.trans (inserted_prune table name)⟩
    rw [List.foldl_cons, handles, consistent.handle?_prune]
    by_cases later : queried ∈ names
    · simp [later]
    · simp [later]

/-- What an operation does to handles: it enrols one member, or takes those of dropped members. -/
inductive Turnover (table : Table) (operation : Operation) : Prop where
  | enrols
      (name : MemberName)
      (handle : Handle)
      (enrols : Enrols name handle table (table.perform operation))
      (nobody : table.dropped operation = [])
      (untaken : table.taken operation = [])
  | drops
      (handles : ∀ queried : MemberName, (table.perform operation).handle? queried =
        if queried ∈ table.dropped operation then none else table.handle? queried)
      (inserted : table.taken operation ++ (table.perform operation).inserted = table.inserted)

theorem Turnover.of_same
    {operation : Operation}
    (same : SameHandles table (table.perform operation))
    (nobody : table.dropped operation = [])
    (untaken : table.taken operation = []) :
    Turnover table operation := by
  refine .drops (fun queried => ?_) ?_
  · rw [nobody, same.handles]
    simp
  · rw [untaken, same.inserted]
    rfl

theorem Turnover.of_enrols
    {operation : Operation}
    {name : MemberName}
    (changed : SameHandles table (table.perform operation) ∨
      ∃ handle, Enrols name handle table (table.perform operation))
    (nobody : table.dropped operation = [])
    (untaken : table.taken operation = []) :
    Turnover table operation := by
  rcases changed with same | ⟨handle, enrols⟩
  · exact .of_same same nobody untaken
  · exact .enrols name handle enrols nobody untaken

theorem Timely.turnover (timely : table.Timely) (operation : Operation) :
    Turnover table operation := by
  have consistent := timely.toConsistent
  cases operation with
  | apply now name status clock metadata =>
    exact .of_enrols (consistent.enrols_update .strict now name status clock metadata) rfl rfl
  | merge now source entry =>
    have noted : SameHandles table (table.recordAck source entry.name entry.clock) :=
      .of_sameArena rfl rfl rfl
    have recorded := timely.recordAck source entry.name entry.clock
    rcases recorded.enrols_update .lenient now entry.name entry.status entry.clock
      entry.metadata with same | ⟨handle, enrolled⟩
    · exact .of_same (noted.trans same) rfl rfl
    · exact .enrols entry.name handle (enrolled.after_same noted) rfl rfl
  | observe clock => exact .of_same (.of_sameArena rfl rfl rfl) rfl rfl
  | tick => exact .of_same (.of_sameArena rfl rfl rfl) rfl rfl
  | recordAcks peer acks =>
    rcases recordAcks_eq table peer acks with ⟨recorded, same⟩
    refine .of_same ?_ rfl rfl
    rw [Table.perform, same]
    exact .of_sameArena rfl rfl rfl
  | expire wall asOf timeouts =>
    have same := timely.sameHandles_advanceAll wall (timely.feasible_dueAdvances timeouts asOf)
    have advanced := timely.advanceAll wall (table.dueAdvances timeouts asOf)
    rcases advanced.handle?_pruneAll (table.duePrunes timeouts asOf) with ⟨handles, inserted⟩
    refine .drops (fun queried => ?_) (inserted.trans same.inserted)
    have taken := handles queried
    rw [same.handles] at taken
    exact taken
  | setMetadata payload => exact .of_same (.of_sameArena rfl rfl rfl) rfl rfl
  | leave now =>
    refine .of_same ?_ rfl rfl
    rw [Table.perform, Table.leave]
    split <;> exact .of_sameArena rfl rfl rfl
  | insert name now => exact .of_enrols (consistent.enrols_insert name now) rfl rfl
  | takeInserted =>
    have same : (table.perform .takeInserted).handle? = table.handle? := handle?_congr rfl rfl
    refine .drops (fun queried => ?_) (List.append_nil _)
    rw [same]
    rfl

/-! ## Handles that were issued -/

/-- A handle was issued to a member: the member has it, or its slot was vacated since. -/
def Issued (table : Table) (name : MemberName) (handle : Handle) : Prop :=
  table.handle? name = some handle ∨ handle.generation < table.generation handle.index

theorem Issued.perform
    {name : MemberName}
    {handle : Handle}
    (issued : table.Issued name handle)
    (sound : table.Sound)
    (operation : Operation) :
    (table.perform operation).Issued name handle := by
  have rearranges := sound.rearranges_perform operation
  rcases issued with held | vacated
  · exact (rearranges.handle name handle held).imp id And.right
  · exact Or.inr (Nat.lt_of_lt_of_le vacated (rearranges.generation handle.index))

/-- A member is never enrolled under a handle that was issued before. -/
theorem Enrols.not_issued
    {name other : MemberName}
    {handle : Handle}
    (enrols : Enrols name handle before after)
    (consistent : after.Consistent)
    (rearranges : Rearranges before after) :
    ¬before.Issued other handle := by
  have held : after.handle? name = some handle := by
    rw [enrols.handles, if_pos rfl]
  rintro (earlier | vacated)
  · -- Both members would have the handle afterwards, but it resolves to one row only.
    have different : other ≠ name := by
      rintro rfl
      rw [enrols.absent] at earlier
      cases earlier
    have still : after.handle? other = some handle := by
      rw [enrols.handles, if_neg different]
      exact earlier
    rcases consistent.resolve?_of_handle? held with ⟨row, resolves, named, -⟩
    rcases consistent.resolve?_of_handle? still with ⟨same, resolved, called, -⟩
    rw [resolves] at resolved
    cases resolved
    exact different (called.symm.trans named)
  · rw [← (consistent.handle?_eq_some.1 held).2] at vacated
    exact absurd (rearranges.generation handle.index) (Nat.not_le_of_lt vacated)

/-! ## Runs -/

/-- The table after the first operations of a run, as many as the time says. -/
def tableAt (table : Table) (operations : List Operation) (time : Nat) : Table :=
  table.performAll (operations.take time)

/-- A member gets a row at a time of a run, and the handle with it. -/
def IssuedAt
    (table : Table)
    (operations : List Operation)
    (time : Nat)
    (name : MemberName)
    (handle : Handle) :
    Prop :=
  (table.tableAt operations time).other? name = none ∧
    (table.tableAt operations (time + 1)).handle? name = some handle

/-- The operation at a time of a run drops a member. -/
def DroppedAt
    (table : Table)
    (operations : List Operation)
    (time : Nat)
    (name : MemberName) :
    Prop :=
  ∃ operation, operations[time]? = some operation ∧
    name ∈ (table.tableAt operations time).dropped operation

/-- What is handed out in the course of a run, and then what is left to be handed out. -/
def collected (table : Table) : List Operation → List Handle
  | [] => table.inserted
  | operation :: rest => table.taken operation ++ (table.perform operation).collected rest

variable {operations : List Operation} {name : MemberName} {handle : Handle}

theorem tableAt_succ
    {operation : Operation}
    {time : Nat}
    (table : Table)
    (performed : operations[time]? = some operation) :
    table.tableAt operations (time + 1) = (table.tableAt operations time).perform operation := by
  rw [tableAt, tableAt, List.take_add_one, performAll_append, performed]
  rfl

/-- From one time to the next there is one operation, or the run is over. -/
theorem tableAt_succ_cases (table : Table) (operations : List Operation) (time : Nat) :
    (∃ operation, operations[time]? = some operation ∧
      table.tableAt operations (time + 1) = (table.tableAt operations time).perform operation) ∨
    operations[time]? = none ∧
      table.tableAt operations (time + 1) = table.tableAt operations time := by
  cases performed : operations[time]? with
  | none =>
    right
    rw [tableAt, tableAt, List.take_add_one, performed]
    exact ⟨rfl, by rw [Option.toList_none, List.append_nil]⟩
  | some operation => exact Or.inl ⟨operation, rfl, table.tableAt_succ performed⟩

theorem Reachable.tableAt
    (reachable : table.Reachable)
    (operations : List Operation)
    (time : Nat) :
    (table.tableAt operations time).Reachable :=
  reachable.performAll _

/-- A property of tables that every operation keeps holds from some time of a run on. -/
theorem Reachable.tableAt_induction
    (reachable : table.Reachable)
    (property : Table → Prop)
    (kept : ∀ (table : Table) (operation : Operation), table.Reachable → property table →
      property (table.perform operation))
    {earlier later : Nat}
    (ordered : earlier ≤ later)
    (holds : property (table.tableAt operations earlier)) :
    property (table.tableAt operations later) := by
  induction ordered with
  | refl => exact holds
  | @step time _ step =>
    rcases table.tableAt_succ_cases operations time with ⟨operation, -, next⟩ | ⟨-, next⟩
    · rw [next]
      exact kept _ operation (reachable.tableAt operations time) step
    · rw [next]
      exact step

theorem Reachable.issued_later
    (reachable : table.Reachable)
    {earlier later : Nat}
    (ordered : earlier ≤ later)
    (issued : (table.tableAt operations earlier).Issued name handle) :
    (table.tableAt operations later).Issued name handle := by
  refine reachable.tableAt_induction (fun table => table.Issued name handle) ?_ ordered issued
  intro before operation reachable issued
  exact issued.perform reachable.sound operation

/-- A handle is issued where an operation enrols its member. -/
theorem Reachable.enrols_of_issuedAt
    (reachable : table.Reachable)
    {time : Nat}
    (issued : table.IssuedAt operations time name handle) :
    Enrols name handle (table.tableAt operations time) (table.tableAt operations (time + 1)) := by
  rcases issued with ⟨unknown, held⟩
  have now := reachable.tableAt operations time
  have absent := (now.sound.handle?_eq_none_iff name).2 unknown
  rcases table.tableAt_succ_cases operations time with ⟨operation, -, next⟩ | ⟨-, next⟩
  · rw [next] at held ⊢
    rcases now.timely.turnover operation with ⟨other, given, enrols, -, -⟩ | ⟨handles, -⟩
    · have same : name = other := by
        by_contra different
        rw [enrols.handles, if_neg different, absent] at held
        cases held
      subst same
      rw [enrols.handles, if_pos rfl] at held
      cases held
      exact enrols
    · rw [handles, absent, ite_self] at held
      cases held
  · rw [next, absent] at held
    cases held

/-- No member had a handle before it was issued. -/
theorem Reachable.fresh_of_issuedAt
    (reachable : table.Reachable)
    {time earlier : Nat}
    (issued : table.IssuedAt operations time name handle)
    (ordered : earlier ≤ time)
    (other : MemberName) :
    ¬(table.tableAt operations earlier).Issued other handle := by
  intro before
  have enrols := reachable.enrols_of_issuedAt issued
  have next := reachable.tableAt operations (time + 1)
  have rearranges :
      Rearranges (table.tableAt operations time) (table.tableAt operations (time + 1)) := by
    rcases table.tableAt_succ_cases operations time with ⟨operation, -, same⟩ | ⟨-, same⟩
    · rw [same]
      exact (reachable.tableAt operations time).sound.rearranges_perform operation
    · rw [same]
      exact .of_sameArena rfl rfl
  exact enrols.not_issued next.sound.toConsistent rearranges (reachable.issued_later ordered before)

/-- A member keeps its handle as long as it is not dropped. -/
theorem Reachable.held_of_not_dropped
    (reachable : table.Reachable)
    {earlier later : Nat}
    (ordered : earlier ≤ later)
    (held : (table.tableAt operations earlier).handle? name = some handle)
    (kept : ∀ time, earlier ≤ time → time < later → ¬table.DroppedAt operations time name) :
    (table.tableAt operations later).handle? name = some handle := by
  induction ordered with
  | refl => exact held
  | @step time since step =>
    have sofar := step fun moment after before => kept moment after (Nat.lt_succ_of_lt before)
    rcases table.tableAt_succ_cases operations time with ⟨operation, performed, next⟩ | ⟨-, next⟩
    · have stays : name ∉ (table.tableAt operations time).dropped operation :=
        fun drops => kept time since (Nat.lt_succ_self time) ⟨operation, performed, drops⟩
      rw [next]
      rcases (reachable.tableAt operations time).timely.turnover operation with
        ⟨other, given, enrols, -, -⟩ | ⟨handles, -⟩
      · have different : name ≠ other := by
          rintro rfl
          rw [enrols.absent] at sofar
          cases sofar
        rw [enrols.handles, if_neg different]
        exact sofar
      · rw [handles, if_neg stays]
        exact sofar
    · rw [next]
      exact sofar

/-- Once its member was dropped, a handle has expired. -/
theorem Reachable.expired_of_dropped
    (reachable : table.Reachable)
    {time later : Nat}
    (issued : (table.tableAt operations time).Issued name handle)
    (dropped : table.DroppedAt operations time name)
    (ordered : time < later) :
    (table.tableAt operations later).resolve? handle = none := by
  rcases dropped with ⟨operation, performed, drops⟩
  have now := reachable.tableAt operations time
  have vacated : handle.generation <
      (table.tableAt operations (time + 1)).generation handle.index := by
    rw [table.tableAt_succ performed]
    rcases issued.perform now.sound operation with held | vacated
    · rcases now.timely.turnover operation with ⟨_, _, _, nobody, -⟩ | ⟨handles, -⟩
      · rw [nobody] at drops
        cases drops
      · rw [handles, if_pos drops] at held
        cases held
    · exact vacated
  have still : handle.generation < (table.tableAt operations later).generation handle.index := by
    refine reachable.tableAt_induction
      (fun table => handle.generation < table.generation handle.index) ?_ ordered vacated
    intro before operation reachable vacated
    have rearranges := reachable.sound.rearranges_perform operation
    exact Nat.lt_of_lt_of_le vacated (rearranges.generation handle.index)
  exact resolve?_eq_none_of_vacated still

/-! ## The handles that are handed out -/

/-- What is noted after an operation was noted before, or is the handle of a new member. -/
theorem Timely.mem_noted_iff (timely : table.Timely) (operation : Operation) :
    handle ∈ table.taken operation ++ (table.perform operation).inserted ↔
      handle ∈ table.inserted ∨
        ∃ name, table.handle? name = none ∧
          (table.perform operation).handle? name = some handle := by
  rcases timely.turnover operation with ⟨other, given, enrols, -, untaken⟩ | ⟨handles, inserted⟩
  · rw [untaken, List.nil_append, enrols.inserted, List.mem_append, List.mem_singleton]
    refine or_congr Iff.rfl ⟨?_, ?_⟩
    · rintro rfl
      refine ⟨other, enrols.absent, ?_⟩
      rw [enrols.handles, if_pos rfl]
    · rintro ⟨name, absent, held⟩
      rw [enrols.handles] at held
      split at held
      · exact (Option.some.inj held).symm
      · rw [absent] at held
        cases held
  · have nobody : ¬∃ name, table.handle? name = none ∧
        (table.perform operation).handle? name = some handle := by
      rintro ⟨name, absent, held⟩
      rw [handles, absent, ite_self] at held
      cases held
    rw [inserted, or_iff_left nobody]

/-- In a run a handle is issued by the first operation or by a later one. -/
theorem Consistent.exists_issuedAt_cons_iff
    (consistent : table.Consistent)
    (operation : Operation)
    (rest : List Operation) :
    (∃ time name, table.IssuedAt (operation :: rest) time name handle) ↔
      (∃ name, table.handle? name = none ∧
        (table.perform operation).handle? name = some handle) ∨
      ∃ time name, (table.perform operation).IssuedAt rest time name handle := by
  constructor
  · rintro ⟨time, name, issued⟩
    cases time with
    | zero => exact Or.inl ⟨name, (consistent.handle?_eq_none_iff name).2 issued.1, issued.2⟩
    | succ time => exact Or.inr ⟨time, name, issued⟩
  · rintro (⟨name, absent, held⟩ | ⟨time, name, issued⟩)
    · exact ⟨0, name, (consistent.handle?_eq_none_iff name).1 absent, held⟩
    · exact ⟨time + 1, name, issued⟩

theorem Reachable.mem_collected_iff (reachable : table.Reachable) :
    handle ∈ table.collected operations ↔
      handle ∈ table.inserted ∨ ∃ time name, table.IssuedAt operations time name handle := by
  induction operations generalizing table with
  | nil =>
    have none : ¬∃ time name, table.IssuedAt [] time name handle := by
      rintro ⟨time, name, unknown, held⟩
      have same : table.tableAt [] (time + 1) = table.tableAt [] time := by simp [Table.tableAt]
      rw [same, (reachable.tableAt [] time).sound.handle?_eq_none_iff name |>.2 unknown] at held
      cases held
    rw [collected, or_iff_left none]
  | cons operation rest step =>
    rw [collected, List.mem_append, step (reachable.perform operation), ← or_assoc,
      ← List.mem_append, reachable.timely.mem_noted_iff, or_assoc,
      reachable.sound.exists_issuedAt_cons_iff]

/-- Where only issued handles were noted, each once, it is so after an operation. -/
theorem Reachable.nodup_noted
    (reachable : table.Reachable)
    (operation : Operation)
    (once : table.inserted.Nodup)
    (issued : ∀ handle ∈ table.inserted, ∃ name, table.Issued name handle) :
    (table.taken operation ++ (table.perform operation).inserted).Nodup ∧
      ∀ handle ∈ table.taken operation ++ (table.perform operation).inserted,
        ∃ name, (table.perform operation).Issued name handle := by
  have performed := reachable.perform operation
  have kept : ∀ handle ∈ table.inserted, ∃ name, (table.perform operation).Issued name handle := by
    intro handle noted
    rcases issued handle noted with ⟨name, before⟩
    exact ⟨name, before.perform reachable.sound operation⟩
  rcases reachable.timely.turnover operation with
    ⟨name, given, enrols, -, untaken⟩ | ⟨-, inserted⟩
  · have fresh : given ∉ table.inserted := by
      intro noted
      rcases issued given noted with ⟨other, before⟩
      have rearranges := reachable.sound.rearranges_perform operation
      exact enrols.not_issued performed.sound.toConsistent rearranges before
    rw [untaken, List.nil_append, enrols.inserted]
    refine ⟨List.nodup_append.2 ⟨once, List.pairwise_singleton _ _, ?_⟩, ?_⟩
    · rintro handle noted other single rfl
      rw [List.mem_singleton.1 single] at noted
      exact fresh noted
    · intro handle noted
      rcases List.mem_append.1 noted with before | single
      · exact kept handle before
      · rw [List.mem_singleton.1 single]
        refine ⟨name, Or.inl ?_⟩
        rw [enrols.handles, if_pos rfl]
  · rw [inserted]
    exact ⟨once, kept⟩

theorem Reachable.nodup_collected
    (reachable : table.Reachable)
    (once : table.inserted.Nodup)
    (issued : ∀ handle ∈ table.inserted, ∃ name, table.Issued name handle) :
    (table.collected operations).Nodup := by
  induction operations generalizing table with
  | nil => exact once
  | cons operation rest step =>
    have performed := reachable.perform operation
    rcases reachable.nodup_noted operation once issued with ⟨whole, noted⟩
    rcases List.nodup_append.1 whole with ⟨takenOnce, insertedOnce, apart⟩
    have later := step performed insertedOnce fun handle insertedHandle =>
      noted handle (List.mem_append_right _ insertedHandle)
    refine List.nodup_append.2 ⟨takenOnce, later, ?_⟩
    -- What was handed out is not handed out again: it is noted no more, and never issued again.
    rintro handle handed other collected rfl
    rcases performed.mem_collected_iff.1 collected with left | ⟨time, name, issuedAt⟩
    · exact apart handle handed handle left rfl
    · rcases noted handle (List.mem_append_left _ handed) with ⟨holder, before⟩
      exact performed.fresh_of_issuedAt issuedAt (Nat.zero_le time) holder before

/-! ## Whole runs -/

/-- An insertion answers with the handle that the member has afterwards. -/
theorem Consistent.answer_insert
    (consistent : table.Consistent)
    (name : MemberName)
    (now : Instant) :
    (table.insert name now).1 = (table.insert name now).2.handle? name := by
  by_cases own : name = table.own.name
  · subst own
    rw [insert_own]
    exact ((consistent.handle?_eq_none_iff table.own.name).2 consistent.other?_own).symm
  · cases held : table.handle? name with
    | some handle => simp [Table.insert, isOwn, own, held]
    | none =>
      have foreign : (Member.unobserved name now).name ≠ table.own.name := own
      have unknown := (consistent.handle?_eq_none_iff name).1 held
      have placed := consistent.handle?_place foreign unknown name
      rw [Member.unobserved, if_pos rfl] at placed
      simp [Table.insert, isOwn, own, held, Member.unobserved, placed]

/-- A node that starts with seeds inserts them one after the other. -/
theorem start_eq_performAll
    (name : MemberName)
    (metadata : Bytes)
    (seeds : List MemberName)
    (now : Instant) :
    start name metadata seeds now =
      (start name metadata [] now).performAll (seeds.map fun seed => .insert seed now) := by
  have inserts : ∀ table : Table, table.own.name = name →
      (seeds.filter (· ≠ name)).foldl (fun table seed => (table.insert seed now).2) table =
        table.performAll (seeds.map fun seed => .insert seed now) := by
    induction seeds with
    | nil => intro table _; rfl
    | cons seed seeds step =>
      intro table named
      have kept : (table.insert seed now).2.own.name = name := by
        rw [(sameOutsideArena_insert table seed now).own]
        exact named
      rw [List.map_cons, performAll_cons, Table.perform, ← step _ kept]
      by_cases own : seed = name
      · have same : (table.insert seed now).2 = table := by
          rw [own, ← named, insert_own]
        rw [same, List.filter_cons_of_neg (by simpa using own)]
      · rw [List.filter_cons_of_pos (by simpa using own), List.foldl_cons]
  exact inserts _ (congrArg Member.name (own_start name metadata [] now))

/--
Handles are never confused.  In a run, whose first operations insert the seeds, every member
that gets a row gets a handle, which no member had at any time before, and which is noted as
inserted at that time.  The handle resolves to a row of the member as long as the member is not
dropped, and once the member was dropped it never resolves again.

Whoever collects what is noted as inserted receives every handle that was issued, each once and
nothing else; and an insertion answers with the handle of the member.
-/
theorem handles_are_never_confused
    (name : MemberName)
    (metadata : Bytes)
    (seeds : List MemberName)
    (startedAt : Instant)
    (operations : List Operation) :
    let founded := start name metadata [] startedAt
    let run := (seeds.map fun seed => Operation.insert seed startedAt) ++ operations
    founded.performAll run = (start name metadata seeds startedAt).performAll operations ∧
    (∀ time member, (founded.tableAt run time).other? member = none →
      (founded.tableAt run (time + 1)).other? member ≠ none →
      ∃ handle, founded.IssuedAt run time member handle) ∧
    (∀ time member handle, founded.IssuedAt run time member handle →
      (∀ earlier other, earlier ≤ time →
        (founded.tableAt run earlier).handle? other ≠ some handle) ∧
      (founded.tableAt run (time + 1)).inserted =
        (founded.tableAt run time).inserted ++ [handle] ∧
      (∀ later, time < later →
        (∀ between, time < between → between < later → ¬founded.DroppedAt run between member) →
        ∃ row, (founded.tableAt run later).resolve? handle = some row ∧ row.name = member) ∧
      ∀ drop later, time < drop → drop < later → founded.DroppedAt run drop member →
        (founded.tableAt run later).resolve? handle = none) ∧
    (founded.collected run).Nodup ∧
    (∀ handle, handle ∈ founded.collected run ↔
      ∃ time member, founded.IssuedAt run time member handle) ∧
    ∀ time member now, ((founded.tableAt run time).insert member now).1 =
      ((founded.tableAt run time).insert member now).2.handle? member := by
  intro founded run
  have reachable : founded.Reachable := reachable_start name metadata [] startedAt
  have consistent : ∀ time, (founded.tableAt run time).Consistent :=
    fun time => (reachable.tableAt run time).sound.toConsistent
  refine ⟨?whole, ?every, ?one, ?once, fun handle => ?collected,
    fun time member now => (consistent time).answer_insert member now⟩
  case whole =>
    rw [performAll_append, ← start_eq_performAll]
  case every =>
    intro time member unknown known
    rw [ne_eq, ← (consistent (time + 1)).handle?_eq_none_iff] at known
    rcases Option.ne_none_iff_exists'.1 known with ⟨handle, held⟩
    exact ⟨handle, unknown, held⟩
  case one =>
    intro time member handle issued
    have enrols := reachable.enrols_of_issuedAt issued
    refine ⟨?_, enrols.inserted, ?_, ?_⟩
    · intro earlier other ordered held
      exact reachable.fresh_of_issuedAt issued ordered other (Or.inl held)
    · intro later after kept
      have held := reachable.held_of_not_dropped after issued.2 kept
      rcases (consistent later).resolve?_of_handle? held with ⟨row, resolves, named, -⟩
      exact ⟨row, resolves, named⟩
    · intro drop later after before dropped
      exact reachable.expired_of_dropped (reachable.issued_later after (Or.inl issued.2)) dropped
        before
  case once =>
    exact reachable.nodup_collected List.nodup_nil fun handle noted => nomatch noted
  case collected =>
    rw [reachable.mem_collected_iff]
    exact or_iff_right List.not_mem_nil

/--
A member is inserted, heard of as offline, dropped by a sweep, and inserted again: it gets
another handle, and the first one resolves until the sweep and not after it.
-/
theorem handles_are_never_confused_reinsertion :
    let name : MemberName := { text := "10.0.0.1:7946" }
    let peer : MemberName := { text := "10.0.0.2:7946" }
    let timeouts : Timeouts := { suspect := 3, unavailable := 3, retention := 3 }
    let founded := start name [] [] 0
    let run : List Operation :=
      [.insert peer 0, .apply 0 peer .offline 5 none, .expire 9 9 timeouts, .insert peer 10]
    ∃ first second, founded.IssuedAt run 0 peer first ∧ founded.IssuedAt run 3 peer second ∧
      second ≠ first ∧
      (∃ row, (founded.tableAt run 2).resolve? first = some row ∧ row.name = peer) ∧
      (founded.tableAt run 4).resolve? first = none := by
  intro name peer timeouts founded run
  have reachable : founded.Reachable := reachable_start name [] [] 0
  have sound : ∀ time, (founded.tableAt run time).Sound :=
    fun time => (reachable.tableAt run time).sound
  have foreign : ∀ time, peer ≠ (founded.tableAt run time).own.name := by
    intro time
    have named : (founded.tableAt run time).own.name = founded.own.name :=
      reachable.sound.name_performAll (run.take time)
    rw [named, own_start]
    decide
  have unknown : founded.other? peer = none := by
    simp [founded, start, other?]
  have inserted : (founded.tableAt run 1).other? peer = some (Member.unobserved peer 0) := by
    have known := reachable.sound.other?_insert 0 (foreign 0) peer
    rw [if_pos rfl, unknown] at known
    exact known
  -- The row is offline since instant 0 when the sweep looks at it.
  have heard : (founded.tableAt run 2).other? peer =
      some ((Member.unobserved peer 0).accept .offline 5 0) := by
    have updated := (sound 1).other?_update .strict 0 .offline 5 none (foreign 1) peer
    rw [if_pos rfl, rowFor, inserted] at updated
    exact updated
  have due : peer ∈ (founded.tableAt run 2).duePrunes timeouts 9 := by
    rcases (sound 2).other?_eq_some_iff.1 heard with ⟨member, named⟩
    exact mem_duePrunes_iff.2 ⟨_, member, named, rfl⟩
  have dropped : founded.DroppedAt run 2 peer := ⟨.expire 9 9 timeouts, rfl, due⟩
  have gone : (founded.tableAt run 3).other? peer = none := by
    have advanced := (reachable.tableAt run 2).timely.advanceAll 9
      ((founded.tableAt run 2).dueAdvances timeouts 9)
    have others := (advanced.toConsistent.pruneAll
      ((founded.tableAt run 2).duePrunes timeouts 9)).2 peer
    rw [if_pos due] at others
    exact others
  have again : (founded.tableAt run 4).other? peer ≠ none := by
    have known := (sound 3).other?_insert 10 (foreign 3) peer
    rw [if_pos rfl] at known
    intro absent
    have same : ((founded.tableAt run 3).insert peer 10).2.other? peer = none := absent
    rw [known] at same
    cases same
  have present : (founded.tableAt run 1).other? peer ≠ none := by
    rw [inserted]
    exact Option.some_ne_none _
  rcases handles_are_never_confused name [] [] 0 run with ⟨-, issues, holds, -⟩
  rcases issues 0 peer unknown present with ⟨first, firstIssued⟩
  rcases issues 3 peer gone again with ⟨second, secondIssued⟩
  rcases holds 0 peer first firstIssued with ⟨-, -, resolves, expires⟩
  refine ⟨first, second, firstIssued, secondIssued, ?_, ?_, ?_⟩
  · rintro rfl
    exact (holds 3 peer second secondIssued).1 1 peer (by decide) firstIssued.2
  · refine resolves 2 (by decide) fun between after before drops => ?_
    obtain rfl : between = 1 := by omega
    rcases drops with ⟨operation, performed, listed⟩
    cases performed
    cases listed
  · exact expires 2 4 (by decide) (by decide) dropped

end Table

end ClusterMembership
