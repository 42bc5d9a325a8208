import ClusterMembership.Proofs.Notice.Subscription
import ClusterMembership.Proofs.Table.Handles
import ClusterMembership.Proofs.Table.Progress

/-!
# Notifications tell the table

A subscriber sees two things of a member, its status and the payload of its metadata, and a
member that is not in the table looks like one that is offline without metadata, `Table.sight`.
Whoever has a snapshot of the table can overwrite it with the notifications as they come,
`View.hearAll`.

An operation tells a change of what is seen of a member once, and nothing else, `Table.Tells`.
The exception is a sweep that drops a member: it is silent, and the metadata that a subscriber
remembers of the member are outdated from then on.  The member was offline before, so the
status that is remembered is right even so.
-/

namespace ClusterMembership

/-! ## What is seen of a member -/

/-- What a subscriber sees of a member. -/
structure Sight where
  status : Status
  payload : Option Bytes
  deriving DecidableEq, Inhabited, Repr

/-- What is seen of a member that is not in the table. -/
def Sight.nothing : Sight where
  status := .offline
  payload := none

def Member.sight (member : Member) : Sight where
  status := member.status
  payload := member.metadata.payload

def MemberChange.sight (change : MemberChange) : Sight where
  status := change.status
  payload := change.metadata.payload

/-- A claim about the node itself changes nothing that is seen of it. -/
theorem Member.sight_answering (member : Member) (logical : Nat) (status : Status) (clock : Nat) :
    (member.answering logical status clock).sight = member.sight := by
  rw [answering]
  split <;> rfl

theorem Member.metadata_accept (member : Member) (status : Status) (clock : Nat) (now : Instant) :
    (member.accept status clock now).metadata = member.metadata := by
  rw [accept]
  split <;> rfl

theorem Member.status_mergeMetadata? (member : Member) (metadata : Option Metadata) :
    (member.mergeMetadata? metadata).status = member.status := by
  unfold mergeMetadata? mergeMetadata
  split
  · split <;> rfl
  · rfl

/-- The notifications about one member. -/
def about (name : MemberName) (told : List MemberChange) : List MemberChange :=
  told.filter (fun change => change.name = name)

@[simp]
theorem about_nil (name : MemberName) : about name [] = [] :=
  rfl

@[simp]
theorem about_append (name : MemberName) (first second : List MemberChange) :
    about name (first ++ second) = about name first ++ about name second :=
  List.filter_append ..

/-- What a subscriber remembers of every member. -/
def View : Type :=
  MemberName → Sight

namespace View

/-- A view that is overwritten with a notification. -/
def hear (view : View) (change : MemberChange) : View :=
  fun name => if change.name = name then change.sight else view name

/-- A view that is overwritten with notifications, one after the other. -/
def hearAll (view : View) (told : List MemberChange) : View :=
  told.foldl hear view

theorem hearAll_append (view : View) (first second : List MemberChange) :
    view.hearAll (first ++ second) = (view.hearAll first).hearAll second :=
  List.foldl_append

/-- The last notification about a member is what is remembered of it. -/
theorem hearAll_eq (view : View) (told : List MemberChange) (name : MemberName) :
    view.hearAll told name = ((about name told).map MemberChange.sight).getLastD (view name) := by
  induction told generalizing view with
  | nil => rfl
  | cons change rest step =>
    have first : view.hearAll (change :: rest) name = (view.hear change).hearAll rest name := rfl
    rw [first, step, about, about]
    by_cases same : change.name = name
    · rw [List.filter_cons_of_pos (by simpa using same), List.map_cons, List.getLastD_cons, hear,
        if_pos same]
    · rw [List.filter_cons_of_neg (by simpa using same), hear, if_neg same]

end View

namespace Table

variable {table before middle after : Table} {name : MemberName} {told : List MemberChange}

/-- What is seen of a member in a table. -/
def sight (table : Table) (name : MemberName) : Sight :=
  ((table.find? name).map Member.sight).getD .nothing

theorem sight_of_find? {row : Member} (found : table.find? name = some row) :
    table.sight name = row.sight := by
  rw [sight, found]
  rfl

@[simp]
theorem find?_own (table : Table) : table.find? table.own.name = some table.own := by
  simp [find?, isOwn]

theorem sight_of_foreign (foreign : name ≠ table.own.name) :
    table.sight name = ((table.other? name).map Member.sight).getD .nothing := by
  rw [sight, find?_of_foreign foreign]

/-- What an update about another member works on is what is seen of the member. -/
theorem sight_rowFor (foreign : name ≠ table.own.name) (now : Instant) :
    (table.rowFor name now).sight = table.sight name := by
  rw [sight_of_foreign foreign, rowFor]
  cases table.other? name <;> rfl

theorem sight_congr
    (own : after.own.name = before.own.name)
    (seen : after.own.sight = before.own.sight)
    (others : after.other? name = before.other? name) :
    after.sight name = before.sight name := by
  by_cases itself : name = before.own.name
  · subst itself
    have ownAfter := sight_of_find? (find?_own after)
    rw [own] at ownAfter
    rw [ownAfter, seen, sight_of_find? (find?_own before)]
  · have foreign : name ≠ after.own.name := by
      rw [own]
      exact itself
    rw [sight_of_foreign foreign, sight_of_foreign itself, others]

theorem find?_congr
    (own : after.own = before.own)
    (others : after.other? name = before.other? name) :
    after.find? name = before.find? name := by
  rw [find?, find?, isOwn, isOwn, own, others]

/-! ## What an operation tells -/

/-- What subscribers are told by an operation. -/
def changes (table : Table) : Operation → List MemberChange
  | .apply now name status clock metadata => (table.apply now name status clock metadata).changes
  | .merge now source entry => (table.merge now source entry).changes
  | .expire wall asOf timeouts => (table.expire wall asOf timeouts).changes
  | .setMetadata payload => (table.setMetadata payload).changes
  | .leave now => (table.leave now).changes
  | .observe _ | .tick | .recordAcks .. | .insert .. | .takeInserted => []

/-- What subscribers are told by a number of operations, one after the other. -/
def changesAll (table : Table) : List Operation → List MemberChange
  | [] => []
  | operation :: rest => table.changes operation ++ (table.perform operation).changesAll rest

/-- What is told about a member is that something else is seen of it than before, if so. -/
inductive Tells
    (before after : Table)
    (name : MemberName)
    (told : List MemberChange) :
    Prop where
  | silent (nothing : about name told = []) (same : after.sight name = before.sight name)
  | once
      (row : Member)
      (found : after.find? name = some row)
      (differs : row.sight ≠ before.sight name)
      (notice : about name told = [row.change])

/-- Nothing is told about a member, and its row is the same. -/
structure Spares (before after : Table) (name : MemberName) (told : List MemberChange) : Prop where
  nothing : about name told = []
  same : after.find? name = before.find? name

namespace Spares

theorem sight (spares : Spares before after name told) : after.sight name = before.sight name := by
  rw [Table.sight, Table.sight, spares.same]

theorem trans
    {later : List MemberChange}
    (first : Spares before middle name told)
    (second : Spares middle after name later) :
    Spares before after name (told ++ later) :=
  ⟨by rw [about_append, first.nothing, second.nothing, List.append_nil],
    second.same.trans first.same⟩

end Spares

namespace Tells

theorem after_spares
    {later : List MemberChange}
    (tells : Tells middle after name later)
    (spares : Spares before middle name told) :
    Tells before after name (told ++ later) := by
  cases tells with
  | silent nothing kept =>
    refine .silent ?_ (kept.trans spares.sight)
    rw [about_append, spares.nothing, nothing, List.append_nil]
  | once row found differs notice =>
    refine .once row found (spares.sight ▸ differs) ?_
    rw [about_append, spares.nothing, notice, List.nil_append]

theorem before_spares
    {later : List MemberChange}
    (tells : Tells before middle name told)
    (spares : Spares middle after name later) :
    Tells before after name (told ++ later) := by
  cases tells with
  | silent nothing kept =>
    refine .silent ?_ (spares.sight.trans kept)
    rw [about_append, spares.nothing, nothing, List.append_nil]
  | once row found differs notice =>
    refine .once row (spares.same.trans found) differs ?_
    rw [about_append, spares.nothing, notice, List.append_nil]

/-- Where one member gets a row that looks different, the change of the row is to be told. -/
theorem of_row
    (row : Member)
    (found : after.find? row.name = some row)
    (tells : told = if row.sight = before.sight row.name then [] else [row.change])
    (others : ∀ queried : MemberName, queried ≠ row.name →
      after.sight queried = before.sight queried)
    (queried : MemberName) :
    Tells before after queried told := by
  by_cases same : queried = row.name
  · subst same
    by_cases unseen : row.sight = before.sight row.name
    · rw [if_pos unseen] at tells
      subst tells
      exact .silent rfl ((sight_of_find? found).trans unseen)
    · rw [if_neg unseen] at tells
      subst tells
      refine .once row found unseen ?_
      simp [about, Member.change]
  · refine .silent ?_ (others queried same)
    subst tells
    split
    · rfl
    · simp [about, Member.change, Ne.symm same]

/-- A subscriber is told what is seen of a member now, or it is the same as before. -/
theorem hearAll_cases (tells : Tells before after name told) (view : View) :
    view.hearAll told name = after.sight name ∨
      view.hearAll told name = view name ∧ after.sight name = before.sight name := by
  rw [View.hearAll_eq]
  cases tells with
  | silent nothing same =>
    rw [nothing]
    exact Or.inr ⟨rfl, same⟩
  | once row found differs notice =>
    rw [notice, sight_of_find? found]
    exact Or.inl rfl

/-- A subscriber who knew what was seen of a member knows it again. -/
theorem sight_hearAll
    (tells : Tells before after name told)
    {view : View}
    (known : view name = before.sight name) :
    view.hearAll told name = after.sight name := by
  rcases tells.hearAll_cases view with heard | ⟨kept, same⟩
  · exact heard
  · rw [kept, same]
    exact known

/-- A subscriber who knew the status of a member knows it again. -/
theorem status_hearAll
    (tells : Tells before after name told)
    {view : View}
    (known : (view name).status = (before.sight name).status) :
    (view.hearAll told name).status = (after.sight name).status := by
  rcases tells.hearAll_cases view with heard | ⟨kept, same⟩
  · rw [heard]
  · rw [kept, same]
    exact known

end Tells

/-! ## What each operation tells -/

section Step

theorem Consistent.changes_update_other
    (consistent : table.Consistent)
    (policy : Policy)
    (now : Instant)
    (status : Status)
    (clock : Nat)
    (metadata : Option Metadata)
    (foreign : name ≠ table.own.name) :
    (table.update policy now name status clock metadata).changes =
      if ((table.rowFor name now).updated policy now status clock metadata).sight =
          (table.rowFor name now).sight then
        []
      else
        [((table.rowFor name now).updated policy now status clock metadata).change] := by
  rw [consistent.update_eq_of_foreign policy now status clock metadata foreign]
  by_cases rejected : policy.rejects (table.rowFor name now) status clock
  · simp [rejected, Member.updated]
  · simp only [rejected, Bool.false_eq_true, if_false, Member.updated, Member.sight, Sight.mk.injEq,
      Member.status_mergeMetadata?, Member.metadata_accept]
    split
    · rename_i changed
      rw [if_neg (by tauto)]
    · rename_i unchanged
      rw [if_pos (by tauto)]

/-- An update about another member says nothing of anybody else. -/
theorem Consistent.spares_update
    (consistent : table.Consistent)
    (policy : Policy)
    (now : Instant)
    (status : Status)
    (clock : Nat)
    (metadata : Option Metadata)
    {queried : MemberName}
    (foreign : name ≠ table.own.name)
    (different : queried ≠ name) :
    Spares table (table.update policy now name status clock metadata).table queried
      (table.update policy now name status clock metadata).changes := by
  have updated := consistent.other?_update policy now status clock metadata foreign queried
  have outside := consistent.sameOutsideArena_update policy now status clock metadata foreign
  rw [if_neg different] at updated
  refine ⟨?_, find?_congr outside.own updated⟩
  rw [consistent.changes_update_other policy now status clock metadata foreign]
  split
  · rfl
  · simp [about, Member.change, consistent.name_rowFor, different.symm]

/-- Every update tells the change of the row that it is about. -/
theorem Consistent.tells_update
    (consistent : table.Consistent)
    (policy : Policy)
    (now : Instant)
    (name : MemberName)
    (status : Status)
    (clock : Nat)
    (metadata : Option Metadata)
    (queried : MemberName) :
    Tells table (table.update policy now name status clock metadata).table queried
      (table.update policy now name status clock metadata).changes := by
  by_cases own : name = table.own.name
  · subst own
    have arena := @arena_update_own table policy now status clock metadata
    have row := @own_update_own table policy now status clock metadata
    refine .silent ?_ (sight_congr ?_ ?_ (congrFun (other?_congr arena.1 arena.2.1) queried))
    · rw [update_own, about_nil]
    · rw [row, Member.name_answering]
    · rw [row, Member.sight_answering]
  · have named :
        ((table.rowFor name now).updated policy now status clock metadata).name = name := by
      rw [Member.name_updated, consistent.name_rowFor]
    refine .of_row ((table.rowFor name now).updated policy now status clock metadata)
      ?_ ?_ (fun other different => ?_) queried
    · have outside := consistent.sameOutsideArena_update policy now status clock metadata own
      rw [named, find?_of_foreign (outside.own ▸ own),
        consistent.other?_update policy now status clock metadata own, if_pos rfl]
    · rw [named, consistent.changes_update_other policy now status clock metadata own,
        sight_rowFor own]
    · rw [named] at different
      exact (consistent.spares_update policy now status clock metadata own different).sight

/-- What a node tells of itself is the change of its own row. -/
theorem Tells.of_own
    (named : after.own.name = before.own.name)
    (arena : after.slots = before.slots ∧ after.index = before.index)
    (tells : told = if after.own.sight = before.own.sight then [] else [after.own.change])
    (queried : MemberName) :
    Tells before after queried told := by
  refine .of_row after.own (find?_own after) ?_ (fun other different => ?_) queried
  · rw [named, sight_of_find? (find?_own before)]
    exact tells
  · have foreign : other ≠ before.own.name := by
      rw [← named]
      exact different
    rw [sight_of_foreign different, sight_of_foreign foreign, other?_congr arena.1 arena.2]

theorem Sound.tells_setMetadata (sound : table.Sound) (payload : Bytes) (queried : MemberName) :
    Tells table (table.setMetadata payload).table queried (table.setMetadata payload).changes := by
  have own := sound.own_setMetadata payload
  have changes : (table.setMetadata payload).changes =
      if (table.setMetadata payload).table.own.metadata.payload ≠ table.own.metadata.payload then
        [(table.setMetadata payload).table.own.change]
      else
        [] := rfl
  have arena : (table.setMetadata payload).table.slots = table.slots ∧
      (table.setMetadata payload).table.index = table.index := ⟨rfl, rfl⟩
  refine .of_own ?_ arena ?_ queried
  · rw [own]
  · rw [changes, own, ite_not]
    simp only [Member.sight, Sight.mk.injEq, true_and]

/-- A node that leaves was online until then. -/
theorem tells_leave (announced : table.Announced) (now : Instant) (queried : MemberName) :
    Tells table (table.leave now).table queried (table.leave now).changes := by
  cases stopped : table.stopped with
  | true =>
    have same : table.leave now = { answer := table.own.entry, table, changes := [] } := by
      rw [Table.leave, if_pos stopped]
    rw [same]
    exact .silent rfl rfl
  | false =>
    have own := own_leave stopped now
    have changes : (table.leave now).changes = [(table.leave now).table.own.change] := by
      simp [Table.leave, stopped]
    rw [Announced, stopped] at announced
    refine .of_own ?_ (arena_leave table now) ?_ queried
    · rw [own]
    · have differs : (table.leave now).table.own.sight ≠ table.own.sight := by
        rw [own, Member.sight, Member.sight, ne_eq, Sight.mk.injEq, announced]
        rintro ⟨⟨⟩, -⟩
      rw [changes, if_neg differs]

/-- A row without news of the member looks like none. -/
theorem Consistent.sight_insert
    (consistent : table.Consistent)
    (name : MemberName)
    (now : Instant)
    (queried : MemberName) :
    (table.insert name now).2.sight queried = table.sight queried := by
  by_cases own : name = table.own.name
  · rw [own, insert_own]
  · have outside := sameOutsideArena_insert table name now
    by_cases same : queried = name
    · subst same
      have foreign : queried ≠ (table.insert queried now).2.own.name := by
        rw [outside.own]
        exact own
      rw [sight_of_foreign foreign, consistent.other?_insert_self now own, ← sight_rowFor own now]
      rfl
    · refine sight_congr (congrArg Member.name outside.own) (congrArg Member.sight outside.own) ?_
      rw [consistent.other?_insert now own, if_neg same]

/-- A sweep says nothing of members that do not move. -/
theorem Timely.spares_advanceAll
    (timely : table.Timely)
    (wall : Instant)
    {steps : List (MemberName × Status)}
    (feasible : table.Feasible steps)
    (elsewhere : name ∉ steps.map Prod.fst) :
    Spares table (table.advanceAll wall steps).table name
      (table.advanceAll wall steps).changes := by
  induction steps generalizing table with
  | nil => exact ⟨rfl, rfl⟩
  | cons first rest step =>
    rw [List.map_cons, List.mem_cons, not_or] at elsewhere
    rcases feasible.permitted _ List.mem_cons_self with ⟨row, known, -⟩
    have foreign : first.1 ≠ table.tick.own.name := timely.foreign_of_other? known
    have ticked : Spares table table.tick name [] := ⟨rfl, find?_congr rfl rfl⟩
    have moved := timely.tick.update .strict wall first.1 first.2 table.tick.clock none
    have spared := timely.tick.spares_update .strict wall first.2 table.tick.clock none foreign
      elsewhere.1
    exact (ticked.trans spared).trans (step moved (feasible.tail timely) elsewhere.2)

/-- Every move of a sweep is told, once. -/
theorem Timely.tells_advanceAll
    (timely : table.Timely)
    (wall : Instant)
    {steps : List (MemberName × Status)}
    (feasible : table.Feasible steps)
    (queried : MemberName) :
    Tells table (table.advanceAll wall steps).table queried
      (table.advanceAll wall steps).changes := by
  induction steps generalizing table with
  | nil => exact .silent rfl rfl
  | cons first rest step =>
    rcases feasible.permitted _ List.mem_cons_self with ⟨row, known, -⟩
    have foreign : first.1 ≠ table.tick.own.name := timely.foreign_of_other? known
    have ticked : Spares table table.tick queried [] := ⟨rfl, find?_congr rfl rfl⟩
    have moved := timely.tick.update .strict wall first.1 first.2 table.tick.clock none
    by_cases same : queried = first.1
    · -- The member moves now, and no later move is about it.
      subst same
      have told := timely.tick.tells_update .strict wall first.1 first.2 table.tick.clock none
        first.1
      exact (told.after_spares ticked).before_spares
        (moved.spares_advanceAll wall (feasible.tail timely) (List.nodup_cons.1 feasible.once).1)
    · have spared := timely.tick.spares_update .strict wall first.2 table.tick.clock none foreign
        same
      exact (step moved (feasible.tail timely)).after_spares (ticked.trans spared)

/-- Dropping members concerns nobody else. -/
theorem Consistent.spares_pruneAll
    (consistent : table.Consistent)
    {names : List MemberName}
    (kept : name ∉ names) :
    Spares table (names.foldl Table.prune table) name [] := by
  refine ⟨rfl, find?_congr (sameSelf_pruneAll table names).own ?_⟩
  rw [(consistent.pruneAll names).2, if_neg kept]

theorem Timely.tells_expire
    (timely : table.Timely)
    (wall : Instant)
    {asOf : Instant}
    {timeouts : Timeouts}
    (kept : name ∉ table.duePrunes timeouts asOf) :
    Tells table (table.expire wall asOf timeouts).table name
      (table.expire wall asOf timeouts).changes := by
  have feasible := timely.feasible_dueAdvances timeouts asOf
  have advanced := timely.advanceAll wall (table.dueAdvances timeouts asOf)
  have told := (timely.tells_advanceAll wall feasible name).before_spares
    (advanced.spares_pruneAll kept)
  rw [List.append_nil] at told
  exact told

/-- A member that is due to be dropped is offline. -/
theorem Consistent.status_of_mem_duePrunes
    (consistent : table.Consistent)
    {timeouts : Timeouts}
    {asOf : Instant}
    (due : name ∈ table.duePrunes timeouts asOf) :
    ∃ row, table.other? name = some row ∧ row.status = .offline := by
  rcases mem_duePrunes_iff.1 due with ⟨row, member, named, drops⟩
  exact ⟨row, consistent.other?_eq_some_iff.2 ⟨member, named⟩,
    (Timeouts.step_eq_prune_iff.1 drops).current⟩

/-- A member is dropped silently, and it was offline before. -/
structure Drops (before after : Table) (name : MemberName) (told : List MemberChange) : Prop where
  nothing : about name told = []
  offline : (before.sight name).status = .offline
  gone : after.sight name = .nothing

theorem Timely.drops_expire
    (timely : table.Timely)
    (wall : Instant)
    {asOf : Instant}
    {timeouts : Timeouts}
    (due : name ∈ table.duePrunes timeouts asOf) :
    Drops table (table.expire wall asOf timeouts).table name
      (table.expire wall asOf timeouts).changes := by
  have feasible := timely.feasible_dueAdvances timeouts asOf
  have stays : name ∉ (table.dueAdvances timeouts asOf).map Prod.fst := by
    intro moves
    rcases List.mem_map.1 moves with ⟨⟨other, status⟩, advances, rfl⟩
    exact timely.not_pruned_of_advanced advances due
  rcases timely.status_of_mem_duePrunes due with ⟨row, known, offline⟩
  have foreign := timely.foreign_of_other? known
  refine ⟨(timely.spares_advanceAll wall feasible stays).nothing, ?_, ?_⟩
  · rw [sight_of_find? ((find?_of_foreign foreign).trans known)]
    exact offline
  · have own : (table.expire wall asOf timeouts).table.own = table.own :=
      timely.own_expire wall asOf timeouts
    rw [sight_of_foreign (own ▸ foreign), timely.other?_expire_eq, if_pos due]
    rfl

/-- What is told of a member that an operation does not drop. -/
theorem Reachable.tells
    (reachable : table.Reachable)
    (operation : Operation)
    (kept : name ∉ table.dropped operation) :
    Tells table (table.perform operation) name (table.changes operation) := by
  have timely := reachable.timely
  cases operation with
  | apply now other status clock metadata =>
    exact timely.tells_update .strict now other status clock metadata name
  | merge now source entry =>
    have recorded := timely.recordAck source entry.name entry.clock
    have noted : Spares table (table.recordAck source entry.name entry.clock) name [] :=
      ⟨rfl, find?_congr rfl (congrFun (other?_congr rfl rfl) name)⟩
    exact (recorded.tells_update .lenient now entry.name entry.status entry.clock entry.metadata
      name).after_spares noted
  | observe clock => exact .silent rfl rfl
  | tick => exact .silent rfl rfl
  | recordAcks peer acks =>
    rcases recordAcks_eq table peer acks with ⟨recorded, same⟩
    rw [Table.perform, same]
    exact .silent rfl rfl
  | expire wall asOf timeouts => exact timely.tells_expire wall kept
  | setMetadata payload => exact timely.tells_setMetadata payload name
  | leave now => exact tells_leave reachable.announced now name
  | insert other now => exact .silent rfl (timely.sight_insert other now name)
  | takeInserted => exact .silent rfl rfl

/-- What is told of a member that an operation drops. -/
theorem Reachable.drops
    (reachable : table.Reachable)
    {operation : Operation}
    (dropped : name ∈ table.dropped operation) :
    Drops table (table.perform operation) name (table.changes operation) := by
  cases operation with
  | expire wall asOf timeouts => exact reachable.timely.drops_expire wall dropped
  | apply | merge | observe | tick | recordAcks | setMetadata | leave | insert | takeInserted =>
    cases dropped

end Step

/-! ## What a run tells -/

section Run

variable {operations : List Operation} {view : View}

/-- No operation of a run drops a member. -/
def Keeps (table : Table) (operations : List Operation) (name : MemberName) : Prop :=
  ∀ time, ¬table.DroppedAt operations time name

theorem Keeps.first {operation : Operation} (keeps : table.Keeps (operation :: operations) name) :
    name ∉ table.dropped operation :=
  fun dropped => keeps 0 ⟨operation, rfl, dropped⟩

theorem Keeps.rest {operation : Operation} (keeps : table.Keeps (operation :: operations) name) :
    (table.perform operation).Keeps operations name :=
  fun time dropped => keeps (time + 1) dropped

/-- A subscriber who knows all statuses knows them after one operation. -/
theorem Reachable.status_hearAll_changes
    (reachable : table.Reachable)
    (operation : Operation)
    (known : (view name).status = (table.sight name).status) :
    (view.hearAll (table.changes operation) name).status =
      ((table.perform operation).sight name).status := by
  by_cases dropped : name ∈ table.dropped operation
  · have drops := reachable.drops dropped
    rw [View.hearAll_eq, drops.nothing, drops.gone]
    exact known.trans drops.offline
  · exact (reachable.tells operation dropped).status_hearAll known

theorem Reachable.status_hearAll
    (reachable : table.Reachable)
    (known : ∀ name, (view name).status = (table.sight name).status)
    (name : MemberName) :
    (view.hearAll (table.changesAll operations) name).status =
      ((table.performAll operations).sight name).status := by
  induction operations generalizing table view with
  | nil => exact known name
  | cons operation rest step =>
    rw [changesAll, View.hearAll_append, performAll_cons]
    exact step (reachable.perform operation)
      fun other => reachable.status_hearAll_changes operation (known other)

theorem Reachable.sight_hearAll
    (reachable : table.Reachable)
    (keeps : table.Keeps operations name)
    (known : view name = table.sight name) :
    view.hearAll (table.changesAll operations) name = (table.performAll operations).sight name := by
  induction operations generalizing table view with
  | nil => exact known
  | cons operation rest step =>
    rw [changesAll, View.hearAll_append, performAll_cons]
    exact step (reachable.perform operation) keeps.rest
      ((reachable.tells operation keeps.first).sight_hearAll known)

/-- A notification of one operation is news. -/
theorem Tells.news
    {earlier later : List MemberChange}
    {change : MemberChange}
    (tells : Tells before after change.name (earlier ++ change :: later))
    (known : view change.name = before.sight change.name) :
    change.sight ≠ view.hearAll earlier change.name := by
  have whole : about change.name (earlier ++ change :: later) =
      about change.name earlier ++ change :: about change.name later := by
    simp [about]
  cases tells with
  | silent nothing same =>
    rw [whole] at nothing
    exact absurd nothing (List.append_ne_nil_of_right_ne_nil _ (List.cons_ne_nil _ _))
  | once row found differs notice =>
    rw [whole, List.append_eq_singleton_iff] at notice
    rcases notice with ⟨first, only⟩ | ⟨-, none⟩
    · have seen : change.sight = row.sight := congrArg MemberChange.sight (List.cons.inj only).1
      rw [View.hearAll_eq, first, seen]
      exact fun same => differs (same.trans known)
    · cases none

/-- Every notification is news to a subscriber who knew what is seen of the member. -/
theorem Reachable.news
    (reachable : table.Reachable)
    {earlier later : List MemberChange}
    {change : MemberChange}
    (told : table.changesAll operations = earlier ++ change :: later)
    (keeps : table.Keeps operations change.name)
    (known : view change.name = table.sight change.name) :
    change.sight ≠ view.hearAll earlier change.name := by
  induction operations generalizing table view earlier with
  | nil => exact absurd told.symm (List.append_ne_nil_of_right_ne_nil _ (List.cons_ne_nil _ _))
  | cons operation rest step =>
    have tells := reachable.tells operation keeps.first
    have later : ∀ between, (table.perform operation).changesAll rest = between ++ change :: later →
        change.sight ≠ view.hearAll (table.changes operation ++ between) change.name := by
      intro between remaining
      rw [View.hearAll_append]
      exact step (reachable.perform operation) remaining keeps.rest (tells.sight_hearAll known)
    -- The notification comes with this operation or with a later one.
    rcases List.append_eq_append_iff.1 told with ⟨between, rfl, remaining⟩ | ⟨between, now, after⟩
    · exact later between remaining
    · cases between with
      | nil =>
        rw [List.append_nil] at now
        rw [← List.append_nil earlier, ← now]
        exact later [] after.symm
      | cons first others =>
        cases after
        rw [now] at tells
        exact tells.news known

/--
The notifications of a table are a faithful log of it.  Somebody subscribes to a table and takes
a snapshot of what is seen of every member, and never lags while the table goes through any
operations.  Then the notifications received, and those still to be received, are what the
operations told, and all of them were received once there is nothing to receive.

The snapshot, overwritten with the notifications in order, has the status of every name in the
table, and the metadata too for every member that was not dropped.  Each notification about such
a member differs from what was remembered of it by then.  And no operation tells more than once
of a member, and if it does not drop the member, it tells of it exactly if something else is seen
of it afterwards.
-/
theorem notifications_tell_the_table
    (reachable : table.Reachable)
    (operations : List Operation)
    (channel : Broadcast MemberChange)
    {moments : List (Broadcast.Moment MemberChange)}
    (sent : moments.flatMap Broadcast.Moment.sent = table.changesAll operations)
    (keptUp : ((Broadcast.Reading.subscribed channel).run channel.subscribe.1 moments).KeptUp) :
    let reading := (Broadcast.Reading.subscribed channel).run channel.subscribe.1 moments
    let told := reading.owed channel.subscribe.1
    let snapshot : View := table.sight
    let final := table.performAll operations
    told = table.changesAll operations ∧
    ((reading.channel.receive channel.subscribe.1).1 = .empty →
      Broadcast.valuesOf reading.found = told) ∧
    (∀ name, (snapshot.hearAll told name).status = (final.sight name).status) ∧
    (∀ name, table.Keeps operations name → snapshot.hearAll told name = final.sight name) ∧
    (∀ earlier change later, told = earlier ++ change :: later →
      table.Keeps operations change.name →
      change.sight ≠ snapshot.hearAll earlier change.name) ∧
    ∀ time operation name, operations[time]? = some operation →
      let before := table.tableAt operations time
      let after := table.tableAt operations (time + 1)
      (name ∉ before.dropped operation → Tells before after name (before.changes operation)) ∧
      (name ∈ before.dropped operation → Drops before after name (before.changes operation)) := by
  intro reading told snapshot final
  rcases Broadcast.Reading.received_of_keptUp channel keptUp with ⟨owed, drained⟩
  have all : told = table.changesAll operations := owed.trans sent
  refine ⟨all, fun empty => (drained empty).trans owed.symm, fun name => ?status,
    fun name keeps => ?sight, fun earlier change later split keeps => ?news,
    fun time operation name performed => ?each⟩
  case status =>
    rw [all]
    exact reachable.status_hearAll (fun _ => rfl) name
  case sight =>
    rw [all]
    exact reachable.sight_hearAll keeps rfl
  case news =>
    exact reachable.news (all.symm.trans split) keeps rfl
  case each =>
    intro before after
    have reached : before.Reachable := reachable.tableAt operations time
    have next : after = before.perform operation := table.tableAt_succ performed
    rw [next]
    exact ⟨fun kept => reached.tells operation kept, fun dropped => reached.drops dropped⟩

/--
A node is suspected, changes its metadata twice to the same, and leaves.  It tells of the first
change and of its departure, and who subscribed before knows how it left.
-/
theorem notifications_tell_the_table_departure :
    let name : MemberName := { text := "10.0.0.1:7946" }
    let table := start name [] [] 0
    let operations : List Operation :=
      [.apply 1 name .suspect 5 none, .setMetadata [7], .setMetadata [7], .leave 4]
    let channel : Broadcast MemberChange := .create 2
    let first : MemberChange :=
      { name, status := .online, clock := 7, metadata := { clock := 7, payload := some [7] } }
    let second : MemberChange :=
      { name, status := .offline, clock := 9, metadata := { clock := 8, payload := some [7] } }
    let reading := (Broadcast.Reading.subscribed channel).run channel.subscribe.1
      [.send first, .look, .send second, .look]
    let snapshot : View := table.sight
    table.Reachable ∧ reading.KeptUp ∧ table.changesAll operations = [first, second] ∧
      reading.owed channel.subscribe.1 = [first, second] ∧
      snapshot.hearAll [first, second] name = { status := .offline, payload := some [7] } ∧
      second.sight ≠ snapshot.hearAll [first] name := by
  intro name table operations channel first second reading snapshot
  have reachable : table.Reachable := reachable_start name [] [] 0
  have told : table.changesAll operations = [first, second] := rfl
  have departed : (table.performAll operations).sight name =
      { status := .offline, payload := some [7] } := rfl
  have sent : [.send first, .look, .send second, .look].flatMap Broadcast.Moment.sent =
      table.changesAll operations := told.symm
  -- The channel keeps two values, and two are sent.
  have keptUp : reading.KeptUp := by
    rcases channel.serves_subscribe with ⟨serves, nothing⟩
    refine Broadcast.Reading.keptUp_run (.subscribed channel) serves
      (fun _ lagged => nomatch lagged) _ ?_
    have room : (Broadcast.Reading.subscribed channel).channel.pending channel.subscribe.1 = [] :=
      nothing
    have capacity : (Broadcast.Reading.subscribed channel).channel.capacity = 2 := by
      decide +kernel
    rw [room, sent, told, capacity]
    exact Nat.le_refl 2
  have keeps : table.Keeps operations name := by
    rintro time ⟨operation, performed, listed⟩
    have among := List.mem_of_getElem? performed
    simp only [operations, List.mem_cons, List.not_mem_nil, or_false] at among
    rcases among with rfl | rfl | rfl | rfl <;> cases listed
  rcases notifications_tell_the_table reachable operations channel sent keptUp with
    ⟨all, -, -, sights, news, -⟩
  have whole : reading.owed channel.subscribe.1 = [first, second] := all.trans told
  refine ⟨reachable, keptUp, told, whole, ?_, news [first] second [] whole keeps⟩
  rw [← departed, ← sights name keeps]
  exact congrArg (fun heard => snapshot.hearAll heard name) whole.symm

end Run

end Table

end ClusterMembership
