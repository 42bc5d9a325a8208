import ClusterMembership.Proofs.Table.LogicalClock
import ClusterMembership.Table.Selection

/-!
# Counting members

The arena describes the other members four times over: by its slots, by the index, by the free
list and by what it answers.  In a consistent table the descriptions agree, so every way to
count the members gives the same number, and no lookup runs into a slot that does not exist or
holds nobody.
-/

namespace ClusterMembership

namespace Table

variable {table : Table}

/-! ## Slots -/

/-- A name leads to a slot that exists and holds the row of the name. -/
theorem Consistent.exists_occupied_slot
    (consistent : table.Consistent)
    {name : MemberName}
    {slot : Nat}
    (indexed : table.index[name]? = some slot) :
    ∃ (inside : slot < table.slots.size) (row : Member),
      table.slots[slot].occupant = some row ∧ row.name = name := by
  rcases consistent.exists_slot indexed with ⟨place, row, found, holds, named⟩
  rcases Array.getElem?_eq_some_iff.1 found with ⟨inside, rfl⟩
  exact ⟨inside, row, holds, named⟩

/-- Two slots do not hold rows of one name. -/
theorem Consistent.slot_unique
    (consistent : table.Consistent)
    {first second : Nat}
    {left right : Member}
    (here : table.occupant? first = some left)
    (there : table.occupant? second = some right)
    (named : left.name = right.name) :
    first = second := by
  have indexed := (consistent.indexed right.name first).2 ⟨left, here, named⟩
  rw [(consistent.indexed right.name second).2 ⟨right, there, rfl⟩] at indexed
  cases indexed
  rfl

/-- No slot holds the row of the node itself. -/
theorem Consistent.occupant_foreign
    (consistent : table.Consistent)
    {slot : Nat}
    {row : Member}
    (occupied : table.occupant? slot = some row) :
    row.name ≠ table.own.name := by
  intro own
  have indexed := (consistent.indexed table.own.name slot).2 ⟨row, occupied, own⟩
  rw [consistent.ownUnindexed] at indexed
  cases indexed

/-- An update finds the row it works on. -/
theorem Consistent.answer_update_ne_memberNotFound
    (consistent : table.Consistent)
    (policy : Policy)
    (now : Instant)
    (name : MemberName)
    (status : Status)
    (clock : Nat)
    (metadata : Option Metadata) :
    (table.update policy now name status clock metadata).answer ≠
      .error (.memberNotFound name) := by
  by_cases own : name = table.own.name
  · subst own
    rw [update_own]
    intro answer
    cases answer
  · rw [consistent.answer_update_other policy now status clock metadata own]
    split <;> simp

/-! ## Sizes -/

/-- A map has as many entries as a list that names every key once. -/
theorem size_eq_length_of_keys
    {Key Value : Type}
    [BEq Key]
    [LawfulBEq Key]
    [Hashable Key]
    {keys : List Key}
    {map : Std.ExtHashMap Key Value}
    (once : keys.Nodup)
    (listed : ∀ key, key ∈ map ↔ key ∈ keys) :
    map.size = keys.length := by
  induction keys generalizing map with
  | nil =>
    have empty : map = ∅ := by
      refine Std.ExtHashMap.eq_empty_iff_forall_not_mem.2 fun key => ?_
      rw [listed]
      exact List.not_mem_nil
    rw [empty, Std.ExtHashMap.size_empty, List.length_nil]
  | cons key keys step =>
    rcases List.nodup_cons.1 once with ⟨fresh, once⟩
    have present : key ∈ map := (listed key).2 List.mem_cons_self
    have others : (map.erase key).size = keys.length := by
      refine step once fun other => ?_
      rw [Std.ExtHashMap.mem_erase, listed, List.mem_cons]
      by_cases same : key = other
      · subst same
        simp [fresh]
      · simp [same, Ne.symm same]
    have occupied : map.size ≠ 0 := by
      intro zero
      rw [Std.ExtHashMap.eq_empty_iff_size_eq_zero.2 zero] at present
      exact Std.ExtHashMap.not_mem_empty present
    rw [Std.ExtHashMap.size_erase, if_pos present] at others
    rw [List.length_cons, ← others]
    omega

/-- The index has one entry for every row of the arena. -/
theorem Consistent.size_index (consistent : table.Consistent) :
    table.index.size = table.others.length := by
  have once : (table.others.map Member.name).Nodup :=
    (List.nodup_cons.1 consistent.nodup_names).2
  have listed : ∀ name, name ∈ table.index ↔ name ∈ table.others.map Member.name := by
    intro name
    rw [Std.ExtHashMap.mem_iff_isSome_getElem?, Option.isSome_iff_ne_none, ne_eq,
      consistent.index_eq_none_iff, ← ne_eq, Option.ne_none_iff_exists', List.mem_map]
    exact exists_congr fun row => consistent.other?_eq_some_iff
  rw [size_eq_length_of_keys once listed, List.length_map]

theorem Consistent.size_eq (consistent : table.Consistent) :
    table.size = table.members.length := by
  rw [size, consistent.size_index, members, List.length_cons]

/-- Every row of the arena has a handle, and the handle resolves to the row. -/
theorem Consistent.length_handles (consistent : table.Consistent) :
    table.handles.length = table.others.length := by
  refine List.filterMap_length_eq_length.2 fun row member => ?_
  have known := consistent.other?_eq_some_iff.2 ⟨member, rfl⟩
  rw [Option.isSome_iff_ne_none, ne_eq, consistent.handle?_eq_none_iff, known]
  exact Option.some_ne_none row

theorem length_statuses (table : Table) : table.statuses.length = table.members.length := by
  rw [statuses, List.length_mergeSort, List.length_map]

theorem Consistent.nodup_statuses (consistent : table.Consistent) :
    (table.statuses.map Prod.fst).Nodup := by
  have sorted := (List.mergeSort_perm
    (table.members.map fun member => (member.name, member.status))
    fun left right => (compare left.1 right.1).isLE).map Prod.fst
  rw [List.map_map] at sorted
  exact sorted.nodup_iff.2 consistent.nodup_names

/-- Every row has one of the four statuses. -/
theorem countP_status (rows : List Member) :
    rows.countP (fun row => row.status = .online) + rows.countP (fun row => row.status = .suspect) +
        rows.countP (fun row => row.status = .unavailable) +
        rows.countP (fun row => row.status = .offline) =
      rows.length := by
  induction rows with
  | nil => rfl
  | cons row rows step =>
    simp only [List.countP_cons, List.length_cons]
    cases row.status <;> simp <;> omega

/--
In every table of a node the descriptions of the arena agree.  The index leads from exactly the
names in the slots, each to the one slot that holds its row; no slot holds the node itself, and
its name is not indexed; the free list names exactly the vacant slots, each once.

So an indexed slot exists and holds the row of its name, no update misses the row it works on,
and every way to count the members gives the same number, which the four statuses add up to.
-/
theorem arena_descriptions_agree (reachable : table.Reachable) :
    (∀ name slot, table.index[name]? = some slot ↔
      ∃ row, table.occupant? slot = some row ∧ row.name = name ∧ name ≠ table.own.name) ∧
    (∀ first second left right, table.occupant? first = some left →
      table.occupant? second = some right → left.name = right.name → first = second) ∧
    table.index[table.own.name]? = none ∧
    (∀ slot, slot ∈ table.free ↔ slot < table.slots.size ∧ table.occupant? slot = none) ∧
    table.free.Nodup ∧
    (∀ name slot, table.index[name]? = some slot →
      ∃ (inside : slot < table.slots.size) (row : Member),
        table.slots[slot].occupant = some row ∧ row.name = name) ∧
    (∀ policy now name status clock metadata,
      (table.update policy now name status clock metadata).answer ≠
        .error (.memberNotFound name)) ∧
    table.size = table.members.length ∧
    table.summary.total = table.members.length ∧
    table.statuses.length = table.members.length ∧ (table.statuses.map Prod.fst).Nodup ∧
    1 + table.handles.length = table.members.length ∧
    table.summary.online + table.summary.suspect + table.summary.unavailable +
      table.summary.offline = table.summary.total := by
  have consistent := reachable.sound.toConsistent
  refine ⟨?index, fun first second left right => consistent.slot_unique, consistent.ownUnindexed,
    consistent.vacant, consistent.freeOnce, fun name slot => consistent.exists_occupied_slot,
    consistent.answer_update_ne_memberNotFound, consistent.size_eq, rfl, length_statuses table,
    consistent.nodup_statuses, ?handles, countP_status table.members⟩
  case index =>
    intro name slot
    rw [consistent.indexed]
    constructor
    · rintro ⟨row, occupied, rfl⟩
      exact ⟨row, occupied, rfl, consistent.occupant_foreign occupied⟩
    · rintro ⟨row, occupied, named, -⟩
      exact ⟨row, occupied, named⟩
  case handles =>
    rw [consistent.length_handles, members, List.length_cons]
    exact Nat.add_comm _ _

/--
Of three seeds the last is dropped by a sweep, which leaves its slot vacant, and a fourth member
takes the slot.
-/
theorem arena_descriptions_agree_reused :
    let name : MemberName := { text := "10.0.0.1:7946" }
    let first : MemberName := { text := "10.0.0.2:7946" }
    let second : MemberName := { text := "10.0.0.3:7946" }
    let third : MemberName := { text := "10.0.0.4:7946" }
    let fourth : MemberName := { text := "10.0.0.5:7946" }
    let timeouts : Timeouts := { suspect := 3, unavailable := 3, retention := 3 }
    let swept := (start name [] [first, second, third] 0).performAll
      [.apply 0 third .offline 5 none, .expire 9 9 timeouts]
    let table := swept.perform (.insert fourth 9)
    (2 ∈ swept.free ∧ swept.index[third]? = none ∧ swept.size = 3 ∧ swept.handles.length = 2) ∧
      2 ∉ table.free ∧ table.index[fourth]? = some 2 ∧ table.size = 4 ∧ table.handles.length = 3 ∧
      table.index[name]? = none := by
  intro name first second third fourth timeouts swept table
  have reachable : swept.Reachable :=
    (reachable_start name [] [first, second, third] 0).performAll _
  have left : swept.slots.size = 3 ∧ swept.occupant? 2 = none ∧ swept.index[third]? = none ∧
      swept.others = [.unobserved first 0, .unobserved second 0] := by
    simp [swept, name, first, second, third, timeouts, start, insert, handle?, isOwn, place,
      others, Member.unobserved, perform, apply, update, observe, other?, occupant?, Policy.rejects,
      Member.isOlderThan, Member.accept, setOther, Member.mergeMetadata?, Member.permits, expire,
      duePrunes, dueAdvances, Timeouts.step, Member.isObserved, advanceAll, prune]
  have reused : table.occupant? 2 = some (.unobserved fourth 9) ∧ table.own.name = name ∧
      table.others = [.unobserved first 0, .unobserved second 0, .unobserved fourth 9] := by
    simp [table, swept, name, first, second, third, fourth, timeouts, start, insert, handle?, isOwn,
      place, others, Member.unobserved, perform, apply, update, observe, other?, occupant?,
      Policy.rejects, Member.isOlderThan, Member.accept, setOther, Member.mergeMetadata?,
      Member.permits, expire, duePrunes, dueAdvances, Timeouts.step, Member.isObserved, advanceAll,
      prune]
  have after : table.Reachable := reachable.perform (.insert fourth 9)
  rcases left with ⟨slots, vacated, dropped, two⟩
  rcases reused with ⟨taken, owner, three⟩
  clear_value table swept
  refine ⟨?_, ?_⟩
  · rcases arena_descriptions_agree reachable with
      ⟨-, -, -, vacant, -, -, -, size, -, -, -, handles, -⟩
    rw [members, two] at size handles
    exact ⟨(vacant 2).2 ⟨slots ▸ by decide, vacated⟩, dropped, size, Nat.add_left_cancel handles⟩
  · rcases arena_descriptions_agree after with
      ⟨index, -, own, vacant, -, -, -, size, -, -, -, handles, -⟩
    have occupied : 2 ∉ table.free := fun free => by
      rw [((vacant 2).1 free).2] at taken
      cases taken
    rw [members, three] at size handles
    refine ⟨occupied, (index fourth 2).2 ⟨_, taken, rfl, ?_⟩, size, Nat.add_left_cancel handles, ?_⟩
    · rw [owner]
      decide
    · rwa [owner] at own

end Table

end ClusterMembership
