import ClusterMembership.Table.Update
import Mathlib.Tactic.ByContra

/-!
# The arena of a table is consistent

The rows of the other members stand in slots, an index leads from names to slots,
and a list keeps the vacant slots.  `Table.Consistent` says that the three agree:
the index holds exactly the names of the occupants, the node itself has no slot,
and the free list names every vacant slot once.

Every operation on the arena keeps this, and on a consistent table each of them has
a plain meaning for the row of a name, `Table.other?`.  The modules above reason
about that meaning only; slots and index do not appear there again.
-/

namespace ClusterMembership

namespace Table

/-- The index, the slots and the free list describe the same rows. -/
structure Consistent (table : Table) : Prop where
  /-- A name leads to a slot exactly when the slot holds the row of that name. -/
  indexed : ∀ (name : MemberName) (index : Nat),
    table.index[name]? = some index ↔
      ∃ row, table.occupant? index = some row ∧ row.name = name
  /-- The node itself has no slot. -/
  ownUnindexed : table.index[table.own.name]? = none
  /-- The free list holds exactly the vacant slots. -/
  vacant : ∀ index : Nat,
    index ∈ table.free ↔ index < table.slots.size ∧ table.occupant? index = none
  /-- No vacant slot is listed twice. -/
  freeOnce : table.free.Nodup

/-! ## Rows of names -/

/-- The rows of the arena are the occupants of its slots. -/
theorem mem_others_iff (table : Table) (row : Member) :
    row ∈ table.others ↔ ∃ index, table.occupant? index = some row := by
  simp only [others, List.mem_filterMap, Array.mem_toList_iff, occupant?]
  constructor
  · rintro ⟨slot, member, occupied⟩
    rcases Array.getElem?_of_mem member with ⟨index, found⟩
    exact ⟨index, by simp [found, occupied]⟩
  · rintro ⟨index, occupied⟩
    rcases Option.bind_eq_some_iff.1 occupied with ⟨slot, found, holds⟩
    exact ⟨slot, Array.mem_of_getElem? found, holds⟩

/-- Looking up a name gives the row of the arena with that name. -/
theorem Consistent.other?_eq_some_iff
    {table : Table}
    (consistent : table.Consistent)
    {name : MemberName}
    {row : Member} :
    table.other? name = some row ↔ row ∈ table.others ∧ row.name = name := by
  rw [mem_others_iff]
  constructor
  · intro found
    rcases Option.bind_eq_some_iff.1 found with ⟨index, indexed, occupied⟩
    rcases (consistent.indexed name index).1 indexed with ⟨holder, holds, named⟩
    rw [occupied] at holds
    cases holds
    exact ⟨⟨index, occupied⟩, named⟩
  · rintro ⟨⟨index, occupied⟩, named⟩
    have indexed : table.index[name]? = some index :=
      (consistent.indexed name index).2 ⟨row, occupied, named⟩
    simp [other?, indexed, occupied]

/-- A name leads to a slot that holds the row of the name. -/
theorem Consistent.exists_slot
    {table : Table}
    (consistent : table.Consistent)
    {name : MemberName}
    {index : Nat}
    (indexed : table.index[name]? = some index) :
    ∃ slot row, table.slots[index]? = some slot ∧ slot.occupant = some row ∧ row.name = name := by
  rcases (consistent.indexed name index).1 indexed with ⟨row, occupied, named⟩
  rcases Option.bind_eq_some_iff.1 occupied with ⟨slot, found, holds⟩
  exact ⟨slot, row, found, holds, named⟩

/-- One slot holds the row of one name only. -/
theorem Consistent.name_unique
    {table : Table}
    (consistent : table.Consistent)
    {first second : MemberName}
    {index : Nat}
    (firstIndexed : table.index[first]? = some index)
    (secondIndexed : table.index[second]? = some index) :
    first = second := by
  rcases (consistent.indexed first index).1 firstIndexed with ⟨row, here, named⟩
  rcases (consistent.indexed second index).1 secondIndexed with ⟨other, there, called⟩
  rw [here] at there
  cases there
  exact named.symm.trans called

/-- A row of the arena is not the row of the node itself. -/
theorem Consistent.other?_own
    {table : Table}
    (consistent : table.Consistent) :
    table.other? table.own.name = none := by
  simp [other?, consistent.ownUnindexed]

/-- A name without a row is not in the index. -/
theorem Consistent.index_eq_none_iff
    {table : Table}
    (consistent : table.Consistent)
    (name : MemberName) :
    table.index[name]? = none ↔ table.other? name = none := by
  constructor
  · intro absent
    simp [other?, absent]
  · intro absent
    cases indexed : table.index[name]? with
    | none => rfl
    | some index =>
      rcases (consistent.indexed name index).1 indexed with ⟨row, occupied, -⟩
      simp [other?, indexed, occupied] at absent

/-- A name has a handle exactly when it has a row in the arena. -/
theorem Consistent.handle?_eq_none_iff
    {table : Table}
    (consistent : table.Consistent)
    (name : MemberName) :
    table.handle? name = none ↔ table.other? name = none := by
  rw [← consistent.index_eq_none_iff]
  constructor
  · intro absent
    cases indexed : table.index[name]? with
    | none => rfl
    | some index =>
      rcases consistent.exists_slot indexed with ⟨slot, row, found, -⟩
      simp [handle?, indexed, found] at absent
  · intro absent
    simp [handle?, absent]

theorem find?_of_foreign
    {table : Table}
    {name : MemberName}
    (foreign : name ≠ table.own.name) :
    table.find? name = table.other? name := by
  simp [find?, isOwn, foreign]

/-- The row of a member, the node itself included, is the row in the table with its name. -/
theorem Consistent.find?_eq_some_iff
    {table : Table}
    (consistent : table.Consistent)
    {name : MemberName}
    {row : Member} :
    table.find? name = some row ↔ row ∈ table.members ∧ row.name = name := by
  have other : table.other? name = some row ↔ row ∈ table.others ∧ row.name = name :=
    consistent.other?_eq_some_iff
  by_cases own : name = table.own.name
  · subst own
    have found : table.find? table.own.name = some table.own := by simp [find?, isOwn]
    rw [consistent.other?_own] at other
    rw [found, members, List.mem_cons]
    constructor
    · rintro ⟨rfl⟩
      exact ⟨Or.inl rfl, rfl⟩
    · rintro ⟨rfl | member, named⟩
      · rfl
      · exact absurd (other.2 ⟨member, named⟩) (by simp)
  · rw [find?_of_foreign own, other, members, List.mem_cons]
    constructor
    · rintro ⟨member, named⟩
      exact ⟨Or.inr member, named⟩
    · rintro ⟨rfl | member, named⟩
      · exact absurd named.symm own
      · exact ⟨member, named⟩

/-- Every member has one row. -/
theorem Consistent.nodup_names
    {table : Table}
    (consistent : table.Consistent) :
    (table.members.map Member.name).Nodup := by
  have slotwise : ∀ (index : Nat) (inside : index < table.slots.toList.length) (row : Member),
      table.slots.toList[index].occupant = some row →
        table.index[row.name]? = some index := by
    intro index inside row occupied
    refine (consistent.indexed row.name index).2 ⟨row, ?_, rfl⟩
    have found : table.slots[index]? = some table.slots.toList[index] := by
      rw [← Array.getElem?_toList]
      exact List.getElem?_eq_getElem inside
    rw [occupant?, found]
    exact occupied
  rw [members, List.map_cons, List.nodup_cons]
  constructor
  · intro known
    rcases List.mem_map.1 known with ⟨row, member, named⟩
    have found := consistent.other?_eq_some_iff.2 ⟨member, named⟩
    rw [consistent.other?_own] at found
    cases found
  · -- Equal names in two slots would be indexed by both.
    rw [others, List.Nodup, List.pairwise_map, List.pairwise_filterMap, List.pairwise_iff_getElem]
    intro first second firstInside secondInside ordered left leftHere right rightHere same
    have firstIndexed := slotwise first firstInside left leftHere
    have secondIndexed := slotwise second secondInside right rightHere
    rw [same, secondIndexed] at firstIndexed
    cases firstIndexed
    exact Nat.lt_irrefl _ ordered

/-! ## A row for a new member -/

/-- What an operation on the arena leaves alone. -/
structure SameOutsideArena (before after : Table) : Prop where
  own : after.own = before.own
  clock : after.clock = before.clock
  acks : after.acks = before.acks
  stopped : after.stopped = before.stopped

theorem SameOutsideArena.refl (table : Table) : SameOutsideArena table table :=
  ⟨rfl, rfl, rfl, rfl⟩

theorem SameOutsideArena.trans
    {first second third : Table}
    (before : SameOutsideArena first second)
    (after : SameOutsideArena second third) :
    SameOutsideArena first third :=
  ⟨after.own.trans before.own, after.clock.trans before.clock, after.acks.trans before.acks,
    after.stopped.trans before.stopped⟩

theorem sameOutsideArena_place (table : Table) (member : Member) :
    SameOutsideArena table (table.place member).2 := by
  rw [place]
  split <;> exact ⟨rfl, rfl, rfl, rfl⟩

theorem sameOutsideArena_insert (table : Table) (name : MemberName) (now : Instant) :
    SameOutsideArena table (table.insert name now).2 := by
  rw [insert]
  split
  · exact .refl table
  · split
    · exact .refl table
    · exact sameOutsideArena_place table _

theorem sameOutsideArena_setOther (table : Table) (member : Member) :
    SameOutsideArena table (table.setOther member) := by
  rw [setOther]
  split <;> exact ⟨rfl, rfl, rfl, rfl⟩

theorem index_place (table : Table) (member : Member) :
    (table.place member).2.index = table.index.insert member.name (table.place member).1.index := by
  rw [place]
  split <;> rfl

/-- A new row fills one slot, and the other slots keep their occupants. -/
theorem Consistent.occupant?_place
    {table : Table}
    (consistent : table.Consistent)
    (member : Member)
    (index : Nat) :
    (table.place member).2.occupant? index =
      if index = (table.place member).1.index then some member else table.occupant? index := by
  rw [place]
  split
  · rename_i vacated rest free
    have inside : vacated < table.slots.size :=
      ((consistent.vacant vacated).1 (by simp [free])).1
    by_cases same : index = vacated
    · subst same
      simp [occupant?, inside]
    · simp [occupant?, same, Array.getElem?_setIfInBounds_ne (Ne.symm same)]
  · by_cases same : index = table.slots.size
    · subst same
      simp [occupant?]
    · simp [occupant?, Array.getElem?_push, same]

/-- The slot that a new row fills was vacant or did not exist. -/
theorem Consistent.occupant?_place_index
    {table : Table}
    (consistent : table.Consistent)
    (member : Member) :
    table.occupant? (table.place member).1.index = none := by
  rw [place]
  split
  · rename_i vacated rest free
    exact ((consistent.vacant vacated).1 (by simp [free])).2
  · simp [occupant?]

/-- A row under a name that has none is placed consistently. -/
theorem Consistent.place
    {table : Table}
    (consistent : table.Consistent)
    {member : Member}
    (foreign : member.name ≠ table.own.name)
    (absent : table.other? member.name = none) :
    (table.place member).2.Consistent := by
  have outside := sameOutsideArena_place table member
  have occupants := consistent.occupant?_place member
  have fresh := consistent.occupant?_place_index member
  have unindexed := (consistent.index_eq_none_iff member.name).2 absent
  constructor
  · intro name index
    rw [index_place, occupants, Std.ExtHashMap.getElem?_insert]
    by_cases named : member.name = name
    · -- The name is the new one: it had no slot before.
      subst named
      simp only [beq_self_eq_true, if_true, Option.some.injEq]
      constructor
      · rintro rfl
        exact ⟨member, by simp, rfl⟩
      · rintro ⟨row, occupied, named⟩
        by_contra other
        rw [if_neg (Ne.symm other)] at occupied
        have indexed := (consistent.indexed member.name index).2 ⟨row, occupied, named⟩
        simp [unindexed] at indexed
    · rw [if_neg (by simpa using named), consistent.indexed name index]
      by_cases placed : index = (table.place member).1.index
      · simp [placed, fresh, named]
      · simp [placed]
  · rw [index_place, outside.own, Std.ExtHashMap.getElem?_insert, if_neg (by simpa using foreign)]
    exact consistent.ownUnindexed
  · intro index
    rw [occupants]
    have vacant := consistent.vacant
    have once := consistent.freeOnce
    unfold Table.place at fresh ⊢
    split
    · rename_i vacated rest free
      rw [free, List.nodup_cons] at once
      have inside := ((vacant vacated).1 (by simp [free])).1
      by_cases same : index = vacated
      · subst same
        simp [once.1]
      · have listed : index ∈ table.free ↔ index ∈ rest := by simp [free, same]
        simp [same, ← listed, vacant]
    · rename_i free
      have noneVacant : ∀ index, ¬(index < table.slots.size ∧ table.occupant? index = none) := by
        intro index
        rw [← vacant index, free]
        exact List.not_mem_nil
      have excluded := noneVacant index
      by_cases same : index = table.slots.size
      · simp [same, free]
      · simp only [free, List.not_mem_nil, Array.size_push, same, if_false, false_iff]
        rintro ⟨inside, vacated⟩
        exact excluded ⟨by omega, vacated⟩
  · have once := consistent.freeOnce
    rw [Table.place]
    split
    · rename_i vacated rest free
      rw [free, List.nodup_cons] at once
      exact once.2
    · rename_i free
      exact once

/-- Placing a row gives its name that row and no other name another one. -/
theorem Consistent.other?_place
    {table : Table}
    (consistent : table.Consistent)
    (member : Member)
    (name : MemberName) :
    (table.place member).2.other? name =
      if name = member.name then some member else table.other? name := by
  have occupants := consistent.occupant?_place member
  unfold other?
  rw [index_place, Std.ExtHashMap.getElem?_insert]
  by_cases named : member.name = name
  · subst named
    simp [occupants]
  · rw [if_neg (by simpa using named), if_neg (Ne.symm named)]
    cases indexed : table.index[name]? with
    | none => rfl
    | some index =>
      rcases (consistent.indexed name index).1 indexed with ⟨row, occupied, -⟩
      have elsewhere : index ≠ (table.place member).1.index := by
        rintro rfl
        simp [consistent.occupant?_place_index member] at occupied
      simp [occupants, elsewhere]

/-! ## Insertion of a name -/

theorem insert_own {table : Table} (now : Instant) :
    table.insert table.own.name now = (none, table) := by
  simp [insert, isOwn]

theorem Consistent.insert_known
    {table : Table}
    (consistent : table.Consistent)
    {name : MemberName}
    (now : Instant)
    {row : Member}
    (known : table.other? name = some row) :
    (table.insert name now).2 = table := by
  rw [Table.insert]
  split
  · rfl
  · cases handled : table.handle? name with
    | some handle => rfl
    | none => simp [(consistent.handle?_eq_none_iff name).1 handled] at known

theorem Consistent.insert_unknown
    {table : Table}
    (consistent : table.Consistent)
    {name : MemberName}
    (now : Instant)
    (foreign : name ≠ table.own.name)
    (unknown : table.other? name = none) :
    (table.insert name now).2 = (table.place (Member.unobserved name now)).2 := by
  have unhandled := (consistent.handle?_eq_none_iff name).2 unknown
  simp [Table.insert, isOwn, foreign, unhandled]

theorem Consistent.insert
    {table : Table}
    (consistent : table.Consistent)
    (name : MemberName)
    (now : Instant) :
    (table.insert name now).2.Consistent := by
  by_cases own : name = table.own.name
  · rw [own, insert_own]
    exact consistent
  · cases known : table.other? name with
    | some row =>
      rw [consistent.insert_known now known]
      exact consistent
    | none =>
      rw [consistent.insert_unknown now own known]
      exact consistent.place own known

/-- Inserting the name of another member gives it an unobserved row, unless it has one. -/
theorem Consistent.other?_insert
    {table : Table}
    (consistent : table.Consistent)
    {name : MemberName}
    (now : Instant)
    (foreign : name ≠ table.own.name)
    (queried : MemberName) :
    (table.insert name now).2.other? queried =
      if queried = name then
        some ((table.other? name).getD (Member.unobserved name now))
      else
        table.other? queried := by
  cases known : table.other? name with
  | some row =>
    rw [consistent.insert_known now known]
    by_cases same : queried = name
    · simp [same, known]
    · simp [same]
  | none =>
    rw [consistent.insert_unknown now foreign known, consistent.other?_place, Option.getD_none]
    rfl

/-! ## A new value for a row -/

theorem Consistent.occupant?_setOther
    {table : Table}
    (consistent : table.Consistent)
    {member : Member}
    {slot : Nat}
    (indexed : table.index[member.name]? = some slot)
    (index : Nat) :
    (table.setOther member).occupant? index =
      if index = slot then some member else table.occupant? index := by
  rcases consistent.exists_slot indexed with ⟨place, row, found, -⟩
  by_cases same : index = slot
  · subst same
    simp [setOther, indexed, occupant?, Array.getElem?_modify, found]
  · simp [setOther, indexed, occupant?, Array.getElem?_modify, same, Ne.symm same]

theorem index_setOther (table : Table) (member : Member) :
    (table.setOther member).index = table.index := by
  rw [setOther]
  split <;> rfl

theorem Consistent.setOther
    {table : Table}
    (consistent : table.Consistent)
    (member : Member) :
    (table.setOther member).Consistent := by
  cases indexed : table.index[member.name]? with
  | none =>
    have same : table.setOther member = table := by simp [Table.setOther, indexed]
    rw [same]
    exact consistent
  | some slot =>
    have occupants := consistent.occupant?_setOther indexed
    rcases (consistent.indexed member.name slot).1 indexed with ⟨row, occupied, named⟩
    have free : (table.setOther member).free = table.free := by simp [Table.setOther, indexed]
    have size : (table.setOther member).slots.size = table.slots.size := by
      simp [Table.setOther, indexed]
    constructor
    · intro name index
      rw [index_setOther, consistent.indexed name index, occupants]
      by_cases same : index = slot
      · simp [same, occupied, named]
      · simp [same]
    · rw [index_setOther, (sameOutsideArena_setOther table member).own]
      exact consistent.ownUnindexed
    · intro index
      rw [free, size, occupants, consistent.vacant]
      by_cases same : index = slot
      · simp [same, occupied]
      · simp [same]
    · rw [free]
      exact consistent.freeOnce

/-- Setting a row of the arena gives its name that row and no other name another one. -/
theorem Consistent.other?_setOther
    {table : Table}
    (consistent : table.Consistent)
    {member row : Member}
    (known : table.other? member.name = some row)
    (name : MemberName) :
    (table.setOther member).other? name =
      if name = member.name then some member else table.other? name := by
  rcases Option.bind_eq_some_iff.1 known with ⟨slot, indexed, -⟩
  have occupants := consistent.occupant?_setOther indexed
  unfold other?
  rw [index_setOther]
  by_cases named : name = member.name
  · subst named
    simp [indexed, occupants]
  · rw [if_neg named]
    cases found : table.index[name]? with
    | none => rfl
    | some index =>
      have elsewhere : index ≠ slot := by
        rintro rfl
        exact named (consistent.name_unique found indexed)
      simp [occupants, elsewhere]

/-! ## Changes outside the arena -/

theorem occupant?_congr {before after : Table} (slots : after.slots = before.slots) :
    after.occupant? = before.occupant? := by
  funext index
  simp [occupant?, slots]

/-- Tables with the same slots and the same index have the same rows. -/
theorem other?_congr
    {before after : Table}
    (slots : after.slots = before.slots)
    (index : after.index = before.index) :
    after.other? = before.other? := by
  funext name
  simp [other?, index, occupant?_congr slots]

/-- Consistency only depends on the arena and on the name of the node itself. -/
theorem Consistent.of_sameArena
    {before after : Table}
    (consistent : before.Consistent)
    (own : after.own.name = before.own.name)
    (slots : after.slots = before.slots)
    (index : after.index = before.index)
    (free : after.free = before.free) :
    after.Consistent := by
  have occupants := occupant?_congr slots
  constructor
  · rw [index, occupants]
    exact consistent.indexed
  · rw [own, index]
    exact consistent.ownUnindexed
  · rw [free, slots, occupants]
    exact consistent.vacant
  · rw [free]
    exact consistent.freeOnce

/-! ## The table of a node that has just started -/

/-- Inserting names of other members one after the other keeps a table consistent. -/
theorem Consistent.insertAll
    {table : Table}
    (consistent : table.Consistent)
    (names : List MemberName)
    (now : Instant) :
    (names.foldl (fun table name => (table.insert name now).2) table).Consistent := by
  induction names generalizing table with
  | nil => exact consistent
  | cons name names step => exact step (consistent.insert name now)

/-- The table before the seed members are inserted. -/
theorem consistent_of_empty
    (own : Member)
    (clock : Nat)
    (acks : Std.ExtHashMap (MemberName × MemberName) Nat)
    (inserted : List Handle)
    (stopped : Bool) :
    Consistent { own, slots := #[], index := ∅, free := [], clock, acks, inserted, stopped } := by
  refine ⟨?_, ?_, ?_, ?_⟩ <;> simp [occupant?]

theorem consistent_start
    (name : MemberName)
    (metadata : Bytes)
    (seeds : List MemberName)
    (now : Instant) :
    (start name metadata seeds now).Consistent :=
  (consistent_of_empty _ _ _ _ _).insertAll _ now

theorem sameOutsideArena_insertAll (names : List MemberName) (now : Instant) (table : Table) :
    SameOutsideArena table
      (names.foldl (fun table name => (table.insert name now).2) table) := by
  induction names generalizing table with
  | nil => exact .refl table
  | cons name names step => exact (sameOutsideArena_insert table name now).trans (step _)

theorem other?_insertAll_unobserved
    {table : Table}
    (consistent : table.Consistent)
    (names : List MemberName)
    (now : Instant)
    (unobserved : ∀ name row, table.other? name = some row → row = Member.unobserved name now)
    (name : MemberName)
    (row : Member)
    (found :
      (names.foldl (fun table name => (table.insert name now).2) table).other? name = some row) :
    row = Member.unobserved name now := by
  induction names generalizing table with
  | nil => exact unobserved name row found
  | cons first names step =>
    refine step (consistent.insert first now) ?_ found
    intro other row found
    by_cases own : first = table.own.name
    · subst own
      rw [insert_own] at found
      exact unobserved other row found
    · rw [consistent.other?_insert now own] at found
      by_cases same : other = first
      · subst same
        rw [if_pos rfl, Option.some.injEq] at found
        subst found
        cases known : table.other? other with
        | none => rfl
        | some row => exact unobserved other row known
      · rw [if_neg same] at found
        exact unobserved other row found

/-- Nothing is known yet about the members a table starts with. -/
theorem other?_start
    {name : MemberName}
    {metadata : Bytes}
    {seeds : List MemberName}
    {now : Instant}
    {queried : MemberName}
    {row : Member}
    (found : (start name metadata seeds now).other? queried = some row) :
    row = Member.unobserved queried now :=
  other?_insertAll_unobserved (consistent_of_empty _ _ _ _ _) _ now
    (by simp [other?]) queried row found

theorem own_start
    (name : MemberName)
    (metadata : Bytes)
    (seeds : List MemberName)
    (now : Instant) :
    (start name metadata seeds now).own =
      { name, status := .online, clock := 1, statusTime := now,
        metadata := { clock := 1, payload := some metadata } } :=
  (sameOutsideArena_insertAll _ now _).own

theorem acks_start
    (name : MemberName)
    (metadata : Bytes)
    (seeds : List MemberName)
    (now : Instant) :
    (start name metadata seeds now).acks = ∅ :=
  (sameOutsideArena_insertAll _ now _).acks

theorem clock_start
    (name : MemberName)
    (metadata : Bytes)
    (seeds : List MemberName)
    (now : Instant) :
    (start name metadata seeds now).clock = 1 :=
  (sameOutsideArena_insertAll _ now _).clock

end Table

end ClusterMembership
