import ClusterMembership.Proofs.Table.Operation

/-!
# Handles across operations

A slot counts how often it was vacated, and a handle is a slot together with that count.  In
a consistent table a handle resolves to a row exactly when it is the handle of the name in the
row; so what an operation does to handles is told by what it does to `Table.handle?`.

Two relations say this.  Updates and insertions extend a table: names get handles and none is
taken away, `Table.Extends`.  Any operation rearranges a table: a name keeps its handle, or
loses it together with a vacated slot, `Table.Rearranges`.  Counts never fall, so a handle whose
slot was vacated has expired for good.
-/

namespace ClusterMembership

namespace Table

variable {table before middle after : Table}

/-- How often a slot was vacated; a slot that does not exist yet never was. -/
def generation (table : Table) (index : Nat) : Nat :=
  (table.slots[index]?.map Slot.generation).getD 0

theorem generation_congr (slots : after.slots = before.slots) :
    after.generation = before.generation := by
  funext index
  simp [generation, slots]

theorem resolve?_eq_some {handle : Handle} {row : Member} :
    table.resolve? handle = some row ↔
      table.generation handle.index = handle.generation ∧
        table.occupant? handle.index = some row := by
  unfold resolve? generation occupant?
  cases table.slots[handle.index]? with
  | none => simp
  | some slot =>
    by_cases same : slot.generation = handle.generation <;> simp [same]

/-- The handle of a name consists of its slot and the count of the slot. -/
theorem Consistent.handle?_eq_some
    (consistent : table.Consistent)
    {name : MemberName}
    {handle : Handle} :
    table.handle? name = some handle ↔
      table.index[name]? = some handle.index ∧
        table.generation handle.index = handle.generation := by
  unfold handle? generation
  cases indexed : table.index[name]? with
  | none => simp
  | some index =>
    rcases consistent.exists_slot indexed with ⟨slot, row, found, -⟩
    rcases handle with ⟨slotIndex, count⟩
    simp only [found, Option.bind_eq_bind, Option.bind_some, Option.pure_def, Option.some.injEq,
      Handle.mk.injEq]
    constructor
    · rintro ⟨rfl, rfl⟩
      simp [found]
    · rintro ⟨rfl, same⟩
      simpa [found] using same

/-- A handle resolves to the row of the name that it is the handle of. -/
theorem Consistent.resolve?_eq_some_iff
    (consistent : table.Consistent)
    {handle : Handle}
    {row : Member} :
    table.resolve? handle = some row ↔
      table.handle? row.name = some handle ∧ table.other? row.name = some row := by
  rw [resolve?_eq_some, consistent.handle?_eq_some]
  constructor
  · rintro ⟨count, occupied⟩
    have indexed := (consistent.indexed row.name handle.index).2 ⟨row, occupied, rfl⟩
    exact ⟨⟨indexed, count⟩, by simp [other?, indexed, occupied]⟩
  · rintro ⟨⟨indexed, count⟩, known⟩
    rw [other?, indexed] at known
    exact ⟨count, known⟩

/-- A handle that belongs to a name resolves to the row of that name. -/
theorem Consistent.resolve?_of_handle?
    (consistent : table.Consistent)
    {name : MemberName}
    {handle : Handle}
    (held : table.handle? name = some handle) :
    ∃ row, table.resolve? handle = some row ∧ row.name = name ∧ table.other? name = some row := by
  cases known : table.other? name with
  | none =>
    rw [(consistent.handle?_eq_none_iff name).2 known] at held
    cases held
  | some row =>
    have named : row.name = name := (consistent.other?_eq_some_iff.1 known).2
    subst named
    exact ⟨row, consistent.resolve?_eq_some_iff.2 ⟨held, known⟩, rfl, rfl⟩

/-! ## Counts -/

theorem generation_place (table : Table) (member : Member) :
    (table.place member).2.generation = table.generation := by
  funext index
  rw [place]
  split
  · rename_i vacated rest free
    by_cases same : vacated = index
    · subst same
      by_cases inside : vacated < table.slots.size
      · simp [generation, inside]
      · simp [generation, inside]
    · simp [generation, same]
  · by_cases same : index = table.slots.size
    · subst same
      simp [generation]
    · simp [generation, Array.getElem?_push, same]

theorem generation_setOther (table : Table) (member : Member) :
    (table.setOther member).generation = table.generation := by
  funext index
  rw [setOther]
  split
  · rfl
  · rename_i slot indexed
    simp only [generation, Array.getElem?_modify]
    split
    · cases table.slots[index]? <;> rfl
    · rfl

/-- Dropping a member vacates its slot once. -/
theorem Consistent.generation_prune
    (consistent : table.Consistent)
    (name : MemberName)
    (index : Nat) :
    (table.prune name).generation index =
      if table.index[name]? = some index then table.generation index + 1
      else table.generation index := by
  rw [Table.prune]
  dsimp only
  cases indexed : table.index[name]? with
  | none => simp [generation]
  | some slot =>
    rcases consistent.exists_slot indexed with ⟨place, row, found, -⟩
    by_cases same : slot = index
    · subst same
      simp [generation, Array.getElem?_modify, found]
    · simp [generation, Array.getElem?_modify, same]

/-! ## Operations that take no handle away -/

/-- Every name keeps its handle, and no slot was vacated. -/
structure Extends (before after : Table) : Prop where
  handle : ∀ (name : MemberName) (handle : Handle),
    before.handle? name = some handle → after.handle? name = some handle
  generation : after.generation = before.generation

namespace Extends

theorem of_sameArena (slots : after.slots = before.slots) (index : after.index = before.index) :
    Extends before after := by
  refine ⟨fun name handle held => ?_, generation_congr slots⟩
  rw [handle?, slots, index]
  exact held

theorem trans (first : Extends before middle) (second : Extends middle after) :
    Extends before after :=
  ⟨fun name handle held => second.handle name handle (first.handle name handle held),
    second.generation.trans first.generation⟩

/-- Consistent tables extend one another by their indexes and counts. -/
theorem of_index
    (consistent : before.Consistent)
    (consistentAfter : after.Consistent)
    (index : ∀ (name : MemberName) (slot : Nat),
      before.index[name]? = some slot → after.index[name]? = some slot)
    (generation : after.generation = before.generation) :
    Extends before after := by
  refine ⟨fun name handle held => ?_, generation⟩
  rcases consistent.handle?_eq_some.1 held with ⟨indexed, count⟩
  refine consistentAfter.handle?_eq_some.2 ⟨index name handle.index indexed, ?_⟩
  rw [generation]
  exact count

end Extends

theorem Consistent.extends_insert
    (consistent : table.Consistent)
    (name : MemberName)
    (now : Instant) :
    Extends table (table.insert name now).2 := by
  have inserted := consistent.insert name now
  by_cases own : name = table.own.name
  · rw [own, insert_own]
    exact .of_sameArena rfl rfl
  · cases known : table.other? name with
    | some row =>
      rw [consistent.insert_known now known]
      exact .of_sameArena rfl rfl
    | none =>
      rw [consistent.insert_unknown now own known] at inserted ⊢
      refine .of_index consistent inserted (fun queried slot indexed => ?_)
        (generation_place table _)
      have absent := (consistent.index_eq_none_iff name).2 known
      have elsewhere : name ≠ queried := by
        rintro rfl
        rw [absent] at indexed
        cases indexed
      have other : ¬(name == queried) = true := by simpa using elsewhere
      rw [index_place, Std.ExtHashMap.getElem?_insert, Member.unobserved, if_neg other]
      exact indexed

theorem Consistent.extends_setOther (consistent : table.Consistent) (member : Member) :
    Extends table (table.setOther member) := by
  refine .of_index consistent (consistent.setOther member) (fun name slot indexed => ?_)
    (generation_setOther table member)
  rw [index_setOther]
  exact indexed

theorem Consistent.extends_update
    (consistent : table.Consistent)
    (policy : Policy)
    (now : Instant)
    (name : MemberName)
    (status : Status)
    (clock : Nat)
    (metadata : Option Metadata) :
    Extends table (table.update policy now name status clock metadata).table := by
  by_cases own : name = table.own.name
  · subst own
    have arena := @arena_update_own table policy now status clock metadata
    exact .of_sameArena arena.1 arena.2.1
  · have observed : Extends table (table.observe clock) := .of_sameArena rfl rfl
    have inserted := (consistent.observe clock).extends_insert name now
    rw [consistent.table_update_other policy now status clock metadata own]
    split
    · exact observed.trans inserted
    · exact (observed.trans inserted).trans
        (((consistent.observe clock).insert name now).extends_setOther _)

theorem Consistent.extends_advanceAll
    (consistent : table.Consistent)
    (wall : Instant)
    (steps : List (MemberName × Status)) :
    Extends table (table.advanceAll wall steps).table := by
  induction steps generalizing table with
  | nil => exact .of_sameArena rfl rfl
  | cons first rest step =>
    have ticked : table.tick.Consistent := consistent.of_sameArena rfl rfl rfl rfl
    have start : Extends table table.tick := .of_sameArena rfl rfl
    have moved := ticked.extends_update .strict wall first.1 first.2 table.tick.clock none
    exact (start.trans moved).trans
      (step (ticked.update .strict wall first.2 table.tick.clock none first.1))

theorem arena_leave (table : Table) (now : Instant) :
    (table.leave now).table.slots = table.slots ∧ (table.leave now).table.index = table.index := by
  rw [leave]
  split <;> exact ⟨rfl, rfl⟩

/-! ## All operations -/

/--
Every name keeps its handle or loses it with a vacated slot, and no count falls.  One operation
does this; many of them may drop a name and give it another handle later on.
-/
structure Rearranges (before after : Table) : Prop where
  handle : ∀ (name : MemberName) (handle : Handle), before.handle? name = some handle →
    after.handle? name = some handle ∨
      after.handle? name = none ∧ handle.generation < after.generation handle.index
  generation : ∀ index : Nat, before.generation index ≤ after.generation index

theorem Extends.rearranges (extension : Extends before after) : Rearranges before after :=
  ⟨fun name handle held => Or.inl (extension.handle name handle held),
    fun index => Nat.le_of_eq (congrFun extension.generation index).symm⟩

theorem Rearranges.of_sameArena
    (slots : after.slots = before.slots)
    (index : after.index = before.index) :
    Rearranges before after :=
  (Extends.of_sameArena slots index).rearranges

/-- Dropping a member takes its handle away, and no other one. -/
theorem Consistent.handle?_prune
    (consistent : table.Consistent)
    (name queried : MemberName) :
    (table.prune name).handle? queried =
      if queried = name then none else table.handle? queried := by
  by_cases same : queried = name
  · rw [if_pos same, (consistent.prune name).handle?_eq_none_iff, consistent.other?_prune,
      if_pos same]
  · rw [if_neg same]
    cases held : table.handle? queried with
    | none =>
      rw [(consistent.prune name).handle?_eq_none_iff, consistent.other?_prune, if_neg same]
      exact (consistent.handle?_eq_none_iff queried).1 held
    | some handle =>
      rcases consistent.handle?_eq_some.1 held with ⟨indexed, count⟩
      have elsewhere : table.index[name]? ≠ some handle.index :=
        fun alsoIndexed => same (consistent.name_unique indexed alsoIndexed)
      refine (consistent.prune name).handle?_eq_some.2 ⟨?_, ?_⟩
      · rw [index_prune, Std.ExtHashMap.getElem?_erase, if_neg (by simpa using Ne.symm same)]
        exact indexed
      · rw [consistent.generation_prune, if_neg elsewhere]
        exact count

theorem Rearranges.prune
    (rearranges : Rearranges before after)
    (consistent : after.Consistent)
    (name : MemberName) :
    Rearranges before (after.prune name) := by
  have grows : ∀ index, after.generation index ≤ (after.prune name).generation index := by
    intro index
    rw [consistent.generation_prune]
    split
    · exact Nat.le_succ _
    · exact Nat.le_refl _
  constructor
  · intro queried handle held
    rw [consistent.handle?_prune]
    rcases rearranges.handle queried handle held with kept | ⟨lost, vacated⟩
    · by_cases same : queried = name
      · subst same
        rcases consistent.handle?_eq_some.1 kept with ⟨indexed, count⟩
        right
        rw [if_pos rfl, consistent.generation_prune, if_pos indexed, count]
        exact ⟨rfl, Nat.lt_succ_self _⟩
      · rw [if_neg same]
        exact Or.inl kept
    · right
      rw [lost, ite_self]
      exact ⟨rfl, Nat.lt_of_lt_of_le vacated (grows handle.index)⟩
  · intro index
    exact Nat.le_trans (rearranges.generation index) (grows index)

theorem Rearranges.pruneAll
    (rearranges : Rearranges before after)
    (consistent : after.Consistent)
    (names : List MemberName) :
    Rearranges before (names.foldl Table.prune after) := by
  induction names generalizing after with
  | nil => exact rearranges
  | cons name rest step => exact step (rearranges.prune consistent name) (consistent.prune name)

theorem Sound.rearranges_perform (sound : table.Sound) (operation : Operation) :
    Rearranges table (table.perform operation) := by
  have consistent := sound.toConsistent
  cases operation with
  | apply now name status clock metadata =>
    exact (consistent.extends_update .strict now name status clock metadata).rearranges
  | merge now source entry =>
    have recorded := sound.recordAck source entry.name entry.clock
    have noted : Extends table (table.recordAck source entry.name entry.clock) :=
      .of_sameArena rfl rfl
    exact (noted.trans (recorded.extends_update .lenient now entry.name entry.status entry.clock
      entry.metadata)).rearranges
  | observe clock => exact .of_sameArena rfl rfl
  | tick => exact .of_sameArena rfl rfl
  | recordAcks peer acks =>
    rcases recordAcks_eq table peer acks with ⟨recorded, same⟩
    rw [Table.perform, same]
    exact .of_sameArena rfl rfl
  | expire wall asOf timeouts =>
    show Rearranges table (table.expire wall asOf timeouts).table
    rw [table_expire]
    -- All moves of a sweep come before its first drop.
    have advanced := consistent.extends_advanceAll wall (table.dueAdvances timeouts asOf)
    exact advanced.rearranges.pruneAll (sound.decides_advanceAll wall _).sound.toConsistent _
  | setMetadata payload => exact .of_sameArena rfl rfl
  | leave now =>
    have arena := arena_leave table now
    exact .of_sameArena arena.1 arena.2
  | insert name now => exact (consistent.extends_insert name now).rearranges
  | takeInserted => exact .of_sameArena rfl rfl

/-! ## Handles that expired -/

/-- A handle keeps its name, or its slot was vacated. -/
theorem Rearranges.resolve?_or_vacated
    (rearranges : Rearranges before after)
    (consistent : before.Consistent)
    (consistentAfter : after.Consistent)
    {handle : Handle}
    {row : Member}
    (resolves : before.resolve? handle = some row) :
    (∃ later, after.resolve? handle = some later ∧ later.name = row.name) ∨
      handle.generation < after.generation handle.index := by
  rcases rearranges.handle row.name handle (consistent.resolve?_eq_some_iff.1 resolves).1 with
    kept | ⟨-, vacated⟩
  · rcases consistentAfter.resolve?_of_handle? kept with ⟨later, resolves, named, -⟩
    exact Or.inl ⟨later, resolves, named⟩
  · exact Or.inr vacated

/-- A handle that starts to resolve belongs to a name that had no row. -/
theorem Rearranges.other?_eq_none_of_issued
    (rearranges : Rearranges before after)
    (consistent : before.Consistent)
    (consistentAfter : after.Consistent)
    {handle : Handle}
    {row : Member}
    (unresolved : before.resolve? handle = none)
    (resolves : after.resolve? handle = some row) :
    before.other? row.name = none := by
  have held := (consistentAfter.resolve?_eq_some_iff.1 resolves).1
  rw [← consistent.handle?_eq_none_iff]
  cases earlier : before.handle? row.name with
  | none => rfl
  | some other =>
    exfalso
    rcases rearranges.handle row.name other earlier with kept | ⟨lost, -⟩
    · rw [held] at kept
      cases kept
      rcases consistent.resolve?_of_handle? earlier with ⟨old, resolved, -⟩
      rw [unresolved] at resolved
      cases resolved
    · rw [held] at lost
      cases lost

/-- A handle whose slot was vacated since does not resolve. -/
theorem resolve?_eq_none_of_vacated
    {handle : Handle}
    (vacated : handle.generation < table.generation handle.index) :
    table.resolve? handle = none := by
  cases resolves : table.resolve? handle with
  | none => rfl
  | some row =>
    rw [(resolve?_eq_some.1 resolves).1] at vacated
    exact absurd vacated (Nat.lt_irrefl _)

/-- A handle that resolves before and after an operation names one member. -/
theorem Sound.name_resolve?_perform
    (sound : table.Sound)
    {operation : Operation}
    {handle : Handle}
    {row later : Member}
    (resolves : table.resolve? handle = some row)
    (resolvesLater : (table.perform operation).resolve? handle = some later) :
    later.name = row.name := by
  rcases (sound.rearranges_perform operation).resolve?_or_vacated sound.toConsistent
    (sound.perform operation).toConsistent resolves with ⟨next, found, named⟩ | vacated
  · rw [resolvesLater] at found
    cases found
    exact named
  · rw [resolve?_eq_none_of_vacated vacated] at resolvesLater
    cases resolvesLater

theorem Sound.generation_le_performAll
    (sound : table.Sound)
    (operations : List Operation)
    (index : Nat) :
    table.generation index ≤ (table.performAll operations).generation index := by
  induction operations generalizing table with
  | nil => exact Nat.le_refl _
  | cons operation rest step =>
    exact Nat.le_trans ((sound.rearranges_perform operation).generation index)
      (step (sound.perform operation))

/-- A handle that resolves at the end of a run resolved all the way since it first did. -/
theorem Sound.resolves_perform
    (sound : table.Sound)
    {operation : Operation}
    {rest : List Operation}
    {handle : Handle}
    {row later : Member}
    (resolves : table.resolve? handle = some row)
    (resolvesLater : (table.performAll (operation :: rest)).resolve? handle = some later) :
    ∃ next, (table.perform operation).resolve? handle = some next := by
  have performed := sound.perform operation
  rcases (sound.rearranges_perform operation).resolve?_or_vacated sound.toConsistent
    performed.toConsistent resolves with ⟨next, found, -⟩ | vacated
  · exact ⟨next, found⟩
  · have expired := resolve?_eq_none_of_vacated
      (Nat.lt_of_lt_of_le vacated (performed.generation_le_performAll rest handle.index))
    rw [performAll_cons, expired] at resolvesLater
    cases resolvesLater

end Table

end ClusterMembership
