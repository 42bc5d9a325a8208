import ClusterMembership.Proofs.Table.Operation

/-!
# The own row

Others may claim what they want about a node.  The node answers a claim that contradicts its
row by renewing the row under a newer clock, and keeps status and metadata as it has chosen
them: the status changes when it leaves, the metadata when it sets them.

A row beats a claim when it is newer, or says the same.  Once the node was told a claim about
itself, its row beats the claim for good.
-/

namespace ClusterMembership

/-- A row beats a claim that is older than the row, or that the row makes as well. -/
def Member.Beats (member : Member) (claim : Claim) : Prop :=
  claim.clock < member.clock ∨ claim.clock = member.clock ∧ claim.status = member.status

/-- A row that beats what another row says beats whatever the other row beats. -/
theorem Member.Beats.trans
    {earlier later : Member}
    {claim : Claim}
    (beats : earlier.Beats claim)
    (newer : later.Beats earlier.entry.claim) :
    later.Beats claim := by
  rcases newer with above | ⟨clock, status⟩
  · rcases beats with below | ⟨clock, -⟩
    · exact Or.inl (Nat.lt_trans below above)
    · exact Or.inl (Nat.lt_of_le_of_lt (Nat.le_of_eq clock) above)
  · rcases beats with below | ⟨same, said⟩
    · exact Or.inl (Nat.lt_of_lt_of_le below (Nat.le_of_eq clock))
    · exact Or.inr ⟨same.trans clock, said.trans status⟩

namespace Table

/-- What an operation is told about the liveness of a member. -/
def Operation.claim? : Operation → Option Claim
  | .apply _ name status clock _ => some { name, clock, status }
  | .merge _ _ entry => some entry.claim
  | .observe _ | .tick | .recordAcks .. | .expire .. | .setMetadata _ | .leave _ | .insert ..
  | .takeInserted => none

/-! ## Operations of others -/

/-- The own row was at most renewed under a newer clock. -/
structure Defends (before after : Table) : Prop where
  name : after.own.name = before.own.name
  clock : before.own.clock ≤ after.own.clock
  status : after.own.status = before.own.status
  metadata : after.own.metadata = before.own.metadata
  stopped : after.stopped = before.stopped

namespace Defends

variable {first second third : Table}

theorem of_sameOwn (own : second.own = first.own) (stopped : second.stopped = first.stopped) :
    Defends first second := by
  refine ⟨?_, Nat.le_of_eq ?_, ?_, ?_, stopped⟩ <;> rw [own]

theorem trans (before : Defends first second) (after : Defends second third) :
    Defends first third :=
  ⟨after.name.trans before.name, Nat.le_trans before.clock after.clock,
    after.status.trans before.status, after.metadata.trans before.metadata,
    after.stopped.trans before.stopped⟩

/-- A renewed row beats what it said before. -/
theorem beats (defends : Defends first second) : second.own.Beats first.own.entry.claim := by
  rcases Nat.lt_or_eq_of_le defends.clock with newer | same
  · exact Or.inl newer
  · exact Or.inr ⟨same, defends.status.symm⟩

end Defends

section Step

variable {table : Table}

theorem Consistent.defends_update
    (consistent : table.Consistent)
    (policy : Policy)
    (now : Instant)
    (name : MemberName)
    (status : Status)
    (clock : Nat)
    (metadata : Option Metadata) :
    Defends table (table.update policy now name status clock metadata).table := by
  by_cases own : name = table.own.name
  · subst own
    have stopped := (@arena_update_own table policy now status clock metadata).2.2.2.2
    refine ⟨?_, ?_, ?_, ?_, stopped⟩ <;> rw [own_update_own]
    · exact Member.name_answering _ _ _ _
    · rcases clock_answering_eq_or_lt status clock table.own table.clock with same | newer
      · exact Nat.le_of_eq (congrArg Member.clock same.symm)
      · exact Nat.le_of_lt newer
    · rw [Member.answering]
      split <;> rfl
    · rw [Member.answering]
      split <;> rfl
  · have outside := consistent.sameOutsideArena_update policy now status clock metadata own
    exact .of_sameOwn outside.own outside.stopped

theorem defends_recordAcks (table : Table) (peer : MemberName) (acks : List EntryAck) :
    Defends table (table.recordAcks peer acks) := by
  rcases recordAcks_eq table peer acks with ⟨recorded, same⟩
  rw [same]
  exact .of_sameOwn rfl rfl

theorem Consistent.defends_advanceAll
    (consistent : table.Consistent)
    (wall : Instant)
    (steps : List (MemberName × Status)) :
    Defends table (table.advanceAll wall steps).table := by
  induction steps generalizing table with
  | nil => exact .of_sameOwn rfl rfl
  | cons first rest step =>
    have ticked : table.tick.Consistent := consistent.of_sameArena rfl rfl rfl rfl
    have moved := ticked.defends_update .strict wall first.1 first.2 table.tick.clock none
    have others := step (ticked.update .strict wall first.2 table.tick.clock none first.1)
    have start : Defends table table.tick := .of_sameOwn rfl rfl
    exact start.trans (moved.trans others)

theorem Consistent.defends_expire
    (consistent : table.Consistent)
    (wall asOf : Instant)
    (timeouts : Timeouts) :
    Defends table (table.expire wall asOf timeouts).table := by
  rw [table_expire]
  apply (consistent.defends_advanceAll wall (table.dueAdvances timeouts asOf)).trans
  have self := sameSelf_pruneAll (table.advanceAll wall (table.dueAdvances timeouts asOf)).table
    (table.duePrunes timeouts asOf)
  exact .of_sameOwn self.own self.stopped

/-- An operation either defends the own row, or is the node's own change of it. -/
theorem Sound.perform_cases (sound : table.Sound) (operation : Operation) :
    Defends table (table.perform operation) ∨
      (∃ payload, operation = .setMetadata payload) ∨
      (∃ now, operation = .leave now ∧ table.stopped = false) := by
  cases operation with
  | apply now name status clock metadata =>
    exact Or.inl (sound.defends_update .strict now name status clock metadata)
  | merge now source entry =>
    have recorded := sound.recordAck source entry.name entry.clock
    have noted : Defends table (table.recordAck source entry.name entry.clock) :=
      .of_sameOwn rfl rfl
    exact Or.inl (noted.trans (recorded.defends_update .lenient now entry.name entry.status
      entry.clock entry.metadata))
  | observe clock => exact Or.inl (.of_sameOwn rfl rfl)
  | tick => exact Or.inl (.of_sameOwn rfl rfl)
  | recordAcks peer acks => exact Or.inl (defends_recordAcks table peer acks)
  | expire wall asOf timeouts => exact Or.inl (sound.defends_expire wall asOf timeouts)
  | setMetadata payload => exact Or.inr (Or.inl ⟨payload, rfl⟩)
  | leave now =>
    cases stopped : table.stopped with
    | false => exact Or.inr (Or.inr ⟨now, rfl, rfl⟩)
    | true =>
      have same : table.perform (.leave now) = table := by
        simp [Table.perform, Table.leave, stopped]
      rw [same]
      exact Or.inl (.of_sameOwn rfl rfl)
  | insert name now =>
    have self := sameSelf_insert table name now
    exact Or.inl (.of_sameOwn self.own self.stopped)
  | takeInserted => exact Or.inl (.of_sameOwn rfl rfl)

theorem own_leave (present : table.stopped = false) (now : Instant) :
    (table.leave now).table.own =
      { table.own with clock := table.clock + 1, status := .offline, statusTime := now } := by
  simp [Table.leave, present, Table.tick]

/-- Whatever happens, the own row beats what it said before. -/
theorem Sound.beats_perform (sound : table.Sound) (operation : Operation) :
    (table.perform operation).own.Beats table.own.entry.claim := by
  rcases sound.perform_cases operation with defends | ⟨payload, rfl⟩ | ⟨now, rfl, present⟩
  · exact defends.beats
  · apply Or.inl
    rw [Table.perform, sound.own_setMetadata]
    exact Nat.lt_succ_of_le sound.ownSeen
  · apply Or.inl
    rw [Table.perform, own_leave present]
    exact Nat.lt_succ_of_le sound.ownSeen

/-- A claim about the node itself is beaten as soon as the node is told. -/
theorem beats_claim_update
    (table : Table)
    (policy : Policy)
    (now : Instant)
    (status : Status)
    (clock : Nat)
    (metadata : Option Metadata) :
    (table.update policy now table.own.name status clock metadata).table.own.Beats
      { name := table.own.name, clock, status } := by
  rw [own_update_own, Member.answering]
  split
  · rename_i settled
    rcases settled with older | ⟨said, same⟩
    · exact Or.inl older
    · exact Or.inr ⟨same, said⟩
  · exact Or.inl (Nat.lt_succ_of_le (Nat.le_max_right _ _))

theorem beats_claim_perform
    {operation : Operation}
    {claim : Claim}
    (told : operation.claim? = some claim)
    (about : claim.name = table.own.name) :
    (table.perform operation).own.Beats claim := by
  cases operation with
  | apply now name status clock metadata =>
    cases told
    cases about
    exact beats_claim_update table .strict now status clock metadata
  | merge now source entry =>
    cases told
    have own : entry.name = (table.recordAck source entry.name entry.clock).own.name := about
    have beats := beats_claim_update (table.recordAck source entry.name entry.clock) .lenient now
      entry.status entry.clock entry.metadata
    rw [← own] at beats
    exact beats
  | observe | tick | recordAcks | expire | setMetadata | leave | insert | takeInserted => cases told

/-- A claim that is beaten already changes nothing. -/
theorem Sound.update_of_beats
    (sound : table.Sound)
    (policy : Policy)
    (now : Instant)
    {claim : Claim}
    (about : claim.name = table.own.name)
    (beats : table.own.Beats claim)
    (metadata : Option Metadata) :
    (table.update policy now claim.name claim.status claim.clock metadata).table = table := by
  have settled : claim.clock < table.own.clock ∨
      claim.status = table.own.status ∧ claim.clock = table.own.clock :=
    beats.imp id And.symm
  have seen : claim.clock ≤ table.clock := by
    rcases beats with older | ⟨same, -⟩
    · exact Nat.le_trans (Nat.le_of_lt older) sound.ownSeen
    · exact Nat.le_trans (Nat.le_of_eq same) sound.ownSeen
  have observed : table.observe claim.clock = table := by
    rw [Table.observe, Nat.max_eq_left seen]
  rw [about, update_own, refute_eq, observed, if_pos settled]

theorem Sound.perform_of_beats
    (sound : table.Sound)
    {operation : Operation}
    {claim : Claim}
    (told : operation.claim? = some claim)
    (about : claim.name = table.own.name)
    (beats : table.own.Beats claim) :
    (table.perform operation).own = table.own ∧
      (table.perform operation).other? = table.other? := by
  cases operation with
  | apply now name status clock metadata =>
    cases told
    have same := sound.update_of_beats .strict now about beats metadata
    rw [Table.perform, Table.apply, same]
    exact ⟨rfl, rfl⟩
  | merge now source entry =>
    cases told
    have recorded := sound.recordAck source entry.name entry.clock
    have same := recorded.update_of_beats .lenient now about beats entry.metadata
    have merged : table.perform (.merge now source entry) =
        table.recordAck source entry.name entry.clock := same
    rw [merged]
    exact ⟨rfl, other?_congr rfl rfl⟩
  | observe | tick | recordAcks | expire | setMetadata | leave | insert | takeInserted => cases told

end Step

/-! ## Whole lives -/

section Life

variable {table : Table}

theorem Sound.name_perform (sound : table.Sound) (operation : Operation) :
    (table.perform operation).own.name = table.own.name := by
  rcases sound.perform_cases operation with defends | ⟨payload, rfl⟩ | ⟨now, rfl, present⟩
  · exact defends.name
  · rw [Table.perform, sound.own_setMetadata]
  · rw [Table.perform, own_leave present]

/-- A node is online until it leaves, and offline from then on. -/
def Announced (table : Table) : Prop :=
  table.own.status = if table.stopped then .offline else .online

theorem Sound.announced_perform
    (sound : table.Sound)
    (announced : table.Announced)
    (operation : Operation) :
    (table.perform operation).Announced := by
  rcases sound.perform_cases operation with defends | ⟨payload, rfl⟩ | ⟨now, rfl, present⟩
  · rw [Announced, defends.status, defends.stopped]
    exact announced
  · have status : (table.perform (.setMetadata payload)).own.status = table.own.status := by
      rw [Table.perform, sound.own_setMetadata]
    rw [Announced, status]
    exact announced
  · rw [Announced, Table.perform, own_leave present]
    simp [Table.leave, present]

theorem Sound.announced_performAll
    (sound : table.Sound)
    (announced : table.Announced)
    (operations : List Operation) :
    (table.performAll operations).Announced := by
  induction operations generalizing table with
  | nil => exact announced
  | cons operation rest step =>
    exact step (sound.perform operation) (sound.announced_perform announced operation)

theorem stopped_start
    (name : MemberName)
    (metadata : Bytes)
    (seeds : List MemberName)
    (now : Instant) :
    (start name metadata seeds now).stopped = false :=
  (sameOutsideArena_insertAll _ now _).stopped

theorem Sound.stopped_perform (sound : table.Sound) (operation : Operation) :
    (table.perform operation).stopped = true ↔
      table.stopped = true ∨ ∃ now, operation = .leave now := by
  by_cases leaves : ∃ now, operation = .leave now
  · rcases leaves with ⟨now, rfl⟩
    cases stopped : table.stopped <;> simp [Table.perform, Table.leave, stopped]
  · have same : (table.perform operation).stopped = table.stopped := by
      rcases sound.perform_cases operation with defends | ⟨payload, rfl⟩ | ⟨now, rfl, -⟩
      · exact defends.stopped
      · rfl
      · exact absurd ⟨now, rfl⟩ leaves
    simp [same, leaves]

theorem Sound.stopped_performAll (sound : table.Sound) (operations : List Operation) :
    (table.performAll operations).stopped = true ↔
      table.stopped = true ∨ ∃ now, Operation.leave now ∈ operations := by
  induction operations generalizing table with
  | nil => simp
  | cons operation rest step =>
    rw [performAll_cons, step (sound.perform operation), sound.stopped_perform operation, or_assoc]
    simp only [List.mem_cons, exists_or]
    constructor
    · rintro (before | ⟨now, rfl⟩ | later)
      · exact Or.inl before
      · exact Or.inr (Or.inl ⟨now, rfl⟩)
      · exact Or.inr (Or.inr later)
    · rintro (before | ⟨now, same⟩ | later)
      · exact Or.inl before
      · exact Or.inr (Or.inl ⟨now, same.symm⟩)
      · exact Or.inr (Or.inr later)

theorem Sound.beats_performAll (sound : table.Sound) (operations : List Operation) :
    (table.performAll operations).own.Beats table.own.entry.claim := by
  induction operations generalizing table with
  | nil => exact Or.inr ⟨rfl, rfl⟩
  | cons operation rest step =>
    exact (sound.beats_perform operation).trans (step (sound.perform operation))

theorem Sound.metadata_performAll
    (sound : table.Sound)
    {operations : List Operation}
    (kept : ∀ payload : Bytes, Operation.setMetadata payload ∉ operations) :
    (table.performAll operations).own.metadata = table.own.metadata := by
  induction operations generalizing table with
  | nil => rfl
  | cons operation rest step =>
    have later := step (sound.perform operation) fun payload member =>
      kept payload (List.mem_cons_of_mem _ member)
    rw [performAll_cons, later]
    rcases sound.perform_cases operation with defends | ⟨payload, rfl⟩ | ⟨now, rfl, present⟩
    · exact defends.metadata
    · exact absurd List.mem_cons_self (kept payload)
    · rw [Table.perform, own_leave present]

theorem Sound.name_performAll (sound : table.Sound) (operations : List Operation) :
    (table.performAll operations).own.name = table.own.name := by
  induction operations generalizing table with
  | nil => rfl
  | cons operation rest step =>
    exact (step (sound.perform operation)).trans (sound.name_perform operation)

end Life

/--
Nobody but the node itself changes its row.  In the life of a table, the own status is online
as long as the node has not left, and offline ever after; the own metadata change only when
the node sets them; and the own row beats every claim about the node from the moment the node
is told the claim.  A claim that the row beats already changes no row at all.
-/
theorem own_row_is_defended
    (name : MemberName)
    (metadata : Bytes)
    (seeds : List MemberName)
    (startedAt : Instant)
    (operations : List Operation) :
    let before := start name metadata seeds startedAt
    let table := before.performAll operations
    (table.own.status = .online ↔ ∀ now, Operation.leave now ∉ operations) ∧
    (table.own.status = .offline ↔ ∃ now, Operation.leave now ∈ operations) ∧
    (∀ earlier later, operations = earlier ++ later →
      (∀ payload, Operation.setMetadata payload ∉ later) →
      table.own.metadata = (before.performAll earlier).own.metadata) ∧
    (∀ earlier operation later claim, operations = earlier ++ operation :: later →
      operation.claim? = some claim → claim.name = name →
      claim.clock < table.own.clock ∨
        claim.clock = table.own.clock ∧ claim.status = table.own.status) ∧
    (∀ operation claim, operation.claim? = some claim → claim.name = name →
      claim.clock < table.own.clock ∨
        claim.clock = table.own.clock ∧ claim.status = table.own.status →
      (table.perform operation).own = table.own ∧
        ∀ other, (table.perform operation).other? other = table.other? other) := by
  intro before table
  have started : before.Sound := sound_start name metadata seeds startedAt
  have sound : table.Sound := started.performAll operations
  have named : table.own.name = name := by
    rw [started.name_performAll operations, own_start]
  have present : before.stopped = false := stopped_start name metadata seeds startedAt
  have announced : table.Announced := by
    have first : before.Announced := by
      rw [Announced, present, own_start]
      rfl
    exact started.announced_performAll first operations
  have left : table.stopped = true ↔ ∃ now, Operation.leave now ∈ operations := by
    have stopped := started.stopped_performAll operations
    rwa [present, or_iff_right Bool.false_ne_true] at stopped
  refine ⟨?_, ?_, ?_, ?_, ?_⟩
  · rw [announced, ← not_exists, ← left]
    cases table.stopped <;> simp
  · rw [announced, ← left]
    cases table.stopped <;> simp
  · rintro earlier later rfl kept
    have whole : table = (before.performAll earlier).performAll later := performAll_append _ _ _
    rw [whole]
    exact (started.performAll earlier).metadata_performAll kept
  · rintro earlier operation later claim rfl told about
    have whole : table = ((before.performAll earlier).perform operation).performAll later :=
      performAll_append _ _ _
    have sofar := started.performAll earlier
    have own : claim.name = (before.performAll earlier).own.name := by
      rw [started.name_performAll earlier, own_start]
      exact about
    rw [whole]
    exact (beats_claim_perform told own).trans
      ((sofar.perform operation).beats_performAll later)
  · intro operation claim told about beats
    rcases sound.perform_of_beats told (about.trans named.symm) beats with ⟨own, others⟩
    exact ⟨own, fun other => congrFun others other⟩

/--
A node is told to be suspect, leaves, and is told something older: its row is newer than both
claims, offline, and left alone by the older one.
-/
theorem own_row_is_defended_departure :
    let name : MemberName := { text := "10.0.0.1:7946" }
    let suspicion : Operation := .apply 0 name .suspect 5 none
    let older : Operation := .merge 9 name { name, clock := 2, status := .online, metadata := none }
    let before := start name [] [] 0
    let table := before.performAll [suspicion, .tick, .leave 3]
    table.own.status = .offline ∧ table.own.metadata = before.own.metadata ∧
      (5 < table.own.clock ∨ 5 = table.own.clock ∧ .suspect = table.own.status) ∧
      (table.perform older).own = table.own := by
  intro name suspicion older before table
  rcases own_row_is_defended name [] [] 0 [suspicion, .tick, .leave 3] with
    ⟨-, offline, metadata, beaten, settled⟩
  have left : table.own.status = .offline := offline.2 ⟨3, by simp⟩
  have told : 5 < table.own.clock ∨ 5 = table.own.clock ∧ .suspect = table.own.status :=
    beaten [] suspicion [.tick, .leave 3] _ rfl rfl rfl
  have aged : 2 < table.own.clock ∨ 2 = table.own.clock ∧ .online = table.own.status := by
    rcases told with newer | ⟨same, -⟩
    · exact Or.inl (by omega)
    · exact Or.inl (by omega)
  refine ⟨left, ?_, told, (settled older _ rfl rfl aged).1⟩
  exact metadata [] [suspicion, .tick, .leave 3] rfl (by simp [suspicion])

end Table

end ClusterMembership
