import ClusterMembership.Proofs.Table.Handshake
import ClusterMembership.Proofs.Table.Notices

/-!
# Replays change nothing

Datagrams may be delivered twice, and the second time may be long after the first.  A table that
has merged an entry is past it, `Table.Past`: its row of the member is as new as the entry in
status and in metadata, or, where the entry is about the node itself, the own row beats the
claim.  Whatever is done with the table, it stays past the entry until the member is dropped,
and a table that is past an entry takes nothing of it.

What a replay may still change is one ack: another peer has the entry now too.  If it is the
peer that told the entry first, its ack is there already, `Table.Confirmed`, unless the peer was
dropped in between.
-/

namespace ClusterMembership

/-- A row is as new as an entry, in status and in metadata. -/
structure Member.IsPast (member : Member) (entry : GossipEntry) : Prop where
  clock : entry.clock ≤ member.clock
  metadata : entry.metadataClock ≤ member.metadata.clock

namespace Member

variable {member : Member} {entry : GossipEntry}

theorem IsPast.later
    {later : Member}
    (past : member.IsPast entry)
    (follows : later.Follows member) :
    later.IsPast entry :=
  ⟨Nat.le_trans past.clock follows.clock, Nat.le_trans past.metadata follows.metadataClock_le⟩

/-- A row that took an entry is past it. -/
theorem isPast_updated (member : Member) (now : Instant) (entry : GossipEntry) :
    (member.updated .lenient now entry.status entry.clock entry.metadata).IsPast entry := by
  have joined := member.entry_updated .lenient now entry.status entry.clock entry.metadata
  rw [if_neg (by simp [Table.Policy.rejects])] at joined
  constructor
  · have clock := congrArg GossipEntry.clock joined
    rw [GossipEntry.clock_join] at clock
    exact Nat.le_trans (Nat.le_max_right _ _) (Nat.le_of_eq clock.symm)
  · have metadata := congrArg GossipEntry.metadataClock joined
    rw [metadataClock_entry, GossipEntry.metadataClock_join] at metadata
    exact Nat.le_trans (Nat.le_max_right _ _) (Nat.le_of_eq metadata.symm)

/-- A row that is past an entry takes nothing of it. -/
theorem IsPast.updated (past : member.IsPast entry) (now : Instant) :
    member.accept entry.status entry.clock now = member ∧
      member.mergeMetadata? entry.metadata = member := by
  constructor
  · simp [accept, isOlderThan, Nat.not_lt_of_le past.clock]
  · have clock := past.metadata
    rw [GossipEntry.metadataClock] at clock
    cases told : entry.metadata with
    | none => rfl
    | some metadata =>
      rw [told] at clock
      have held : metadata.clock ≤ member.metadata.clock := clock
      simp [mergeMetadata?, mergeMetadata, Nat.not_lt_of_le held]

end Member

namespace Table

variable
    {table : Table}
    {entry : GossipEntry}
    {operation : Operation}
    {operations : List Operation}
    {peer name : MemberName}
    {clock : Nat}

/-! ## Tables that are past an entry -/

/-- The own row beats the claim of an entry, or the row of the other member is past the entry. -/
inductive Past (table : Table) (entry : GossipEntry) : Prop where
  | own (about : entry.name = table.own.name) (beats : table.own.Beats entry.claim)
  | other (row : Member) (known : table.other? entry.name = some row) (past : row.IsPast entry)

theorem Sound.past_merge
    (sound : table.Sound)
    (now : Instant)
    (source : MemberName)
    (entry : GossipEntry) :
    (table.merge now source entry).table.Past entry := by
  by_cases about : entry.name = table.own.name
  · have told : (Operation.merge now source entry).claim? = some entry.claim := rfl
    exact .own (about.trans (sound.name_perform (.merge now source entry)).symm)
      (beats_claim_perform told about)
  · have merged := sound.other?_merge now source about entry.name
    rw [if_pos rfl] at merged
    exact .other _ merged (Member.isPast_updated _ now entry)

/-- A member that an operation does not drop keeps a row, which follows what it was. -/
theorem Reachable.follows_perform
    (reachable : table.Reachable)
    {row : Member}
    (known : table.other? name = some row)
    (kept : name ∉ table.dropped operation) :
    ∃ later, (table.perform operation).other? name = some later ∧ later.Follows row := by
  have sound := reachable.sound
  have moves := reachable.rowMoves_other operation name
  have held : table.handle? name ≠ none := by
    rw [ne_eq, sound.handle?_eq_none_iff, known]
    exact Option.some_ne_none row
  have still : (table.perform operation).handle? name ≠ none := by
    rcases reachable.timely.turnover operation with ⟨enrolled, handle, enrols, -, -⟩ | ⟨handles, -⟩
    · rw [enrols.handles]
      split
      · exact Option.some_ne_none handle
      · exact held
    · rw [handles, if_neg kept]
      exact held
  rw [ne_eq, (sound.perform operation).handle?_eq_none_iff] at still
  rcases Option.ne_none_iff_exists'.1 still with ⟨later, found⟩
  rw [known, found] at moves
  have moved : row.Moves operation.instant? later := moves
  exact ⟨later, found, moved.toFollows⟩

theorem Past.perform
    (past : table.Past entry)
    (reachable : table.Reachable)
    (kept : entry.name ∉ table.dropped operation) :
    (table.perform operation).Past entry := by
  have sound := reachable.sound
  cases past with
  | own about beats =>
    exact .own (about.trans (sound.name_perform operation).symm)
      (beats.trans (sound.beats_perform operation))
  | other row known past =>
    rcases reachable.follows_perform known kept with ⟨later, found, follows⟩
    exact .other later found (past.later follows)

theorem Past.performAll
    (past : table.Past entry)
    (reachable : table.Reachable)
    (keeps : table.Keeps operations entry.name) :
    (table.performAll operations).Past entry := by
  induction operations generalizing table with
  | nil => exact past
  | cons operation rest step =>
    exact step (past.perform reachable keeps.first) (reachable.perform operation) keeps.rest

/-- An update that the table is past changes nothing and says nothing. -/
theorem Past.update
    (past : table.Past entry)
    (timely : table.Timely)
    (now : Instant) :
    table.update .lenient now entry.name entry.status entry.clock entry.metadata =
      { answer := .ok false, table, changes := [] } := by
  cases past with
  | own about beats =>
    have same := timely.update_of_beats .lenient now about beats entry.metadata
    have told := @update_own table .lenient now entry.status entry.clock entry.metadata
    have table : (table.observe entry.clock).refute entry.status entry.clock = table := by
      rw [show entry.claim.name = table.own.name from about, update_own] at same
      exact same
    rw [about, told, table]
  | other row known past =>
    have foreign := timely.foreign_of_other? known
    have named : row.name = entry.name := (timely.other?_eq_some_iff.1 known).2
    have rows : table.rowFor entry.name now = row := by rw [rowFor, known, Option.getD_some]
    have observed : table.observe entry.clock = table := by
      rw [Table.observe, Nat.max_eq_left (Nat.le_trans past.clock (timely.other_clock_le known))]
    have found : table.other? row.name = some row := by
      rw [named]
      exact known
    rcases past.updated now with ⟨moved, merged⟩
    have older : row.isOlderThan entry.clock = false :=
      decide_eq_false (Nat.not_lt_of_le past.clock)
    rw [timely.update_eq_of_foreign _ _ _ _ _ foreign, rows, observed,
      timely.insert_known now known]
    dsimp only
    rw [moved, merged, setOther_self found, older]
    simp [Policy.rejects]

/-- Merging an entry that the table is past records the receipt of it, and that is all. -/
theorem Past.merge
    (past : table.Past entry)
    (timely : table.Timely)
    (now : Instant)
    (source : MemberName) :
    table.merge now source entry =
      { answer := false
        table := table.recordAck source entry.name entry.clock
        changes := [] } := by
  have recorded : (table.recordAck source entry.name entry.clock).Past entry := by
    cases past with
    | own about beats => exact .own about beats
    | other row known past => exact .other row known past
  rw [Table.merge, recorded.update (timely.recordAck source entry.name entry.clock) now]

/-! ## Acks that stay -/

/-- A peer is known to hold a member at a clock or newer. -/
def Confirmed (table : Table) (peer name : MemberName) (clock : Nat) : Prop :=
  ∃ held, table.acks[(peer, name)]? = some held ∧ clock ≤ held

/-- An ack that is there already need not be recorded. -/
theorem Confirmed.recordAck_eq (confirmed : table.Confirmed peer name clock) :
    table.recordAck peer name clock = table := by
  rcases confirmed with ⟨held, found, newer⟩
  have same : table.acks.insert (peer, name) held = table.acks := by
    ext1 queried
    rw [Std.ExtHashMap.getElem?_insert]
    split
    · rename_i here
      rw [← eq_of_beq here, found]
    · rfl
  have level : max (table.acked peer name) clock = held := by
    rw [acked, found]
    exact Nat.max_eq_left newer
  rw [recordAck, level, same]

theorem Confirmed.recordAck
    (confirmed : table.Confirmed peer name clock)
    (source about : MemberName)
    (told : Nat) :
    (table.recordAck source about told).Confirmed peer name clock := by
  rcases confirmed with ⟨held, found, newer⟩
  rw [Confirmed, Table.recordAck, Std.ExtHashMap.getElem?_insert]
  split
  · rename_i here
    rcases Prod.mk.inj (eq_of_beq here) with ⟨rfl, rfl⟩
    refine ⟨_, rfl, ?_⟩
    rw [acked, found]
    exact Nat.le_trans newer (Nat.le_max_left held told)
  · exact ⟨held, found, newer⟩

theorem confirmed_recordAck (table : Table) (peer name : MemberName) (clock : Nat) :
    (table.recordAck peer name clock).Confirmed peer name clock := by
  rw [Confirmed, recordAck, Std.ExtHashMap.getElem?_insert, if_pos (beq_self_eq_true _)]
  exact ⟨_, rfl, Nat.le_max_right _ _⟩

theorem Confirmed.of_sameAcks
    {later : Table}
    (confirmed : table.Confirmed peer name clock)
    (same : later.acks = table.acks) :
    later.Confirmed peer name clock := by
  rw [Confirmed, same]
  exact confirmed

theorem Confirmed.recordAcks
    (confirmed : table.Confirmed peer name clock)
    (source : MemberName)
    (acks : List EntryAck) :
    (table.recordAcks source acks).Confirmed peer name clock := by
  induction acks generalizing table with
  | nil => exact confirmed
  | cons ack rest step => exact step (confirmed.recordAck source ack.name ack.clock)

/-- Dropping others takes no ack by a peer that stays about a member that stays. -/
theorem Confirmed.pruneAll
    (confirmed : table.Confirmed peer name clock)
    {names : List MemberName}
    (peerStays : peer ∉ names)
    (nameStays : name ∉ names) :
    (names.foldl Table.prune table).Confirmed peer name clock := by
  rcases confirmed with ⟨held, found, newer⟩
  refine ⟨held, ?_, newer⟩
  rw [getElem?_acks_pruneAll, if_neg (not_or.2 ⟨peerStays, nameStays⟩)]
  exact found

theorem Sound.acks_advanceAll
    (sound : table.Sound)
    (wall : Instant)
    (steps : List (MemberName × Status)) :
    (table.advanceAll wall steps).table.acks = table.acks := by
  induction steps generalizing table with
  | nil => rfl
  | cons first rest step =>
    have moved := sound.tick.update .strict wall first.1 first.2 table.tick.clock none
    have kept := sound.tick.acks_update .strict wall first.2 table.tick.clock none first.1
    exact (step moved).trans kept

/-- An ack stays until the peer or the member is dropped. -/
theorem Confirmed.perform
    (confirmed : table.Confirmed peer name clock)
    (sound : table.Sound)
    (peerStays : peer ∉ table.dropped operation)
    (nameStays : name ∉ table.dropped operation) :
    (table.perform operation).Confirmed peer name clock := by
  cases operation with
  | apply now about status told metadata =>
    exact confirmed.of_sameAcks (sound.acks_update .strict now status told metadata about)
  | merge now source entry =>
    have recorded := sound.recordAck source entry.name entry.clock
    exact (confirmed.recordAck source entry.name entry.clock).of_sameAcks
      (recorded.acks_update .lenient now entry.status entry.clock entry.metadata entry.name)
  | recordAcks source acks => exact confirmed.recordAcks source acks
  | expire wall asOf timeouts =>
    have advanced := sound.acks_advanceAll wall (table.dueAdvances timeouts asOf)
    exact (confirmed.of_sameAcks advanced).pruneAll peerStays nameStays
  | leave now =>
    refine confirmed.of_sameAcks ?_
    rw [Table.perform, Table.leave]
    split <;> rfl
  | insert about now => exact confirmed.of_sameAcks (sameOutsideArena_insert table about now).acks
  | observe | tick | setMetadata | takeInserted => exact confirmed.of_sameAcks rfl

theorem Confirmed.performAll
    (confirmed : table.Confirmed peer name clock)
    (sound : table.Sound)
    (peerStays : table.Keeps operations peer)
    (nameStays : table.Keeps operations name) :
    (table.performAll operations).Confirmed peer name clock := by
  induction operations generalizing table with
  | nil => exact confirmed
  | cons operation rest step =>
    exact step (confirmed.perform sound peerStays.first nameStays.first)
      (sound.perform operation) peerStays.rest nameStays.rest

/--
An entry that was merged can be merged again at any later time without harm.  After the first
merge anything may be done with the table that does not drop the member.  Then a merge of the
same entry, from whatever source, answers that nothing changed, notifies nobody, and leaves all
of the table but one ack, of the source about the member, which may rise.  Not even that changes
if the source is the one that told the entry first and was not dropped itself.
-/
theorem replays_are_harmless
    (reachable : table.Reachable)
    (entry : GossipEntry)
    (source other : MemberName)
    (first again : Instant)
    (operations : List Operation)
    (kept : (table.merge first source entry).table.Keeps operations entry.name) :
    let merged := (table.merge first source entry).table
    let before := merged.performAll operations
    let replay := before.merge again other entry
    replay.answer = false ∧ replay.changes = [] ∧
    replay.table = { before with acks := replay.table.acks } ∧
    (∀ peer name, ¬(peer = other ∧ name = entry.name) →
      replay.table.acks[(peer, name)]? = before.acks[(peer, name)]?) ∧
    before.acked other entry.name ≤ replay.table.acked other entry.name ∧
    (other = source → merged.Keeps operations source → replay.table = before) := by
  intro merged before replay
  have reached : merged.Reachable := reachable.perform (.merge first source entry)
  have past : before.Past entry :=
    (reachable.sound.past_merge first source entry).performAll reached kept
  have timely : before.Timely := (reached.performAll operations).timely
  have same : replay = _ := past.merge timely again other
  rw [same]
  refine ⟨rfl, rfl, rfl, fun peer name elsewhere => ?others, ?rises, ?unchanged⟩
  case others =>
    rw [recordAck, Std.ExtHashMap.getElem?_insert, if_neg]
    rintro here
    rcases Prod.mk.inj (eq_of_beq here) with ⟨rfl, rfl⟩
    exact elsewhere ⟨rfl, rfl⟩
  case rises =>
    rw [acked_recordAck, if_pos ⟨rfl, rfl⟩]
    exact Nat.le_max_left _ _
  case unchanged =>
    rintro rfl stays
    have told : merged.Confirmed other entry.name entry.clock := by
      have recorded := reachable.sound.recordAck other entry.name entry.clock
      exact (confirmed_recordAck table other entry.name entry.clock).of_sameAcks
        (recorded.acks_update .lenient first entry.status entry.clock entry.metadata entry.name)
    exact (told.performAll reached.sound stays kept).recordAck_eq

/--
A peer tells of itself, is suspected, and the node leaves after an answer to a claim about
itself.  Told the first entry once more, the table does not change at all.
-/
theorem replays_are_harmless_departure :
    let name : MemberName := { text := "10.0.0.1:7946" }
    let peer : MemberName := { text := "10.0.0.2:7946" }
    let greeting : GossipEntry :=
      { name := peer, clock := 5, status := .online,
        metadata := some { clock := 3, payload := some [1] } }
    let operations : List Operation :=
      [.apply 2 peer .suspect 7 none, .apply 3 name .offline 9 none, .leave 4]
    let table := start name [] [peer] 0
    let before := (table.merge 1 peer greeting).table.performAll operations
    (before.merge 8 peer greeting).answer = false ∧
      (before.merge 8 peer greeting).changes = [] ∧
      (before.merge 8 peer greeting).table = before := by
  intro name peer greeting operations table before
  have reachable : table.Reachable := reachable_start name [] [peer] 0
  have kept : (table.merge 1 peer greeting).table.Keeps operations peer := by
    rintro time ⟨operation, performed, dropped⟩
    have among := List.mem_of_getElem? performed
    simp only [operations, List.mem_cons, List.not_mem_nil, or_false] at among
    rcases among with rfl | rfl | rfl <;> cases dropped
  rcases replays_are_harmless reachable greeting peer peer 1 8 operations kept with
    ⟨answer, changes, -, -, -, unchanged⟩
  exact ⟨answer, changes, unchanged rfl kept⟩

end Table

end ClusterMembership
