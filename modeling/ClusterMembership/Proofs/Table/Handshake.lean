import ClusterMembership.Proofs.Table.Merging
import ClusterMembership.Proofs.Table.Progress

/-!
# Recovery by an exchange of entries

A node may have been given up on by another one, or have come back with a clock far behind what
the other one remembers.  Two entries set this right: the node is confronted with what the other
one holds about it, and answers; then it greets the other one with its own entry.  Afterwards
the other one holds the status and the clock that the node has, whatever both went through
before, and the same exchange once more changes nothing.

Metadata are versioned apart.  An answer renews the clock of the own row and not the clock of
its metadata, so a greeting replaces metadata of an earlier life only where they are older.
-/

namespace ClusterMembership

namespace Member

/-- An update that is newer than the row neither in status nor in metadata leaves the row. -/
theorem updated_of_stale
    {member : Member}
    {clock : Nat}
    {metadata : Option Metadata}
    (held : clock ≤ member.clock)
    (known : ∀ told, metadata = some told → told.clock ≤ member.metadata.clock)
    (policy : Table.Policy)
    (now : Instant)
    (status : Status) :
    member.updated policy now status clock metadata = member := by
  have kept : member.accept status clock now = member := by
    simp [accept, isOlderThan, Nat.not_lt_of_le held]
  rw [updated, kept, ite_eq_left_iff]
  intro _
  cases metadata with
  | none => rfl
  | some told => simp [mergeMetadata?, mergeMetadata, Nat.not_lt_of_le (known told rfl)]

/-- Known metadata are part of the entry. -/
theorem metadata_entry {member : Member} (known : 0 < member.metadata.clock) :
    member.entry.metadata = some member.metadata := by
  simp [entry, Metadata.isUnknown, Nat.ne_of_gt known]

end Member

/-- Of what a row says and a claim that it beats, the row is the newer one. -/
theorem Member.Beats.newest
    {member : Member}
    {claim : Claim}
    (beats : member.Beats claim)
    (about : claim.name = member.name) :
    newest Claim.clock claim [member.entry.claim] = member.entry.claim := by
  rw [newest_cons, newest_nil, ite_eq_left_iff, Nat.not_lt]
  intro held
  rcases beats with older | ⟨clock, status⟩
  · exact absurd held (Nat.not_le_of_lt older)
  · rcases claim with ⟨name, stamp, said⟩
    cases about
    cases clock
    cases status
    rfl

namespace Table

variable {table peer node : Table}

/-! ## Updates that change nothing -/

/-- Setting a row to what it is changes nothing. -/
theorem setOther_self
    {row : Member}
    (known : table.other? row.name = some row) :
    table.setOther row = table := by
  rcases Option.bind_eq_some_iff.1 known with ⟨index, indexed, occupied⟩
  rcases Option.bind_eq_some_iff.1 occupied with ⟨slot, found, holds⟩
  have slots : table.slots.modify index (fun slot => { slot with occupant := some row }) =
      table.slots := by
    apply Array.ext_getElem?
    intro queried
    rw [Array.getElem?_modify]
    split
    · rename_i same
      subst same
      rw [found, Option.map_some, ← holds]
    · rfl
  rw [Table.setOther, indexed]
  simp only [slots]

theorem Consistent.merge_of_stale
    (consistent : table.Consistent)
    {entry : GossipEntry}
    {row : Member}
    (known : table.other? entry.name = some row)
    (held : entry.clock ≤ row.clock)
    (metadata : ∀ told, entry.metadata = some told → told.clock ≤ row.metadata.clock)
    (now : Instant)
    (source : MemberName) :
    (table.merge now source entry).table.members = table.members := by
  have foreign : entry.name ≠ (table.recordAck source entry.name entry.clock).own.name :=
    consistent.foreign_of_other? known
  have recorded : (table.recordAck source entry.name entry.clock).Consistent :=
    consistent.of_sameArena rfl rfl rfl rfl
  have found : ((table.recordAck source entry.name entry.clock).observe entry.clock).other?
      entry.name = some row := known
  have named : row.name = entry.name := (consistent.other?_eq_some_iff.1 known).2
  have rows : (table.recordAck source entry.name entry.clock).rowFor entry.name now = row := by
    have still : (table.recordAck source entry.name entry.clock).other? entry.name = some row :=
      known
    rw [rowFor, still, Option.getD_some]
  rw [table_merge, recorded.table_update_other _ _ _ _ _ foreign, rows,
    (recorded.observe entry.clock).insert_known now found,
    Member.updated_of_stale held metadata, setOther_self]
  · split <;> rfl
  · rw [named]
    exact found

/-! ## The exchange -/

/-- The table of a node that was told what another one holds about it, if anything. -/
def confronted (table holder : Table) (now : Instant) : Table :=
  match holder.find? table.own.name with
  | none => table
  | some row => (table.merge now holder.own.name row.entry).table

/-- The table of a node that was told what another one says of itself. -/
def greeted (table guest : Table) (now : Instant) : Table :=
  (table.merge now guest.own.name guest.own.entry).table

theorem Sound.confronted (sound : node.Sound) (peer : Table) (now : Instant) :
    (node.confronted peer now).Sound := by
  rw [Table.confronted]
  split
  · exact sound
  · exact sound.merge now peer.own.name _

/-- Being confronted leaves the own row as an operation of others does. -/
theorem Sound.defends_confronted (sound : node.Sound) (peer : Table) (now : Instant) :
    Defends node (node.confronted peer now) := by
  rw [Table.confronted]
  split
  · exact .of_sameOwn rfl rfl
  · rename_i row known
    have recorded := sound.recordAck peer.own.name row.entry.name row.entry.clock
    have noted : Defends node (node.recordAck peer.own.name row.entry.name row.entry.clock) :=
      .of_sameOwn rfl rfl
    exact noted.trans (recorded.defends_update .lenient now row.entry.name row.entry.status
      row.entry.clock row.entry.metadata)

/-- A node that was confronted has an answer to what is held about it. -/
theorem Sound.beats_confronted
    (sound : node.Sound)
    (holder : peer.Consistent)
    (now : Instant) :
    (node.confronted peer now).own.Beats (peer.report node.own.name).claim := by
  rw [Table.confronted, report]
  cases known : peer.find? node.own.name with
  | none => exact Or.inl sound.ownObserved
  | some row =>
    have about : row.entry.claim.name = node.own.name := (holder.find?_eq_some_iff.1 known).2
    have told : (Operation.merge now peer.own.name row.entry).claim? = some row.entry.claim := rfl
    exact beats_claim_perform told about

/-- What the own row beats already changes nothing but the acks. -/
theorem Sound.confronted_of_beats
    (sound : node.Sound)
    (holder : peer.Consistent)
    {row : Member}
    (known : peer.find? node.own.name = some row)
    (beats : node.own.Beats row.entry.claim)
    (now : Instant) :
    node.confronted peer now = node.recordAck peer.own.name row.name row.clock := by
  have about : row.entry.claim.name = node.own.name := (holder.find?_eq_some_iff.1 known).2
  have recorded := sound.recordAck peer.own.name row.name row.clock
  rw [Table.confronted, known]
  exact recorded.update_of_beats .lenient now about beats row.entry.metadata

/-- Every table a node may come to have advertises metadata. -/
theorem Reachable.ownMetadata_known (reachable : table.Reachable) :
    0 < table.own.metadata.clock := by
  rcases reachable with ⟨name, metadata, seeds, now, operations, rfl⟩
  have before : (start name metadata seeds now).row? .own =
      some (start name metadata seeds now).own := rfl
  have after : ((start name metadata seeds now).performAll operations).row? .own =
      some ((start name metadata seeds now).performAll operations).own := rfl
  have follows := (reachable_start name metadata seeds now).follows_performAll before after
  have advertised := follows.metadataClock_le
  rw [own_start] at advertised
  exact advertised

/-- A greeting is about another member. -/
theorem Sound.own_greeted
    (sound : peer.Sound)
    (different : peer.own.name ≠ node.own.name)
    (now : Instant) :
    (peer.greeted node now).own = peer.own := by
  have foreign : node.own.entry.name ≠ peer.own.name := Ne.symm different
  have own := sound.own_merge now node.own.name node.own.entry
  rw [if_neg foreign] at own
  exact own

/--
A table that is greeted by a node holds the newer one of what it held and what the node says,
and apart from it the newer metadata.
-/
theorem Sound.find?_greeted
    (sound : peer.Sound)
    (different : peer.own.name ≠ node.own.name)
    (advertised : 0 < node.own.metadata.clock)
    (now : Instant) :
    ∃ row, (peer.greeted node now).find? node.own.name = some row ∧
      row.entry.claim =
        newest Claim.clock (peer.report node.own.name).claim [node.own.entry.claim] ∧
      row.metadata =
        newest Metadata.clock (peer.metadataOf node.own.name) [node.own.metadata] := by
  have foreign : node.own.entry.name ≠ peer.own.name := Ne.symm different
  have found := sound.other?_merge now node.own.name foreign node.own.name
  rw [if_pos (show node.own.name = node.own.entry.name from rfl)] at found
  have still : node.own.name ≠ (peer.merge now node.own.name node.own.entry).table.own.name := by
    have own : (peer.merge now node.own.name node.own.entry).table.own = peer.own :=
      sound.own_greeted different now
    rw [own]
    exact foreign
  rw [← find?_of_foreign still] at found
  refine ⟨_, found, ?_, ?_⟩
  · have held : (peer.merge now node.own.name node.own.entry).table.report node.own.name =
        (peer.report node.own.name).join node.own.entry :=
      sound.report_merge now node.own.name foreign
    rw [report, found] at held
    rw [← claim_join _ _ (sound.name_report node.own.name).symm]
    exact congrArg GossipEntry.claim held
  · rw [metadata_updated, metadata_rowFor, Member.metadata_entry advertised]
    rfl

/-- After an exchange the peer holds what the node says of itself, and the newer metadata. -/
theorem Reachable.find?_exchanged
    (reachablePeer : peer.Reachable)
    (reachableNode : node.Reachable)
    (different : peer.own.name ≠ node.own.name)
    (first second : Instant) :
    ∃ row, (peer.greeted (node.confronted peer first) second).find? node.own.name = some row ∧
      row.entry.claim = (node.confronted peer first).own.entry.claim ∧
      row.metadata =
        newest Metadata.clock (peer.metadataOf node.own.name) [node.own.metadata] := by
  have sound := reachablePeer.sound
  have defends := reachableNode.sound.defends_confronted peer first
  have beats := reachableNode.sound.beats_confronted sound.toConsistent first
  rw [← defends.name] at different beats ⊢
  have advertised : 0 < (node.confronted peer first).own.metadata.clock := by
    rw [defends.metadata]
    exact reachableNode.ownMetadata_known
  rcases sound.find?_greeted different advertised second with ⟨row, found, claim, metadata⟩
  refine ⟨row, found, ?_, ?_⟩
  · rw [claim, beats.newest (sound.name_report _)]
  · rw [metadata, defends.metadata]

/--
An exchange of two entries restores agreement.  Let a node be confronted with what a peer holds
about it, and then greet the peer.  Whatever the two tables went through before, and whether or
not the peer holds anything, the peer then has the status and the clock of the node's own row;
the node is as present or as departed as before.  The same exchange once more changes no row.
-/
theorem exchange_restores_agreement
    (reachablePeer : peer.Reachable)
    (reachableNode : node.Reachable)
    (different : peer.own.name ≠ node.own.name)
    (first second third fourth : Instant) :
    let answered := node.confronted peer first
    let informed := peer.greeted answered second
    let again := answered.confronted informed third
    answered.own.name = node.own.name ∧ answered.own.status = node.own.status ∧
    (∃ row, informed.find? node.own.name = some row ∧
      row.status = answered.own.status ∧ row.clock = answered.own.clock) ∧
    again.members = answered.members ∧
      (informed.greeted again fourth).members = informed.members := by
  intro answered informed again
  have sound := reachablePeer.sound
  have defends : Defends node answered := reachableNode.sound.defends_confronted peer first
  have soundAnswered : answered.Sound := reachableNode.sound.confronted peer first
  have soundInformed : informed.Sound := sound.merge second answered.own.name answered.own.entry
  rcases reachablePeer.find?_exchanged reachableNode different first second with
    ⟨row, found, said, metadata⟩
  refine ⟨defends.name, defends.status, ⟨row, found, congrArg Claim.status said,
    congrArg Claim.clock said⟩, ?_⟩
  rw [← defends.name] at different found
  -- The node is confronted with its own words, and greets with what is known.
  have echoed : again = answered.recordAck informed.own.name row.name row.clock := by
    refine soundAnswered.confronted_of_beats soundInformed.toConsistent found ?_ third
    rw [said]
    exact Or.inr ⟨rfl, rfl⟩
  have own : again.own = answered.own := by
    rw [echoed]
    rfl
  constructor
  · rw [echoed]
    rfl
  · have still : answered.own.name ≠ informed.own.name := by
      have same : informed.own = peer.own := sound.own_greeted different second
      rw [same]
      exact Ne.symm different
    have known : informed.other? again.own.entry.name = some row := by
      rw [own, ← found, find?_of_foreign still]
      rfl
    refine soundInformed.merge_of_stale known ?_ ?_ fourth again.own.name
    · rw [own]
      exact Nat.le_of_eq (congrArg Claim.clock said).symm
    · intro told present
      have advertised : 0 < answered.own.metadata.clock := by
        rw [defends.metadata]
        exact reachableNode.ownMetadata_known
      rw [own, Member.metadata_entry advertised, defends.metadata] at present
      cases present
      rw [metadata]
      exact le_clock_newest_of_mem Metadata.clock List.mem_cons_self _

/--
A peer suspects a node at clock 7, and the node has just started again: it answers, and the peer
has it online at a newer clock.
-/
theorem exchange_restores_agreement_restart :
    let name : MemberName := { text := "10.0.0.2:7946" }
    let observer : MemberName := { text := "10.0.0.1:7946" }
    let suspicion : GossipEntry := { name, clock := 7, status := .suspect, metadata := none }
    let peer := (start observer [] [] 0).performAll [.merge 1 observer suspicion]
    let node := start name [] [] 9
    peer.Reachable ∧ node.Reachable ∧ peer.own.name ≠ node.own.name ∧
      ∃ row, (peer.greeted (node.confronted peer 10) 11).find? name = some row ∧
        row.status = .online ∧ 7 < row.clock := by
  intro name observer suspicion peer node
  have reachablePeer : peer.Reachable := (reachable_start observer [] [] 0).performAll _
  have reachableNode : node.Reachable := reachable_start name [] [] 9
  have named : node.own.name = name := congrArg Member.name (own_start name [] [] 9)
  have online : node.own.status = .online := congrArg Member.status (own_start name [] [] 9)
  have started := sound_start observer [] [] 0
  have foreign : suspicion.name ≠ (start observer [] [] 0).own.name := by
    rw [own_start]
    decide
  have held : peer.report name = (GossipEntry.blank name).join suspicion := by
    have merged := started.report_merge 1 observer foreign
    rw [report_start_other [] [] 0 (by decide)] at merged
    exact merged
  have different : peer.own.name ≠ node.own.name := by
    have kept := started.own_merge 1 observer suspicion
    rw [if_neg foreign] at kept
    have own : peer.own = (start observer [] [] 0).own := kept
    rw [named, own, own_start]
    decide
  rcases exchange_restores_agreement reachablePeer reachableNode different 10 11 12 13 with
    ⟨-, status, ⟨row, found, said, clock⟩, -, -⟩
  rw [named] at found
  refine ⟨reachablePeer, reachableNode, different, row, found, said.trans (status.trans online), ?_⟩
  have beats := reachableNode.sound.beats_confronted reachablePeer.sound.toConsistent 10
  rw [named, held] at beats
  rw [clock]
  rcases beats with newer | ⟨-, agreed⟩
  · exact newer
  · rw [status, online] at agreed
    cases agreed

/-! ## Metadata -/

theorem Sound.metadataOf_greeted
    (sound : peer.Sound)
    (different : peer.own.name ≠ node.own.name)
    (advertised : 0 < node.own.metadata.clock)
    (now : Instant) :
    (peer.greeted node now).metadataOf node.own.name =
      newest Metadata.clock (peer.metadataOf node.own.name) [node.own.metadata] := by
  rcases sound.find?_greeted different advertised now with ⟨row, found, -, metadata⟩
  have still : node.own.name ≠ (peer.greeted node now).own.name := by
    rw [sound.own_greeted different now]
    exact Ne.symm different
  rw [find?_of_foreign still] at found
  rw [metadataOf, found]
  exact metadata

/-- The table of an observer that heard of a node with some metadata when the node left. -/
def farewell (observer name : MemberName) (metadata : Bytes) : Table :=
  (start observer [] [] 0).greeted ((start name metadata [] 0).leave 1).table 2

section Farewell

variable {observer name : MemberName} (metadata : Bytes)

theorem own_leave_start :
    ((start name metadata [] 0).leave 1).table.own =
      { name, status := .offline, clock := 2, statusTime := 1,
        metadata := { clock := 1, payload := some metadata } } := by
  rw [own_leave (stopped_start name metadata [] 0), own_start, clock_start]

theorem reachable_farewell : (farewell observer name metadata).Reachable :=
  (reachable_start observer [] [] 0).perform (.merge 2 _ _)

theorem ne_own_leave_start (different : observer ≠ name) :
    (start observer [] [] 0).own.name ≠ ((start name metadata [] 0).leave 1).table.own.name := by
  rw [own_start, own_leave_start]
  exact different

theorem name_farewell (different : observer ≠ name) :
    (farewell observer name metadata).own.name = observer := by
  have kept := (sound_start observer [] [] 0).own_greeted (ne_own_leave_start metadata different) 2
  rw [farewell, kept, own_start]

theorem metadataOf_farewell (different : observer ≠ name) :
    (farewell observer name metadata).metadataOf name =
      { clock := 1, payload := some metadata } := by
  have left : ((start name metadata [] 0).leave 1).table.own = _ := own_leave_start metadata
  have advertised : 0 < ((start name metadata [] 0).leave 1).table.own.metadata.clock := by
    rw [left]
    exact Nat.one_pos
  have told := (sound_start observer [] [] 0).metadataOf_greeted
    (ne_own_leave_start metadata different) advertised 2
  have unknown : (start observer [] [] 0).metadataOf name = Metadata.unknown := by
    simp [metadataOf, other?, start]
  rw [left, unknown] at told
  exact told

end Farewell

/--
An exchange carries the metadata that a node advertises to a peer exactly if the peer held older
metadata of the node, none at all, or the same payload already.  Metadata of an earlier life of
the node that are as new as its present ones stay with the peer, whoever answered what: an
answer renews the clock of the row alone.
-/
theorem exchange_carries_metadata_iff
    (reachablePeer : peer.Reachable)
    (reachableNode : node.Reachable)
    (different : peer.own.name ≠ node.own.name)
    (first second : Instant) :
    let answered := node.confronted peer first
    let informed := peer.greeted answered second
    let held := peer.metadataOf node.own.name
    answered.own.metadata = node.own.metadata ∧
    ∃ row, informed.find? node.own.name = some row ∧
      (row.metadata.payload = answered.own.metadata.payload ↔
        held.clock < node.own.metadata.clock ∨ held.payload = node.own.metadata.payload) := by
  intro answered informed held
  have defends : Defends node answered := reachableNode.sound.defends_confronted peer first
  rcases reachablePeer.find?_exchanged reachableNode different first second with
    ⟨row, found, -, metadata⟩
  refine ⟨defends.metadata, row, found, ?_⟩
  rw [metadata, defends.metadata, newest_cons, newest_nil]
  split
  · rename_i older
    exact ⟨fun _ => Or.inl older, fun _ => rfl⟩
  · rename_i newer
    exact (or_iff_right newer).symm

/--
A node that comes back with newer metadata than those of its earlier life has them carried: it
has set them once more in the meantime.
-/
theorem exchange_carries_metadata_renewed :
    let name : MemberName := { text := "10.0.0.2:7946" }
    let observer : MemberName := { text := "10.0.0.1:7946" }
    let peer := farewell observer name [0]
    let node := (start name [1] [] 3).performAll [.setMetadata [2]]
    peer.Reachable ∧ node.Reachable ∧ peer.own.name ≠ node.own.name ∧
      ∃ row, (peer.greeted (node.confronted peer 4) 5).find? name = some row ∧
        row.metadata.payload = some [2] := by
  intro name observer peer node
  have apart : observer ≠ name := by decide
  have own : node.own.metadata = { clock := 2, payload := some [2] } ∧ node.own.name = name := by
    have renewed : node.own = _ := (sound_start name [1] [] 3).own_setMetadata [2]
    rw [renewed, clock_start, own_start]
    exact ⟨rfl, rfl⟩
  have different : peer.own.name ≠ node.own.name := by
    rw [name_farewell [0] apart, own.2]
    exact apart
  have reachablePeer : peer.Reachable := reachable_farewell [0]
  have reachableNode : node.Reachable := (reachable_start name [1] [] 3).performAll _
  rcases exchange_carries_metadata_iff reachablePeer reachableNode different 4 5 with
    ⟨kept, row, found, carried⟩
  rw [own.2, metadataOf_farewell [0] apart, own.1] at carried
  rw [own.2] at found
  refine ⟨reachablePeer, reachableNode, different, row, found,
    (carried.2 (Or.inl (by decide))).trans ?_⟩
  rw [kept, own.1]

/--
A node leaves and comes back with other metadata.  It answers what the observer holds about it,
and greets the observer, and the observer holds the metadata of its earlier life.
-/
theorem exchange_loses_metadata_of_restarted :
    let name : MemberName := { text := "10.0.0.2:7946" }
    let observer : MemberName := { text := "10.0.0.1:7946" }
    let peer := farewell observer name [0]
    let node := start name [1] [] 3
    let answered := node.confronted peer 4
    peer.Reachable ∧ node.Reachable ∧ peer.own.name ≠ node.own.name ∧
      answered.own.metadata.payload = some [1] ∧
      ∃ row, (peer.greeted answered 5).find? name = some row ∧
        row.metadata.payload = some [0] := by
  intro name observer peer node answered
  have apart : observer ≠ name := by decide
  have own : node.own.metadata = { clock := 1, payload := some [1] } ∧ node.own.name = name := by
    rw [own_start]
    exact ⟨rfl, rfl⟩
  have reachablePeer : peer.Reachable := reachable_farewell [0]
  have reachableNode : node.Reachable := reachable_start name [1] [] 3
  have defends : Defends node answered := reachableNode.sound.defends_confronted peer 4
  have kept : answered.own.metadata.payload = some [1] := by
    rw [defends.metadata, own.1]
  have different : peer.own.name ≠ node.own.name := by
    rw [name_farewell [0] apart, own.2]
    exact apart
  rcases reachablePeer.find?_exchanged reachableNode different 4 5 with ⟨row, found, -, metadata⟩
  rw [own.2] at found
  rw [own.2, own.1, metadataOf_farewell [0] apart] at metadata
  exact ⟨reachablePeer, reachableNode, different, kept, row, found,
    congrArg Metadata.payload metadata⟩

end Table

end ClusterMembership
