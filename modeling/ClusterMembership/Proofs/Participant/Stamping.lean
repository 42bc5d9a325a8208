import ClusterMembership.Participant.Probe
import ClusterMembership.Proofs.Table.LogicalClock
import ClusterMembership.Proofs.Table.OwnRow

/-!
# What a node originates takes effect

A node originates an update when a probe changes the status of its target, when a sweep moves
a member on, and when it changes its own row.  Each is stamped with a tick, and each is one
the transition table allows from the status it is made for, so none of them is ever ignored
or turned away.
-/

namespace ClusterMembership

namespace Table

/-- What a handle resolves to is never the row of the node itself. -/
theorem Consistent.foreign_of_resolve?
    {table : Table}
    (consistent : table.Consistent)
    {handle : Handle}
    {row : Member}
    (resolved : table.resolve? handle = some row) :
    row.name ≠ table.own.name := by
  have occupied : table.occupant? handle.index = some row := by
    rcases Option.bind_eq_some_iff.1 resolved with ⟨slot, found, current⟩
    split at current
    · rw [occupant?, found]
      exact current
    · cases current
  have member := (mem_others_iff table row).2 ⟨handle.index, occupied⟩
  exact consistent.foreign_of_other? (consistent.other?_eq_some_iff.2 ⟨member, rfl⟩)

end Table

namespace Participant

variable {state : Participant} {target : MemberName} {answered : Bool} {status : Status}

/-- A node never draws itself for a probe. -/
theorem foreign_of_nextProbe
    (consistent : state.table.Consistent)
    (drawn : (nextProbe state).answer = some target) :
    target ≠ state.name := by
  have synced : (syncTargets state).state.table = { state.table with inserted := [] } := rfl
  rcases Option.map_eq_some_iff.1 drawn with ⟨row, chosen, rfl⟩
  rcases Option.bind_eq_some_iff.1 chosen with ⟨handle, -, resolved⟩
  rw [synced] at resolved
  have rows : Table.Consistent { state.table with inserted := [] } :=
    consistent.of_sameArena rfl rfl rfl rfl
  exact rows.foreign_of_resolve? resolved

/-- The status that a probe gives a member is one the member may move to. -/
theorem permits_of_probedStatus?
    {row : Member}
    (changed : probedStatus? answered row.status = some status) :
    row.permits status := by
  have legal : row.status.canTransition status := by
    cases answered <;> cases current : row.status <;> rw [current] at changed <;>
      cases changed <;> rfl
  simp [Member.permits, legal]

/-- A probe that changes a status is recorded as an update under a tick. -/
theorem table_recordProbe
    {row : Member}
    (known : state.table.find? target = some row)
    (changed : probedStatus? answered row.status = some status)
    (now : Instant) :
    (recordProbe now target answered state).state.table =
      (state.table.tick.apply now target status state.table.tick.clock none).table := by
  simp [recordProbe, Act.state, Act.onTable, bind, pure, known, changed]

theorem find?_recordProbe
    {row : Member}
    (timely : state.table.Timely)
    (foreign : target ≠ state.table.own.name)
    (known : state.table.find? target = some row)
    (changed : probedStatus? answered row.status = some status)
    (now : Instant) :
    (state.table.tick.apply now target status state.table.tick.clock none).answer = .ok true ∧
      ∃ later, (recordProbe now target answered state).state.table.find? target = some later ∧
        later.status = status ∧ later.clock = state.table.clock + 1 := by
  have other : state.table.other? target = some row := by
    rw [← Table.find?_of_foreign foreign]
    exact known
  have newer : row.clock < state.table.clock + 1 := Nat.lt_succ_of_le (timely.other_clock_le other)
  rcases timely.apply_stamped other (permits_of_probedStatus? changed) now with ⟨accepted, found⟩
  refine ⟨accepted, row.accept status (state.table.clock + 1) now, ?_,
    Member.accept_of_lt newer _ _⟩
  have own := timely.tick.own_update .strict now status state.table.tick.clock none target
  have still : target ≠
      (state.table.tick.apply now target status state.table.tick.clock none).table.own.name := by
    rw [Table.apply, own, if_neg (show target ≠ state.table.tick.own.name from foreign)]
    exact foreign
  rw [table_recordProbe known changed, Table.find?_of_foreign still]
  exact found

end Participant

namespace Table

/--
In every table a node may come to have, the logical clock is not behind the own row, its
metadata, or any other row.  So whatever the node originates takes effect: the update for any
outcome of a probe is accepted, every move of a sweep is accepted where its turn comes, new
metadata are installed, and new metadata, a refutation and the departure give the own row a
clock newer than all of them.
-/
theorem originated_updates_take_effect {table : Table} (reachable : table.Reachable) :
    (table.own.clock ≤ table.clock ∧ table.own.metadata.clock ≤ table.clock ∧
      ∀ row ∈ table.members, row.clock ≤ table.clock) ∧
    (∀ state : Participant, state.table = table →
      (∀ target, (Participant.nextProbe state).answer = some target →
        target ≠ table.own.name) ∧
      ∀ (now : Instant) (target : MemberName) (answered : Bool) (row : Member) (status : Status),
        target ≠ table.own.name →
        table.find? target = some row →
        Participant.probedStatus? answered row.status = some status →
        (table.tick.apply now target status table.tick.clock none).answer = .ok true ∧
          ∃ later,
            (Participant.recordProbe now target answered state).state.table.find? target =
              some later ∧
            later.status = status ∧ later.clock = table.clock + 1) ∧
    (∀ (wall asOf : Instant) (timeouts : Timeouts),
      (∀ (done rest : List (MemberName × Status)) (name : MemberName) (status : Status),
        table.dueAdvances timeouts asOf = done ++ (name, status) :: rest →
        let before := (table.advanceAll wall done).table
        (before.tick.apply wall name status before.tick.clock none).answer = .ok true) ∧
      (table.expire wall asOf timeouts).answer =
        (table.dueAdvances timeouts asOf).length + (table.duePrunes timeouts asOf).length ∧
      ∀ (name : MemberName) (status : Status),
        (name, status) ∈ table.dueAdvances timeouts asOf →
        ∃ row, (table.expire wall asOf timeouts).table.other? name = some row ∧
          row.status = status ∧ table.clock < row.clock) ∧
    (∀ payload : Bytes,
      (table.setMetadata payload).table.own.metadata.payload = some payload ∧
        table.IsFresh (table.setMetadata payload).table.own.clock) ∧
    (∀ (now : Instant) (source : MemberName) (entry : GossipEntry),
      entry.name = table.own.name →
      ¬(entry.clock < table.own.clock ∨
        entry.status = table.own.status ∧ entry.clock = table.own.clock) →
      table.IsFresh
        (table.apply now entry.name entry.status entry.clock entry.metadata).table.own.clock ∧
        table.IsFresh (table.merge now source entry).table.own.clock) ∧
    (∀ now : Instant, table.stopped = false → table.IsFresh (table.leave now).table.own.clock) := by
  have timely := reachable.timely
  refine ⟨⟨timely.ownSeen, timely.ownMetadata_le, fun row => timely.clock_le⟩, ?_, ?_, ?_, ?_, ?_⟩
  · rintro state rfl
    constructor
    · intro target drawn
      exact Participant.foreign_of_nextProbe timely.toConsistent drawn
    · intro now target answered row status foreign known changed
      exact Participant.find?_recordProbe timely foreign known changed now
  · intro wall asOf timeouts
    refine ⟨?_, timely.answer_expire, fun name status => timely.other?_expire⟩
    intro done rest name status due
    apply timely.accepted_of_feasible done
    rw [← due]
    exact timely.feasible_dueAdvances timeouts asOf
  · intro payload
    refine ⟨?_, timely.isFresh_setMetadata payload⟩
    rw [timely.own_setMetadata]
  · intro now source entry own contradicts
    constructor
    · exact timely.isFresh_refutation .strict now entry.metadata own contradicts
    · have recorded := timely.recordAck source entry.name entry.clock
      have refuted : (table.recordAck source entry.name entry.clock).IsFresh
          (table.merge now source entry).table.own.clock := by
        rw [table_merge]
        exact recorded.isFresh_refutation .lenient now entry.metadata own contradicts
      exact ⟨refuted.logical, refuted.rows, refuted.ownMetadata⟩
  · intro now present
    exact timely.isFresh_leave present now

/--
A peer is heard of as suspect, with metadata far ahead of its row.  An ack makes it online, a
sweep moves it on, and the node has a fresh stamp for an answer to a claim and for its
departure.
-/
theorem originated_updates_take_effect_suspicion :
    let own : MemberName := { text := "10.0.0.1:7946" }
    let heard : GossipEntry :=
      { name := { text := "10.0.0.2:7946" }, clock := 5, status := .suspect,
        metadata := some { clock := 9, payload := none } }
    let claim : GossipEntry := { name := own, clock := 6, status := .suspect, metadata := none }
    let timeouts : Timeouts := { suspect := 3, unavailable := 3, retention := 3 }
    let table := (start own [] [] 0).performAll [.merge 0 heard.name heard]
    table.Reachable ∧
      (table.tick.apply 1 heard.name .online table.tick.clock none).answer = .ok true ∧
      (∃ row, (table.expire 3 3 timeouts).table.other? heard.name = some row ∧
        row.status = .unavailable ∧ table.clock < row.clock) ∧
      table.IsFresh (table.merge 1 heard.name claim).table.own.clock ∧
      table.IsFresh (table.leave 1).table.own.clock := by
  intro own heard claim timeouts table
  have reachable : table.Reachable := (reachable_start _ _ _ _).performAll _
  have started := sound_start own [] [] 0
  have another : heard.name ≠ (start own [] [] 0).own.name := by
    rw [own_start]
    decide
  have known : table.other? heard.name =
      some { name := heard.name, status := .suspect, clock := 5, statusTime := 0,
             metadata := { clock := 9, payload := none } } := by
    have merged := started.other?_merge 0 heard.name another heard.name
    rw [if_pos rfl, rowFor_start] at merged
    exact merged
  have foreign := reachable.sound.foreign_of_other? known
  have found := known
  rw [← find?_of_foreign foreign] at found
  have same : table.own = (start own [] [] 0).own := by
    have kept := started.own_merge 0 heard.name heard
    rw [if_neg another] at kept
    exact kept
  have present : table.stopped = false := by
    have stopped := started.stopped_performAll [.merge 0 heard.name heard]
    rw [stopped_start] at stopped
    exact Bool.eq_false_iff.2 fun left => by simpa using stopped.1 left
  have due : (heard.name, Status.unavailable) ∈ table.dueAdvances timeouts 3 := by
    rcases reachable.sound.other?_eq_some_iff.1 known with ⟨member, named⟩
    exact mem_dueAdvances_iff.2 ⟨_, member, named, rfl⟩
  rcases originated_updates_take_effect reachable with ⟨-, probes, sweeps, -, refutes, leaves⟩
  let state : Participant := .start {} { signer := { mac := Hmac.mac [0] } } table default
  refine ⟨reachable, ?_, (sweeps 3 3 timeouts).2.2 _ _ due, ?_, leaves 1 present⟩
  · exact ((probes state rfl).2 1 heard.name true _ .online foreign found rfl).1
  · refine (refutes 1 heard.name claim ?_ ?_).2
    · rw [same, own_start]
    · rw [same, own_start]
      decide

end Table

end ClusterMembership
