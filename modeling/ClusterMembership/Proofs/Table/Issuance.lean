import ClusterMembership.Proofs.Table.Handles
import ClusterMembership.Proofs.Table.Handshake
import ClusterMembership.Proofs.Table.Lineage

/-!
# What a node says about itself

Others hold on to an entry until they are told one with a newer clock.  So a node that said two
different things about itself under one clock would leave its peers divided for good.

Every operation leaves an own row that says the same as before, or something under a newer
clock, `Sound.precedes_perform`.  The entries of one life form a chain, in the sense in which
the entries of an owner do.
-/

namespace ClusterMembership

namespace Table

variable {table before after : Table}

/-- A row that was defended says what it said, or says it under a newer clock. -/
theorem Defends.precedes (defends : Defends before after) :
    before.own.entry.Precedes after.own.entry := by
  have metadata : before.own.entry.metadata = after.own.entry.metadata := by
    rw [Member.entry, Member.entry, defends.metadata]
  rcases Nat.lt_or_eq_of_le defends.clock with newer | same
  · exact Or.inr ⟨defends.name.symm, newer, Or.inl metadata⟩
  · left
    rw [Member.entry, Member.entry, defends.name, defends.status, defends.metadata, same]

/-- Whatever is done with a table, its own row is the same entry or one under a newer clock. -/
theorem Sound.precedes_perform (sound : table.Sound) (operation : Operation) :
    table.own.entry.Precedes (table.perform operation).own.entry := by
  rcases sound.perform_cases operation with defends | ⟨payload, rfl⟩ | ⟨now, rfl, -⟩
  · exact defends.precedes
  · exact (sound.renews_setMetadata payload).own
  · exact (sound.renews_leave now).own

theorem Reachable.precedes_tableAt
    (reachable : table.Reachable)
    (operations : List Operation)
    {earlier later : Nat}
    (ordered : earlier ≤ later) :
    (table.tableAt operations earlier).own.entry.Precedes
      (table.tableAt operations later).own.entry := by
  refine reachable.tableAt_induction
    (fun reached => (table.tableAt operations earlier).own.entry.Precedes reached.own.entry)
    ?_ ordered (.refl _)
  intro reached operation sofar precedes
  exact precedes.trans (sofar.sound.precedes_perform operation)

/--
A node never says two different things about itself under one clock.  Take the entries that its
own row makes at two moments of its life.  They carry metadata, and neither the clock nor the
metadata clock of the later one is behind; and if they have one clock, they are one entry.
-/
theorem own_entries_differ_in_clock
    (name : MemberName)
    (metadata : Bytes)
    (seeds : List MemberName)
    (startedAt : Instant)
    (operations : List Operation)
    (first second : Nat) :
    let table := start name metadata seeds startedAt
    let earlier := (table.tableAt operations first).own.entry
    let later := (table.tableAt operations second).own.entry
    (earlier.clock = later.clock → earlier = later) ∧
    (first ≤ second →
      earlier.clock ≤ later.clock ∧
      ∃ older newer, earlier.metadata = some older ∧ later.metadata = some newer ∧
        older.clock ≤ newer.clock) := by
  intro table earlier later
  have reachable : table.Reachable := reachable_start name metadata seeds startedAt
  have carried : ∀ moment, (table.tableAt operations moment).own.entry.metadata =
      some (table.tableAt operations moment).own.metadata :=
    fun moment => Member.metadata_entry (reachable.tableAt operations moment).ownMetadata_known
  constructor
  · intro level
    rcases Nat.le_total first second with ordered | ordered
    · exact (reachable.precedes_tableAt operations ordered).eq_of_clock_le (Nat.le_of_eq level.symm)
    · exact ((reachable.precedes_tableAt operations ordered).eq_of_clock_le
        (Nat.le_of_eq level)).symm
  · intro ordered
    have precedes : earlier.Precedes later := reachable.precedes_tableAt operations ordered
    refine ⟨precedes.clock_le, _, _, carried first, carried second, ?_⟩
    have clocks := precedes.metadataClock_le
    rwa [GossipEntry.metadataClock, GossipEntry.metadataClock, carried first, carried second]
      at clocks

/--
A node is suspected, hears its own answer once more, and leaves.  The echo finds the entry that
the suspicion left, and the departure comes under a newer clock.
-/
theorem own_entries_differ_in_clock_departure :
    let name : MemberName := { text := "10.0.0.1:7946" }
    let peer : MemberName := { text := "10.0.0.2:7946" }
    let echo : GossipEntry := { name, clock := 5, status := .online, metadata := none }
    let operations : List Operation :=
      [.apply 7 name .suspect 4 none, .merge 8 peer echo, .setMetadata [1], .leave 9]
    let table := start name [] [] 5
    (table.tableAt operations 1).own.entry = (table.tableAt operations 2).own.entry ∧
      (table.tableAt operations 2).own.entry.clock ≤ (table.tableAt operations 4).own.entry.clock ∧
      (table.tableAt operations 4).own.entry.status = .offline := by
  intro name peer echo operations table
  have answered := (own_entries_differ_in_clock name [] [] 5 operations 1 2).1 rfl
  have rises := (own_entries_differ_in_clock name [] [] 5 operations 2 4).2 (by decide)
  exact ⟨answered, rises.1, rfl⟩

end Table

end ClusterMembership
