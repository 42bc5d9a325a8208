import ClusterMembership.Participant.Basic
import ClusterMembership.Proofs.Table.Acks

/-!
# Packets say no more than the table holds

A packet is backed by a table when the table answers for all of it: the source is the
node itself, every entry is held at its clock or newer, and so is every member that a
receipt names.  An entry is the report of the node's own table, or one of the entries
it passes on for somebody else.

Fitting entries into datagrams only ever leaves entries out, so a packet that is made
of backed entries is backed, however it is cut.
-/

namespace ClusterMembership

/-- The receipts a packet carries. -/
def Packet.acks (packet : Packet) : List EntryAck :=
  match packet.payload with
  | .gossipAck acks => acks
  | .ping .. | .pingRequest .. | .ack .. | .gossip .. => []

@[simp]
theorem Carrier.acks_wrap (carrier : Carrier) (entries : List GossipEntry) :
    (carrier.wrap entries).acks = [] := by
  cases carrier <;> rfl

/-- The member a carrier speaks for. -/
def Carrier.source : Carrier → MemberName
  | .ping source _ => source
  | .ack source _ => source
  | .gossip source => source

@[simp]
theorem Carrier.source_wrap (carrier : Carrier) (entries : List GossipEntry) :
    (carrier.wrap entries).source = carrier.source := by
  cases carrier <;> rfl

/-! ## Entries in packets -/

namespace Codec

variable {codec : Codec} {carrier : Carrier} {maxSize : Nat} {entries : List GossipEntry}

/-- A fitted packet carries a part of the entries, in order. -/
theorem exists_fitted_eq_wrap
    (codec : Codec)
    (carrier : Carrier)
    (maxSize : Nat)
    (entries : List GossipEntry) :
    ∃ part : List GossipEntry,
      part.Sublist entries ∧ codec.fitted carrier maxSize entries = carrier.wrap part := by
  rw [fitted]
  cases codec.fit carrier maxSize entries with
  | ok count => exact ⟨entries.take count, List.take_sublist count entries, rfl⟩
  | error cause => exact ⟨[], List.nil_sublist entries, rfl⟩

/-- Every packet of a batch carries a part of the entries, in order. -/
theorem exists_eq_wrap_of_mem_batches
    {packets : List Packet}
    (packed : codec.batches carrier maxSize entries = .ok packets)
    {packet : Packet}
    (member : packet ∈ packets) :
    ∃ part : List GossipEntry, part.Sublist entries ∧ packet = carrier.wrap part := by
  induction entries using batches.induct codec carrier maxSize generalizing packets with
  | case1 =>
    rw [batches] at packed
    cases packed
    cases member
  | case2 entry rest cause failed =>
    rw [batches, failed] at packed
    cases packed
  | case3 entry rest none step =>
    rw [batches, none] at packed
    rcases step packed member with ⟨part, sublist, rfl⟩
    exact ⟨part, sublist.cons entry, rfl⟩
  | case4 entry rest more fits step =>
    rw [batches, fits] at packed
    dsimp only at packed
    cases checked : codec.check (carrier.wrap (entry :: rest.take more)) with
    | error cause =>
      rw [checked] at packed
      cases packed
    | ok passed =>
      cases later : codec.batches carrier maxSize (rest.drop more) with
      | error cause =>
        rw [checked, later] at packed
        cases packed
      | ok others =>
        rw [checked, later] at packed
        cases packed
        rcases List.mem_cons.1 member with rfl | tail
        · exact ⟨_, (List.take_sublist more rest).cons_cons entry, rfl⟩
        · rcases step later tail with ⟨part, sublist, rfl⟩
          exact ⟨part, (sublist.trans (List.drop_sublist more rest)).cons entry, rfl⟩

end Codec

/-! ## Backing -/

namespace Table

/-- A table answers for an entry, its own or one that is passed on. -/
structure Backs (passed : List GossipEntry) (table : Table) (entry : GossipEntry) : Prop where
  origin : entry ∈ passed ∨ table.report entry.name = entry
  held : entry.clock ≤ table.clockOf entry.name

variable {passed : List GossipEntry} {table : Table} {entry : GossipEntry}

/-- A table answers for what it reports. -/
theorem Backs.of_report (reported : table.report entry.name = entry) :
    Backs passed table entry := by
  refine ⟨Or.inr reported, Nat.le_of_eq ?_⟩
  rw [clockOf, reported]

theorem backs_own (passed : List GossipEntry) (table : Table) :
    Backs passed table table.own.entry :=
  .of_report (report_own table)

/-- Gossip is what the table reports. -/
theorem Sound.backs_gossip
    (sound : table.Sound)
    {peer : MemberName}
    {count : Nat}
    (sent : entry ∈ table.gossip peer count) :
    Backs passed table entry :=
  .of_report (sound.report_of_mem_outstanding (List.mem_of_mem_take sent))

/-- A table holds entries when it has each of them at its clock or newer. -/
def Holds (entries : List GossipEntry) (table : Table) : Prop :=
  ∀ entry ∈ entries, entry.clock ≤ table.clockOf entry.name

theorem Holds.backs
    (held : Holds passed table)
    (member : entry ∈ passed) :
    Backs passed table entry :=
  ⟨Or.inl member, held entry member⟩

end Table

/-- A table answers for a packet. -/
structure Packet.BackedBy
    (passed : List GossipEntry)
    (table : Table)
    (packet : Packet) :
    Prop where
  source : packet.source = table.own.name
  entries : ∀ entry ∈ packet.entries, Table.Backs passed table entry
  acks : ∀ ack ∈ packet.acks, ack.clock ≤ table.clockOf ack.name

/-- A part of backed entries makes a backed packet. -/
theorem Carrier.backedBy_wrap
    {passed entries part : List GossipEntry}
    {table : Table}
    {carrier : Carrier}
    (source : carrier.source = table.own.name)
    (backed : ∀ entry ∈ entries, Table.Backs passed table entry)
    (sublist : part.Sublist entries) :
    (carrier.wrap part).BackedBy passed table := by
  constructor
  · rw [Carrier.source_wrap]
    exact source
  · intro entry member
    rw [Carrier.entries_wrap] at member
    exact backed entry (sublist.subset member)
  · intro ack member
    rw [Carrier.acks_wrap] at member
    cases member

/-! ## Tables that differ in issued handles only -/

namespace Table

/-- Two tables that differ at most in the handles they issued. -/
def Alike (before after : Table) : Prop :=
  ∃ inserted : List Handle, after = { before with inserted }

namespace Alike

variable {first second third : Table}

theorem refl (table : Table) : Alike table table :=
  ⟨table.inserted, rfl⟩

theorem trans (before : Alike first second) (after : Alike second third) :
    Alike first third := by
  rcases before with ⟨inserted, rfl⟩
  rcases after with ⟨later, rfl⟩
  exact ⟨later, rfl⟩

theorem report (alike : Alike first second) : second.report = first.report := by
  rcases alike with ⟨inserted, rfl⟩
  exact report_congr rfl (other?_congr rfl rfl)

theorem clockOf (alike : Alike first second) : second.clockOf = first.clockOf := by
  funext name
  rw [Table.clockOf, Table.clockOf, alike.report]

theorem own (alike : Alike first second) : second.own = first.own := by
  rcases alike with ⟨inserted, rfl⟩
  rfl

theorem sound (alike : Alike first second) (sound : first.Sound) : second.Sound := by
  rcases alike with ⟨inserted, rfl⟩
  exact sound.of_sameRows rfl rfl rfl rfl (Nat.le_refl _)

theorem backs
    (alike : Alike first second)
    {passed : List GossipEntry}
    {entry : GossipEntry}
    (backs : Backs passed first entry) :
    Backs passed second entry := by
  constructor
  · rw [alike.report]
    exact backs.origin
  · rw [alike.clockOf]
    exact backs.held

theorem backedBy
    (alike : Alike first second)
    {passed : List GossipEntry}
    {packet : Packet}
    (backed : packet.BackedBy passed first) :
    packet.BackedBy passed second := by
  constructor
  · rw [alike.own]
    exact backed.source
  · intro entry member
    exact alike.backs (backed.entries entry member)
  · rw [alike.clockOf]
    exact backed.acks

theorem symm (alike : Alike first second) : Alike second first := by
  rcases alike with ⟨inserted, rfl⟩
  exact ⟨first.inserted, rfl⟩

/-- Tables that are alike grow from the same tables. -/
theorem grows
    (alike : Alike first second)
    (sound : first.Sound)
    (claims : Claim → Prop)
    (receipts : Receipts) :
    Grows claims receipts first second := by
  refine .of_sameAcks receipts (alike.sound sound) ?_ ?_
  · exact .of_sameReport claims (by rw [alike.own]) alike.report
  · rcases alike with ⟨inserted, rfl⟩
    rfl

end Alike

end Table

end ClusterMembership
