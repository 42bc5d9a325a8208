import ClusterMembership.Proofs.Table.Growth
import ClusterMembership.Table.Selection
import Mathlib.Logic.Function.Basic

/-!
# Acks repeat what peers told

An ack is recorded only when a peer tells an entry or a receipt, and only at the clock
the peer told.  `Table.Grows` adds this to what `Table.Advances` says: it relates a
table to a later one by the claims that may have been adopted and by the receipts that
may have been recorded in between.  Every operation of a participant on its table is
shown to be such a growth.

`mem_outstanding` says which rows a peer is still sent: the observed ones that it is
not known to hold.
-/

namespace ClusterMembership

namespace Table

/-! ## Recording acks -/

/-- Recording receipts changes the acks and nothing else. -/
theorem recordAcks_eq (table : Table) (peer : MemberName) (acks : List EntryAck) :
    ∃ recorded, table.recordAcks peer acks = { table with acks := recorded } := by
  induction acks generalizing table with
  | nil => exact ⟨table.acks, rfl⟩
  | cons ack rest step =>
    rcases step (table.recordAck peer ack.name ack.clock) with ⟨recorded, same⟩
    exact ⟨recorded, same⟩

theorem acked_recordAck
    (table : Table)
    (peer name : MemberName)
    (clock : Nat)
    (queriedPeer queried : MemberName) :
    (table.recordAck peer name clock).acked queriedPeer queried =
      if queriedPeer = peer ∧ queried = name then
        max (table.acked peer name) clock
      else
        table.acked queriedPeer queried := by
  rw [acked, recordAck, Std.ExtHashMap.getElem?_insert]
  by_cases same : queriedPeer = peer ∧ queried = name
  · rcases same with ⟨rfl, rfl⟩
    simp
  · have other : ¬(peer = queriedPeer ∧ name = queried) :=
      fun equal => same ⟨equal.1.symm, equal.2.symm⟩
    rw [if_neg same, if_neg (by simpa using other), acked]

theorem acked_congr {before after : Table} (acks : after.acks = before.acks) :
    after.acked = before.acked := by
  funext peer name
  rw [acked, acked, acks]

theorem acked_start
    (name : MemberName)
    (metadata : Bytes)
    (seeds : List MemberName)
    (now : Instant)
    (peer queried : MemberName) :
    (start name metadata seeds now).acked peer queried = 0 := by
  simp [acked, acks_start]

/-! ## Growth of a table -/

/-- What peers say they hold: the peer and the receipt. -/
abbrev Receipts : Type := MemberName → EntryAck → Prop

/--
A table grows into another one by adopting some of the given claims and by recording
some of the given receipts.
-/
structure Grows (claims : Claim → Prop) (receipts : Receipts) (before after : Table) : Prop where
  sound : after.Sound
  advances : Advances claims before after
  acks : ∀ peer name : MemberName,
    after.acked peer name = before.acked peer name ∨
      receipts peer { name, clock := after.acked peer name }

namespace Grows

variable {claims : Claim → Prop} {receipts : Receipts} {first second third : Table}

theorem of_sameAcks
    (receipts : Receipts)
    (sound : second.Sound)
    (advances : Advances claims first second)
    (acks : second.acks = first.acks) :
    Grows claims receipts first second :=
  ⟨sound, advances, fun peer name => Or.inl (by rw [acked_congr acks])⟩

theorem refl (claims : Claim → Prop) (receipts : Receipts) (sound : first.Sound) :
    Grows claims receipts first first :=
  of_sameAcks receipts sound (.refl claims first) rfl

theorem mono
    {widerClaims : Claim → Prop}
    {widerReceipts : Receipts}
    (grows : Grows claims receipts first second)
    (claimed : ∀ claim, claims claim → widerClaims claim)
    (received : ∀ peer ack, receipts peer ack → widerReceipts peer ack) :
    Grows widerClaims widerReceipts first second :=
  ⟨grows.sound, grows.advances.mono claimed,
    fun peer name => (grows.acks peer name).imp id (received peer _)⟩

theorem trans
    (before : Grows claims receipts first second)
    (after : Grows claims receipts second third) :
    Grows claims receipts first third := by
  refine ⟨after.sound, before.advances.trans after.advances, fun peer name => ?_⟩
  rcases after.acks peer name with same | told
  · rcases before.acks peer name with unchanged | older
    · exact Or.inl (same.trans unchanged)
    · rw [same]
      exact Or.inr older
  · exact Or.inr told

end Grows

section Operations

variable {table : Table} (now : Instant) (source : MemberName)

/-- Recording one receipt changes acks only. -/
theorem Sound.grows_recordAck (sound : table.Sound) (ack : EntryAck) :
    Grows (fun _ => False) (fun peer told => peer = source ∧ told = ack) table
      (table.recordAck source ack.name ack.clock) := by
  refine ⟨sound.recordAck source ack.name ack.clock, .of_sameReport _ rfl (report_recordAck ..),
    fun peer name => ?_⟩
  rw [acked_recordAck]
  split
  · rename_i same
    rcases same with ⟨rfl, rfl⟩
    rcases Nat.le_total ack.clock (table.acked peer ack.name) with held | newer
    · exact Or.inl (Nat.max_eq_left held)
    · rw [Nat.max_eq_right newer]
      exact Or.inr ⟨rfl, rfl⟩
  · exact Or.inl rfl

/-- Receipts of a peer are recorded, and nothing else changes. -/
theorem Sound.grows_recordAcks (sound : table.Sound) (acks : List EntryAck) :
    Grows (fun _ => False) (fun peer told => peer = source ∧ told ∈ acks) table
      (table.recordAcks source acks) := by
  induction acks generalizing table with
  | nil => exact .refl _ _ sound
  | cons ack rest step =>
    have first := sound.grows_recordAck source ack
    have others := step first.sound
    refine (first.mono (fun _ absurd => absurd) ?_).trans (others.mono (fun _ absurd => absurd) ?_)
    · rintro peer told ⟨here, rfl⟩
      exact ⟨here, List.mem_cons_self⟩
    · rintro peer told ⟨here, member⟩
      exact ⟨here, List.mem_cons_of_mem _ member⟩

/-- Merging an entry adopts at most its claim, and records the receipt of it. -/
theorem Sound.grows_merge (sound : table.Sound) (entry : GossipEntry) :
    Grows (fun claim => claim = entry.claim ∨ claim.name = table.own.name)
      (fun peer told => peer = source ∧ told = entry.ack) table
      (table.merge now source entry).table := by
  have recorded := sound.grows_recordAck source entry.ack
  have kept : (table.merge now source entry).table.acks =
      (table.recordAck source entry.name entry.clock).acks :=
    recorded.sound.acks_update .lenient now entry.status entry.clock entry.metadata entry.name
  refine ⟨sound.merge now source entry, sound.advances_merge now source entry, ?_⟩
  rw [acked_congr kept]
  exact recorded.acks

/-- Merging entries adopts at most their claims, and records the receipt of each. -/
theorem Sound.grows_mergeAll (sound : table.Sound) (entries : List GossipEntry) :
    Grows (fun claim => (∃ entry ∈ entries, claim = entry.claim) ∨ claim.name = table.own.name)
      (fun peer told => peer = source ∧ ∃ entry ∈ entries, told = entry.ack) table
      (table.mergeAll now source entries).table := by
  induction entries generalizing table with
  | nil => exact .refl _ _ sound
  | cons entry rest step =>
    have first := sound.grows_merge now source entry
    have others := step first.sound
    refine (first.mono ?_ ?_).trans (others.mono ?_ ?_)
    · rintro claim (told | own)
      · exact Or.inl ⟨entry, List.mem_cons_self, told⟩
      · exact Or.inr own
    · rintro peer told ⟨here, same⟩
      exact ⟨here, entry, List.mem_cons_self, same⟩
    · rintro claim (⟨told, member, same⟩ | own)
      · exact Or.inl ⟨told, List.mem_cons_of_mem _ member, same⟩
      · exact Or.inr (own.trans first.advances.own)
    · rintro peer told ⟨here, entry, member, same⟩
      exact ⟨here, entry, List.mem_cons_of_mem _ member, same⟩

/-- Every entry of a list that was merged is held, at its clock or newer. -/
theorem Sound.le_clockOf_mergeAll
    (sound : table.Sound)
    {entries : List GossipEntry}
    {entry : GossipEntry}
    (member : entry ∈ entries) :
    entry.clock ≤ (table.mergeAll now source entries).table.clockOf entry.name := by
  induction entries generalizing table with
  | nil => cases member
  | cons first rest step =>
    have merged := sound.merge now source first
    rcases List.mem_cons.1 member with rfl | later
    · exact Nat.le_trans (sound.le_clockOf_merge now source entry)
        ((merged.grows_mergeAll now source rest).advances.clockOf_le entry.name)
    · exact step merged later

end Operations

/-! ## What a peer is still sent -/

variable {table : Table}

theorem mem_outstanding {peer : MemberName} {entry : GossipEntry} :
    entry ∈ table.outstanding peer ↔
      ∃ row ∈ table.members, table.isOutstanding peer row ∧ row.entry = entry := by
  simp only [outstanding, List.mem_mergeSort, List.mem_map, List.mem_filter, and_assoc]

/-- An observed row that a peer is not sent is one the peer has acknowledged. -/
theorem le_acked_of_not_outstanding
    {peer : MemberName}
    {row : Member}
    (member : row ∈ table.members)
    (observed : row.isObserved)
    (omitted : row.entry ∉ table.outstanding peer) :
    row.clock ≤ table.acked peer row.name := by
  by_contra newer
  refine omitted (mem_outstanding.2 ⟨row, member, ?_, rfl⟩)
  simp only [isOutstanding, observed, Bool.true_and, decide_eq_true_eq]
  exact Nat.lt_of_not_le newer

/-- What a peer is sent is what the table reports, at a positive clock. -/
theorem Consistent.report_of_mem_outstanding
    (consistent : table.Consistent)
    {peer : MemberName}
    {entry : GossipEntry}
    (sent : entry ∈ table.outstanding peer) :
    table.report entry.name = entry := by
  rcases mem_outstanding.1 sent with ⟨row, member, -, rfl⟩
  exact consistent.report_of_mem member

/-- A peer that is sent nothing, however much may be sent, has nothing outstanding. -/
theorem outstanding_of_gossip
    {peer : MemberName}
    (settled : ∀ count : Nat, table.gossip peer count = []) :
    table.outstanding peer = [] := by
  have everything := settled (table.outstanding peer).length
  rwa [gossip, List.take_length] at everything

/-- What is reported but not outstanding for a peer, the peer has acknowledged. -/
theorem Sound.clockOf_le_acked_of_omitted
    (sound : table.Sound)
    {peer name : MemberName}
    (omitted : table.report name ∉ table.outstanding peer) :
    table.clockOf name ≤ table.acked peer name := by
  rcases Nat.eq_zero_or_pos (table.clockOf name) with unknown | known
  · rw [unknown]
    exact Nat.zero_le _
  · rcases sound.exists_row_of_clockOf_pos known with ⟨row, member, rfl, observed, reported⟩
    rw [reported] at omitted
    rw [sound.clockOf_of_mem member]
    exact le_acked_of_not_outstanding member observed omitted

/-- With nothing outstanding, a peer has acknowledged every clock the table holds. -/
theorem Sound.clockOf_le_acked
    (sound : table.Sound)
    {peer : MemberName}
    (settled : ∀ count : Nat, table.gossip peer count = [])
    (name : MemberName) :
    table.clockOf name ≤ table.acked peer name := by
  apply sound.clockOf_le_acked_of_omitted
  rw [outstanding_of_gossip settled]
  exact List.not_mem_nil

/-! ## Families of tables -/

/-- Whatever one table of a family has recorded of another one's acks, the other one holds. -/
def AcksHeld {Node : Type} (tables : Node → Table) : Prop :=
  ∀ (holder peer : Node) (name : MemberName),
    (tables holder).acked (tables peer).own.name name ≤ (tables peer).clockOf name

/-- Acks stay held when one table grows by receipts of what is held. -/
theorem AcksHeld.update
    {Node : Type}
    [DecidableEq Node]
    {tables : Node → Table}
    (held : AcksHeld tables)
    {claims : Claim → Prop}
    {receipts : Receipts}
    {node : Node}
    {after : Table}
    (grows : Grows claims receipts (tables node) after)
    (received : ∀ peer ack, receipts (tables peer).own.name ack →
      ack.clock ≤ (tables peer).clockOf ack.name) :
    AcksHeld (Function.update tables node after) := by
  have named : ∀ peer, (Function.update tables node after peer).own.name =
      (tables peer).own.name :=
    (Function.forall_update_iff tables fun peer table => table.own.name = (tables peer).own.name).2
      ⟨grows.advances.own, fun _ _ => rfl⟩
  have newer : ∀ peer, ∀ name, (tables peer).clockOf name ≤
      (Function.update tables node after peer).clockOf name :=
    (Function.forall_update_iff tables fun peer table =>
      ∀ name, (tables peer).clockOf name ≤ table.clockOf name).2
      ⟨grows.advances.clockOf_le, fun _ _ _ => Nat.le_refl _⟩
  intro holder peer name
  rw [named]
  apply Nat.le_trans ?_ (newer peer name)
  by_cases same : holder = node
  · rw [same, Function.update_self]
    rcases grows.acks (tables peer).own.name name with unchanged | told
    · rw [unchanged]
      exact held node peer name
    · exact received peer _ told
  · rw [Function.update_of_ne same]
    exact held holder peer name

end Table

end ClusterMembership
