import ClusterMembership.Table.Arena

/-!
# Updates of the table

Local transitions are stamped with a tick of the logical clock, which is higher
than every clock the node has seen; received clocks are folded into it.  A row
takes an update only with a strictly newer clock.

`Table.apply` is strict: a newer update whose status the transition table does not
allow is an error.  `Table.merge` takes entries of other nodes and is lenient: the
node that issued the entry moved through the legal steps already, and taking a
newer entry as it is keeps merging independent of the order of arrival.

Nobody changes the node's own row.  A claim about it that is at least as new as
the row and contradicts it is refuted: the row is re-asserted at a higher clock.
-/

namespace ClusterMembership

namespace Table

/-- What an operation answers, the table it leaves, and what subscribers are told. -/
structure Outcome (α : Type) where
  answer : α
  table : Table
  changes : List MemberChange

/-- Advance the logical clock for an update of the node's own. -/
def tick (table : Table) : Table :=
  { table with clock := table.clock + 1 }

/-- Fold a received clock into the logical clock. -/
def observe (table : Table) (clock : Nat) : Table :=
  { table with clock := max table.clock clock }

/-- Answer a claim about the node itself. -/
def refute (table : Table) (status : Status) (clock : Nat) : Table :=
  if clock < table.own.clock then
    table
  else if status = table.own.status ∧ clock = table.own.clock then
    table
  else
    let table := table.tick
    { table with own := { table.own with clock := table.clock } }

/-- How a newer update with a forbidden transition is treated. -/
inductive Policy where
  | strict
  | lenient
  deriving DecidableEq, Inhabited, Repr

/-- Whether a policy turns an update away. -/
def Policy.rejects (policy : Policy) (member : Member) (status : Status) (clock : Nat) : Bool :=
  policy = .strict && member.isOlderThan clock && !member.permits status

/-- Take an update about a member into the table. -/
def update
    (table : Table)
    (policy : Policy)
    (now : Instant)
    (name : MemberName)
    (status : Status)
    (clock : Nat)
    (metadata : Option Metadata) :
    Outcome (Except GossipError Bool) :=
  let table := table.observe clock
  if table.isOwn name then
    { answer := .ok false, table := table.refute status clock, changes := [] }
  else
    let table := (table.insert name now).2
    match table.other? name with
    | none => { answer := .error (.memberNotFound name), table, changes := [] }
    | some member =>
      if policy.rejects member status clock then
        { answer := .error (.invalidTransition name member.status status), table, changes := [] }
      else
        let accepted := member.isOlderThan clock
        let moved := member.accept status clock now
        let merged := moved.mergeMetadata? metadata
        let payloadChanged := merged.metadata.payload ≠ moved.metadata.payload
        { answer := .ok (accepted || payloadChanged)
          table := table.setOther merged
          changes :=
            if moved.status ≠ member.status ∨ payloadChanged then [merged.change] else [] }

/--
Apply an update about a member.  The answer says whether anything was accepted;
a newer update with a forbidden transition fails.
-/
def apply
    (table : Table)
    (now : Instant)
    (name : MemberName)
    (status : Status)
    (clock : Nat)
    (metadata : Option Metadata) :
    Outcome (Except GossipError Bool) :=
  table.update .strict now name status clock metadata

/-- The clock a peer is known to hold for a member, zero when nothing is known. -/
def acked (table : Table) (peer name : MemberName) : Nat :=
  (table.acks[(peer, name)]?).getD 0

/-- Record that a peer holds a member at a clock or newer. -/
def recordAck (table : Table) (peer name : MemberName) (clock : Nat) : Table :=
  { table with acks := table.acks.insert (peer, name) (max (table.acked peer name) clock) }

/-- Record the receipts a peer has sent. -/
def recordAcks (table : Table) (peer : MemberName) (acks : List EntryAck) : Table :=
  acks.foldl (fun table ack => table.recordAck peer ack.name ack.clock) table

/--
Merge an entry received from a peer, which counts as the peer's receipt of it.
The answer says whether anything changed.
-/
def merge
    (table : Table)
    (now : Instant)
    (source : MemberName)
    (entry : GossipEntry) :
    Outcome Bool :=
  let table := table.recordAck source entry.name entry.clock
  let outcome := table.update .lenient now entry.name entry.status entry.clock entry.metadata
  { answer := match outcome.answer with
      | .ok changed => changed
      | .error _ => false
    table := outcome.table
    changes := outcome.changes }

/-- Merge entries received from a peer, in order. -/
def mergeAll
    (table : Table)
    (now : Instant)
    (source : MemberName) :
    List GossipEntry → Outcome (List Bool)
  | [] => { answer := [], table, changes := [] }
  | entry :: rest =>
    let first := table.merge now source entry
    let others := first.table.mergeAll now source rest
    { answer := first.answer :: others.answer
      table := others.table
      changes := first.changes ++ others.changes }

/-- Replace the node's own metadata, stamped with a fresh clock, which is the answer. -/
def setMetadata (table : Table) (payload : Bytes) : Outcome Nat :=
  let table := table.tick
  let before : Member := { table.own with clock := table.clock }
  let after := before.mergeMetadata { clock := table.clock, payload := some payload }
  { answer := table.clock
    table := { table with own := after }
    changes :=
      if after.metadata.payload ≠ before.metadata.payload then [after.change] else [] }

/--
Mark the node itself offline ahead of its departure, once; the answer is the
entry that announces it.
-/
def leave (table : Table) (now : Instant) : Outcome GossipEntry :=
  if table.stopped then
    { answer := table.own.entry, table, changes := [] }
  else
    let table := table.tick
    let own : Member :=
      { table.own with clock := table.clock, status := .offline, statusTime := now }
    { answer := own.entry
      table := { table with own, stopped := true }
      changes := [own.change] }

end Table

end ClusterMembership
