import ClusterMembership.Keys
import ClusterMembership.Table.Member

/-!
# The membership table

A node keeps one row for every member it knows: its own, and those of the others
in an arena of slots.  An index leads from a name to its slot, vacant slots are
reused last freed first, and every slot counts how often it was vacated.

A handle is a slot together with that count.  It resolves as long as the member it
was issued for stays in the table and never again afterwards, so it can be kept in
a shuffle without being told about the prune.
-/

namespace ClusterMembership

/-- A place of the arena. -/
structure Slot where
  /-- How often the slot was vacated. -/
  generation : Nat
  occupant : Option Member
  deriving DecidableEq, Inhabited, Repr

/-- A stable reference to a member of the arena. -/
structure Handle where
  index : Nat
  generation : Nat
  deriving DecidableEq, Hashable, Inhabited, Repr

/-- One node's view of the cluster. -/
structure Table where
  /-- The row of the node itself. -/
  own : Member
  slots : Array Slot
  /-- The slot of every other member. -/
  index : Std.ExtHashMap MemberName Nat
  /-- The vacant slots, next to be reused first. -/
  free : List Nat
  /-- The logical clock, at least as new as every clock seen. -/
  clock : Nat
  /-- The newest clock each peer is known to hold for each member. -/
  acks : Std.ExtHashMap (MemberName × MemberName) Nat
  /-- The handles issued since they were last taken, oldest first. -/
  inserted : List Handle
  /-- Whether the node has announced its departure. -/
  stopped : Bool

namespace Table

/-- Whether a name is the node's own. -/
def isOwn (table : Table) (name : MemberName) : Bool :=
  name = table.own.name

/-- The number of known members, the node itself included. -/
def size (table : Table) : Nat :=
  table.index.size + 1

/-- The occupant of a slot. -/
def occupant? (table : Table) (index : Nat) : Option Member :=
  table.slots[index]? |>.bind Slot.occupant

/-- The row of another member. -/
def other? (table : Table) (name : MemberName) : Option Member :=
  table.index[name]? |>.bind table.occupant?

/-- The row of a member, the node itself included. -/
def find? (table : Table) (name : MemberName) : Option Member :=
  if table.isOwn name then some table.own else table.other? name

/-- The handle of another member. -/
def handle? (table : Table) (name : MemberName) : Option Handle := do
  let index ← table.index[name]?
  let slot ← table.slots[index]?
  return { index, generation := slot.generation }

/-- The member a handle was issued for, while it stays in the table. -/
def resolve? (table : Table) (handle : Handle) : Option Member := do
  let slot ← table.slots[handle.index]?
  if slot.generation = handle.generation then slot.occupant else none

/-- Whether a handle still refers to a member. -/
def isLive (table : Table) (handle : Handle) : Bool :=
  (table.resolve? handle).isSome

/-- The other members, in slot order. -/
def others (table : Table) : List Member :=
  table.slots.toList.filterMap Slot.occupant

/-- Every member, the node itself first. -/
def members (table : Table) : List Member :=
  table.own :: table.others

/-- The handles of the other members, in slot order. -/
def handles (table : Table) : List Handle :=
  table.others.filterMap (fun member => table.handle? member.name)

/-- Put a member that is not in the arena into a slot. -/
def place (table : Table) (member : Member) : Handle × Table :=
  match table.free with
  | index :: free =>
    let generation := (table.slots[index]?.map Slot.generation).getD 0
    let handle : Handle := { index, generation }
    (handle,
      { table with
        free
        slots := table.slots.setIfInBounds index { generation, occupant := some member }
        index := table.index.insert member.name index
        inserted := table.inserted ++ [handle] })
  | [] =>
    let index := table.slots.size
    let handle : Handle := { index, generation := 0 }
    (handle,
      { table with
        slots := table.slots.push { generation := 0, occupant := some member }
        index := table.index.insert member.name index
        inserted := table.inserted ++ [handle] })

/--
The handle of another member, which joins the arena unobserved if it is unknown.
The node itself has no handle.
-/
def insert (table : Table) (name : MemberName) (now : Instant) : Option Handle × Table :=
  if table.isOwn name then
    (none, table)
  else
    match table.handle? name with
    | some handle => (some handle, table)
    | none =>
      let (handle, table) := table.place (Member.unobserved name now)
      (some handle, table)

/-- Replace the row of another member that is in the arena. -/
def setOther (table : Table) (member : Member) : Table :=
  match table.index[member.name]? with
  | none => table
  | some index =>
    { table with
      slots := table.slots.modify index (fun slot => { slot with occupant := some member }) }

/-- Remove another member with its slot and every ack by it or about it. -/
def prune (table : Table) (name : MemberName) : Table :=
  let acks := table.acks.filter (fun (peer, member) _ => peer ≠ name && member ≠ name)
  match table.index[name]? with
  | none => { table with acks }
  | some index =>
    { table with
      acks
      index := table.index.erase name
      slots := table.slots.modify index
        (fun slot => { generation := slot.generation + 1, occupant := none })
      free := index :: table.free }

/-- The handles issued since the last call, oldest first. -/
def takeInserted (table : Table) : List Handle × Table :=
  (table.inserted, { table with inserted := [] })

/--
The table of a node that has just started: online at clock 1, with its metadata
at clock 1.  The seed members are in the arena unobserved; they become real
members once anything is heard about them.
-/
def start
    (name : MemberName)
    (metadata : Bytes)
    (seeds : List MemberName)
    (now : Instant) :
    Table :=
  let table : Table :=
    { own :=
        { name, status := .online, clock := 1, statusTime := now,
          metadata := { clock := 1, payload := some metadata } }
      slots := #[]
      index := ∅
      free := []
      clock := 1
      acks := ∅
      inserted := []
      stopped := false }
  (seeds.filter (· ≠ name)).foldl (fun table seed => (table.insert seed now).2) table

end Table

end ClusterMembership
