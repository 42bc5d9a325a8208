import ClusterMembership.Table.Update

/-!
# Timeouts

A sweep moves every member whose time is up one step forward: from suspect to
unavailable, from unavailable to offline, and from offline out of the table.
Members nothing was ever heard of stay.  The steps are collected first and taken
afterwards, so that no member is moved twice in one sweep.
-/

namespace ClusterMembership

namespace Table

/-- How long members stay in each status before a sweep moves them on, in milliseconds. -/
structure Timeouts where
  suspect : Nat
  unavailable : Nat
  retention : Nat
  deriving DecidableEq, Inhabited, Repr

/-- What a sweep does with one member. -/
inductive SweepStep where
  | advance (status : Status)
  | prune
  | stay
  deriving DecidableEq, Inhabited, Repr

/-- The step that is due for a member. -/
def Timeouts.step (timeouts : Timeouts) (now : Instant) (member : Member) : SweepStep :=
  let age := now - member.statusTime
  if !member.isObserved then
    .stay
  else
    match member.status with
    | .online => .stay
    | .suspect => if timeouts.suspect ≤ age then .advance .unavailable else .stay
    | .unavailable => if timeouts.unavailable ≤ age then .advance .offline else .stay
    | .offline => if timeouts.retention ≤ age then .prune else .stay

/-- The members to be moved on, each with its next status, in slot order. -/
def dueAdvances (table : Table) (timeouts : Timeouts) (now : Instant) :
    List (MemberName × Status) :=
  table.others.filterMap fun member =>
    match timeouts.step now member with
    | .advance status => some (member.name, status)
    | .prune | .stay => none

/-- The members to be dropped, in slot order. -/
def duePrunes (table : Table) (timeouts : Timeouts) (now : Instant) : List MemberName :=
  table.others.filterMap fun member =>
    match timeouts.step now member with
    | .prune => some member.name
    | .advance _ | .stay => none

/-- Move members on, each with a tick of its own; the answer counts the accepted moves. -/
def advanceAll (table : Table) (wall : Instant) : List (MemberName × Status) → Outcome Nat
  | [] => { answer := 0, table, changes := [] }
  | (name, status) :: rest =>
    let table := table.tick
    let first := table.apply wall name status table.clock none
    let others := first.table.advanceAll wall rest
    let taken :=
      match first.answer with
      | .ok true => 1
      | .ok false | .error _ => 0
    { answer := taken + others.answer
      table := others.table
      changes := first.changes ++ others.changes }

/--
Sweep the table as of `asOf`; the answer counts the members moved on or dropped.
Moves are timed with the clock on the wall, which a caller may run ahead of.
-/
def expire (table : Table) (wall asOf : Instant) (timeouts : Timeouts) : Outcome Nat :=
  let prunes := table.duePrunes timeouts asOf
  let advanced := table.advanceAll wall (table.dueAdvances timeouts asOf)
  { answer := advanced.answer + prunes.length
    table := prunes.foldl prune advanced.table
    changes := advanced.changes }

end Table

end ClusterMembership
