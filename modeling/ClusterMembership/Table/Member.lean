import ClusterMembership.Error
import ClusterMembership.Packet

/-!
# One member of the table

A row of the membership table records the newest accepted update about one
member: its status with the clock it was stamped with, when that status was
taken, and the member's metadata with a clock of its own.

An update is accepted only if its clock is strictly newer.  Status and metadata
are ordered by different clocks, so one update may bring a newer status with
older metadata, or the other way round.
-/

namespace ClusterMembership

/-- A point in time of one node's clock, in milliseconds. -/
abbrev Instant := Nat

/-- A row of the membership table. -/
structure Member where
  name : MemberName
  status : Status
  clock : Nat
  /-- When the status was last changed. -/
  statusTime : Instant
  metadata : Metadata
  deriving DecidableEq, Inhabited, Repr

/-- What subscribers are told when the status or the metadata of a member changes. -/
structure MemberChange where
  name : MemberName
  status : Status
  clock : Nat
  metadata : Metadata
  deriving DecidableEq, Inhabited, Repr

namespace Member

/-- A member nothing has been heard of. -/
def unobserved (name : MemberName) (now : Instant) : Member where
  name := name
  status := .offline
  clock := 0
  statusTime := now
  metadata := .unknown

/-- Whether any update about the member was accepted. -/
def isObserved (member : Member) : Bool :=
  0 < member.clock

/-- Whether a status at a clock is newer than what the row holds. -/
def isOlderThan (member : Member) (clock : Nat) : Bool :=
  member.clock < clock

/-- Whether the transition table lets the row take a status; an unobserved row takes any. -/
def permits (member : Member) (status : Status) : Bool :=
  !member.isObserved || member.status.canTransition status

/-- Take a status at a clock, if the clock is newer. -/
def accept (member : Member) (status : Status) (clock : Nat) (now : Instant) : Member :=
  if member.isOlderThan clock then
    { member with
      clock
      status
      statusTime := if status = member.status then member.statusTime else now }
  else
    member

/-- Take metadata, if its clock is newer. -/
def mergeMetadata (member : Member) (metadata : Metadata) : Member :=
  if member.metadata.clock < metadata.clock then { member with metadata } else member

/-- Take metadata where there is some. -/
def mergeMetadata? (member : Member) (metadata : Option Metadata) : Member :=
  match metadata with
  | some metadata => member.mergeMetadata metadata
  | none => member

/-- The gossip entry that tells others about the member. -/
def entry (member : Member) : GossipEntry where
  name := member.name
  clock := member.clock
  status := member.status
  metadata := if member.metadata.isUnknown then none else some member.metadata

/-- The notification that tells subscribers about the member. -/
def change (member : Member) : MemberChange where
  name := member.name
  status := member.status
  clock := member.clock
  metadata := member.metadata

end Member

end ClusterMembership
