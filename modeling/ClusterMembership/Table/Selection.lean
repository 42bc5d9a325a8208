import ClusterMembership.Random.Tape
import ClusterMembership.Table.Update

/-!
# What the table is asked

A peer is sent the entries it is not known to hold, newest first.  Probes and
relays need samples of members by status, and users a summary of the cluster.
-/

namespace ClusterMembership

namespace Table

/-- Whether a peer still has to hear about a member. -/
def isOutstanding (table : Table) (peer : MemberName) (member : Member) : Bool :=
  member.isObserved && table.acked peer member.name < member.clock

/-- Newer entries come first, and entries of one clock are ordered by name. -/
def precedes (left right : GossipEntry) : Bool :=
  right.clock < left.clock || (left.clock = right.clock && (compare left.name right.name).isLE)

/-- Everything a peer has not acknowledged, newest first. -/
def outstanding (table : Table) (peer : MemberName) : List GossipEntry :=
  ((table.members.filter (table.isOutstanding peer)).map Member.entry).mergeSort precedes

/-- Up to `count` entries a peer has not acknowledged, newest first. -/
def gossip (table : Table) (peer : MemberName) (count : Nat) : List GossipEntry :=
  (table.outstanding peer).take count

/-- The names of the other members with a status of the set, in slot order. -/
def withStatus (table : Table) (statuses : StatusSet) : List MemberName :=
  (table.others.filter (fun member => statuses.contains member.status)).map Member.name

/--
A random sample of up to `count` other members with a status of the set, without
the excluded ones.
-/
def sample
    (table : Table)
    (statuses : StatusSet)
    (count : Nat)
    (exclude : List MemberName)
    (tape : Tape) :
    List MemberName × Tape :=
  let candidates := (table.withStatus statuses).filter (fun name => !exclude.contains name)
  let (order, tape) := tape.shuffle candidates
  (order.take count, tape)

/-- A number of samples, one after the other. -/
def samples (sample : Tape → List MemberName × Tape) :
    (rounds : Nat) → Tape → List (List MemberName) × Tape
  | 0, tape => ([], tape)
  | rounds + 1, tape =>
    let (first, tape) := sample tape
    let (others, tape) := samples sample rounds tape
    (first :: others, tape)

/-- The status of every member, in name order. -/
def statuses (table : Table) : List (MemberName × Status) :=
  (table.members.map (fun member => (member.name, member.status))).mergeSort
    (fun left right => (compare left.1 right.1).isLE)

/-- How many members have each status. -/
structure Summary where
  total : Nat
  online : Nat
  suspect : Nat
  unavailable : Nat
  offline : Nat
  clock : Nat
  deriving DecidableEq, Inhabited, Repr

/-- Count the members by status, the node itself included. -/
def summary (table : Table) : Summary :=
  let count (status : Status) : Nat :=
    table.members.countP (fun member => member.status = status)
  { total := table.members.length
    online := count .online
    suspect := count .suspect
    unavailable := count .unavailable
    offline := count .offline
    clock := table.clock }

end Table

end ClusterMembership
