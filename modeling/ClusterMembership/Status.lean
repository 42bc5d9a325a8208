/-!
# The status of a member

A member moves through four statuses.  A probe that fails makes an online
member suspect; a suspect member that does not refute the suspicion in time
becomes unavailable, and an unavailable one is eventually given up on as
offline.  An offline member returns only by rejoining as online.

Sets of statuses select members and hold the rows of the transition table.
-/

namespace ClusterMembership

/-- The liveness of a cluster member, as one node sees it. -/
inductive Status where
  /-- The member answers probes. -/
  | online
  /-- The member missed a probe and may still refute the suspicion. -/
  | suspect
  /-- The member stayed suspect for longer than the suspicion timeout. -/
  | unavailable
  /-- The member left the cluster or was given up on. -/
  | offline
  deriving DecidableEq, Inhabited, Repr

/-- A set of statuses. -/
structure StatusSet where
  online : Bool := false
  suspect : Bool := false
  unavailable : Bool := false
  offline : Bool := false
  deriving DecidableEq, Inhabited, Repr

namespace StatusSet

/-- The set without a member. -/
def empty : StatusSet := {}

/-- The set with the single given status. -/
def only : Status → StatusSet
  | .online => { online := true }
  | .suspect => { suspect := true }
  | .unavailable => { unavailable := true }
  | .offline => { offline := true }

/-- The statuses in either set. -/
def union (left right : StatusSet) : StatusSet where
  online := left.online || right.online
  suspect := left.suspect || right.suspect
  unavailable := left.unavailable || right.unavailable
  offline := left.offline || right.offline

/-- Whether a status is in the set. -/
def contains (set : StatusSet) : Status → Bool
  | .online => set.online
  | .suspect => set.suspect
  | .unavailable => set.unavailable
  | .offline => set.offline

/-- The statuses of members that are considered reachable. -/
def available : StatusSet := { online := true, suspect := true }

/-- Every status. -/
def all : StatusSet := { online := true, suspect := true, unavailable := true, offline := true }

/-- Whether no status is in the set. -/
def isEmpty (set : StatusSet) : Bool :=
  set = empty

@[simp]
theorem contains_union (left right : StatusSet) (status : Status) :
    (left.union right).contains status = (left.contains status || right.contains status) := by
  cases status <;> rfl

@[simp]
theorem contains_only (member status : Status) :
    (only member).contains status = decide (member = status) := by
  cases member <;> cases status <;> rfl

/-- A set is determined by the statuses in it. -/
theorem ext_contains {left right : StatusSet}
    (same : ∀ status, left.contains status = right.contains status) :
    left = right := by
  cases left
  cases right
  simp only [mk.injEq]
  exact ⟨same .online, same .suspect, same .unavailable, same .offline⟩

end StatusSet

namespace Status

/-- Every status, in table order. -/
def every : List Status := [.online, .suspect, .unavailable, .offline]

/-- The word for a status. -/
def word : Status → String
  | .online => "online"
  | .suspect => "suspect"
  | .unavailable => "unavailable"
  | .offline => "offline"

instance : ToString Status where
  toString := word

/--
The status a word names, in upper or lower case.  No character outside ASCII has
a lower case among the letters of the four words, so the ASCII case map decides.
-/
def ofWord? (text : String) : Option Status :=
  let lower := text.map Char.toLower
  every.find? (fun status => status.word = lower)

/-- The other statuses a member may move to by a newer update. -/
def allowedTransitions : Status → StatusSet
  | .online => { suspect := true, offline := true }
  | .suspect => { online := true, unavailable := true, offline := true }
  | .unavailable => { online := true, offline := true }
  | .offline => { online := true }

/--
Whether a member may move from one status to another.  Re-asserting the current
status is always legal: it only refreshes the clock.
-/
def canTransition (source target : Status) : Bool :=
  source = target || source.allowedTransitions.contains target

/-- Whether a member of this status is considered reachable. -/
def isAvailable (status : Status) : Bool :=
  StatusSet.available.contains status

end Status

/-- The statuses in a set, in table order. -/
def StatusSet.toList (set : StatusSet) : List Status :=
  Status.every.filter set.contains

end ClusterMembership
