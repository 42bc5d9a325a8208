import ClusterMembership.Error
import ClusterMembership.Keys
import ClusterMembership.Packet
import Std.Data.ExtHashSet

/-!
# A network inside one process

Endpoints are bound to names and exchange datagrams through queues, in order and
without loss, as long as the links allow it.  A link between two names can be cut
in both directions, and a name can be isolated from everybody, itself included.
Datagrams to a name nobody is bound to are lost silently, as they would be outside.

To receive takes time: a receive begins, and waits at its endpoint until it is its turn and
a datagram is there, or until the endpoint is closed.  Receives that wait at one endpoint
have their turn in the order in which they began.

An endpoint that is closed gives its name free, and no receive begins at it.  Endpoints
are numbered in the order in which they were bound, so an old endpoint and a later
one of the same name stay apart.
-/

namespace ClusterMembership

/-- A received datagram with the name it came from. -/
structure Datagram where
  bytes : Bytes
  sender : String
  deriving DecidableEq, Inhabited, Repr

/-- One end of the network. -/
structure Endpoint where
  name : MemberName
  /-- The datagrams that have arrived, oldest first. -/
  inbox : List Datagram
  isOpen : Bool
  /-- How many receives have begun and wait. -/
  pending : Nat
  deriving DecidableEq, Inhabited, Repr

/-- What a receive finds when it looks for a datagram. -/
inductive Arrival where
  | datagram (datagram : Datagram)
  | nothing
  | closed
  deriving DecidableEq, Inhabited, Repr

/--
What the first receive that waits at an endpoint finds when it goes on.  It waits on when it finds
nothing; otherwise it ends.

A receive that waited when its endpoint was closed finds that the endpoint is closed, and may find a
datagram that came before.  If both are so, it is left to chance which of them it takes: it is the
first of them if `closing` is set.
-/
def Endpoint.resume (endpoint : Endpoint) (closing : Bool) : Arrival × Endpoint :=
  match endpoint.pending with
  | 0 => (.nothing, endpoint)
  | pending + 1 =>
    if !endpoint.isOpen && closing then
      (.closed, { endpoint with pending })
    else
      match endpoint.inbox with
      | datagram :: inbox => (.datagram datagram, { endpoint with inbox, pending })
      | [] =>
        if endpoint.isOpen then
          (.nothing, endpoint)
        else
          (.closed, { endpoint with pending })

/-- The endpoints and the state of the links between names. -/
structure Network where
  /-- Every endpoint that was ever bound. -/
  endpoints : Array Endpoint
  /-- The endpoint that a name leads to. -/
  bound : Std.ExtHashMap MemberName Nat
  /-- The ordered pairs of names between which nothing passes. -/
  blocked : Std.ExtHashSet (MemberName × MemberName)
  /-- The names cut off from everybody. -/
  isolated : Std.ExtHashSet MemberName

namespace Network

/-- The network without an endpoint. -/
def empty : Network where
  endpoints := #[]
  bound := ∅
  blocked := ∅
  isolated := ∅

/-- Whether a datagram from one name to another is dropped. -/
def isBlocked (network : Network) (source target : MemberName) : Bool :=
  network.isolated.contains source || network.isolated.contains target ||
    network.blocked.contains (source, target)

/-- Bind an endpoint to a name that is free; the answer is its number. -/
def bind (network : Network) (name : MemberName) : Except GossipError (Nat × Network) :=
  if network.bound.contains name then
    .error (.transport (name.text ++ " is already bound"))
  else
    let number := network.endpoints.size
    .ok (number,
      { network with
        endpoints := network.endpoints.push { name, inbox := [], isOpen := true, pending := 0 }
        bound := network.bound.insert name number })

/-- Cut the link between two names, in both directions. -/
def partition (network : Network) (left right : MemberName) : Network :=
  { network with
    blocked := (network.blocked.insert (left, right)).insert (right, left) }

/-- Mend the link between two names. -/
def heal (network : Network) (left right : MemberName) : Network :=
  { network with
    blocked := (network.blocked.erase (left, right)).erase (right, left) }

/-- Cut a name off from everybody. -/
def isolate (network : Network) (name : MemberName) : Network :=
  { network with isolated := network.isolated.insert name }

/-- Mend everything. -/
def healAll (network : Network) : Network :=
  { network with blocked := ∅, isolated := ∅ }

/-- Let a datagram pass from one name to another, if it can. -/
def deliver (network : Network) (source target : MemberName) (bytes : Bytes) : Network :=
  if network.isBlocked source target then
    network
  else
    match network.bound[target]? with
    | none => network
    | some number =>
      { network with
        endpoints := network.endpoints.modify number fun endpoint =>
          { endpoint with inbox := endpoint.inbox ++ [{ bytes, sender := source.text }] } }

/-- Let a datagram from outside the network reach an endpoint. -/
def inject (network : Network) (number : Nat) (datagram : Datagram) : Network :=
  { network with
    endpoints := network.endpoints.modify number fun endpoint =>
      { endpoint with inbox := endpoint.inbox ++ [datagram] } }

/-- Send a datagram from an endpoint, which has to be open. -/
def send
    (network : Network)
    (number : Nat)
    (target : MemberName)
    (bytes : Bytes) :
    Except GossipError Network :=
  match network.endpoints[number]? with
  | some endpoint =>
    if endpoint.isOpen then
      .ok (network.deliver endpoint.name target bytes)
    else
      .error (.transport "transport closed")
  | none => .error (.transport "transport closed")

/-- Send a datagram to several names; single failures are passed over. -/
def broadcast
    (network : Network)
    (number : Nat)
    (targets : List MemberName)
    (bytes : Bytes) :
    Network :=
  targets.foldl
    (fun network target =>
      match network.send number target bytes with
      | .ok network => network
      | .error _ => network)
    network

/-- Put another endpoint in the place of one. -/
def replace (network : Network) (number : Nat) (endpoint : Endpoint) : Network :=
  { network with endpoints := network.endpoints.setIfInBounds number endpoint }

/-- Begin to receive: the receive waits at the endpoint, unless the endpoint is closed. -/
def beginReceive (network : Network) (number : Nat) : Arrival × Network :=
  match network.endpoints[number]? with
  | none => (.closed, network)
  | some endpoint =>
    if endpoint.isOpen then
      (.nothing, network.replace number { endpoint with pending := endpoint.pending + 1 })
    else
      (.closed, network)

/-- Let the first receive that waits at an endpoint go on. -/
def resumeReceive (network : Network) (number : Nat) (closing : Bool) : Arrival × Network :=
  match network.endpoints[number]? with
  | none => (.nothing, network)
  | some endpoint =>
    ((endpoint.resume closing).1, network.replace number (endpoint.resume closing).2)

/-- Give up a receive that waits at an endpoint. -/
def abandonReceive (network : Network) (number : Nat) : Network :=
  match network.endpoints[number]? with
  | none => network
  | some endpoint => network.replace number { endpoint with pending := endpoint.pending - 1 }

/--
Take the oldest datagram that has arrived at an endpoint where no receive waits.  The receive begins
and looks for a datagram; it is given up when there is none.
-/
def receive (network : Network) (number : Nat) : Arrival × Network :=
  match network.beginReceive number with
  | (.nothing, begun) =>
    match begun.resumeReceive number true with
    | (.nothing, waiting) => (.nothing, waiting.abandonReceive number)
    | ended => ended
  | refused => refused

/--
Close an endpoint and give its name free; closing it again changes nothing.  The receives that wait
at it can go on, and end.
-/
def close (network : Network) (number : Nat) : Network :=
  match network.endpoints[number]? with
  | none => network
  | some endpoint =>
    if endpoint.isOpen then
      { network with
        endpoints := network.endpoints.setIfInBounds number { endpoint with isOpen := false }
        bound := network.bound.erase endpoint.name }
    else
      network

end Network

end ClusterMembership
