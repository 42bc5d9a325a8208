import ClusterMembership.Simulation.Node

/-!
# A participant by itself

A world with a single station shows what one participant does on its own: whom it
writes to, how its table changes, and which changes it tells its one subscriber.
-/

namespace ClusterMembership

namespace Simulation

namespace World

/-- A world with one station, and a subscriber of the changes it makes known. -/
def lone
    (settings : ProtocolSettings)
    (codec : Codec)
    (name : MemberName)
    (metadata : Bytes)
    (peers : List MemberName) :
    Except GossipError World := do
  let (endpoint, network) ← Network.empty.bind name
  let table := Table.start name metadata peers 0
  let start : World := { tape := .ofSeed 1, network }
  let (station, world) := start.addStation endpoint settings codec table
  return world.modifyStation station fun state =>
    { state with listener := { state.listener with channel := state.listener.channel.subscribe.2 } }

/-- The table of a station; a missing station has the table of a node without a name. -/
def tableAt (world : World) (station : Nat) : Table :=
  (world.stations[station]?.map fun state => state.participant.table).getD
    (.start default [] [] 0)

/-- The number of the next request of a station. -/
def nextRequestAt (world : World) (station : Nat) : Nat :=
  (world.stations[station]?.map fun state => state.participant.nextRequest).getD 0

/-- The changes the first subscriber of a station has not received so far. -/
def takeChanges (world : World) (station : Nat) :
    List (Broadcast.Received MemberChange) × World :=
  match world.stations[station]? with
  | none => ([], world)
  | some state =>
    let (received, channel) := state.listener.channel.drain 0
    (received, world.modifyStation station fun state =>
      { state with listener := { state.listener with channel } })

end World

end Simulation

end ClusterMembership
