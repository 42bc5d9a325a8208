import ClusterMembership.Network.Address
import ClusterMembership.Simulation.Run

/-!
# Whole nodes

A node joins with its settings: it binds an endpoint, checks the settings, and runs
all loops.  It leaves by announcing its departure, stopping the loops and closing
the endpoint.  A node that is dropped just stops, and its endpoint stays bound.
-/

namespace ClusterMembership

/-- What may be chosen for a node beside its settings. -/
structure NodeOptions where
  /-- The version of the frames. -/
  version : UInt8 := Frame.defaultVersion
  /-- The packer's limit; otherwise the largest datagram is the limit. -/
  packLimit : Option Nat := none
  deriving DecidableEq

/-- The codec of a node, for settings a node can start with. -/
def Settings.codec (settings : Settings) (options : NodeOptions) : Except GossipError Codec :=
  match settings.check with
  | .error cause => .error (.settings cause)
  | .ok () =>
    match settings.node.secret with
    | none => .error (.settings (.secretUnavailable "node.secret must be set"))
    | some secret => do
      let signer ← Signer.ofSecret (Bytes.ofText secret)
      return {
        limit := options.packLimit.getD settings.protocol.maxPacketSize
        signer := signer.withVersion options.version }

/-- The table of a node that starts now. -/
def Settings.table (settings : Settings) (now : Instant) : Table :=
  Table.start settings.node.name settings.node.metadataPayload settings.node.peers now

namespace Simulation

namespace World

/-- Add a station at an endpoint; the answer is its number. -/
def addStation
    (world : World)
    (endpoint : Nat)
    (settings : ProtocolSettings)
    (codec : Codec)
    (table : Table) :
    Nat × World :=
  let (tape, rest) := world.tape.split
  let station : Station :=
    { participant := .start settings codec table tape
      listener := .create Broadcast.defaultCapacity
      endpoint }
  (world.stations.size, { world with tape := rest, stations := world.stations.push station })

/-- Start a node at an endpoint. -/
def enterAt
    (world : World)
    (endpoint : Nat)
    (bound : MemberName)
    (settings : Settings)
    (options : NodeOptions) :
    Except GossipError (Nat × World) := do
  let codec ← settings.codec options
  if bound = settings.node.name then
    let (station, world) :=
      world.addStation endpoint settings.protocol codec (settings.table world.now)
    let world := world.modifyStation station fun state => { state with isRunning := true }
    return (station,
      world.startLoops station { handler := true, detection := true, dissemination := true })
  else
    .error (.configuration
      s!"transport is bound as {bound.text} but the local member is {settings.node.name.text}")

/-- Start a node at an endpoint of its own, which is closed again when the node cannot start. -/
def join
    (world : World)
    (bound : MemberName)
    (settings : Settings)
    (options : NodeOptions) :
    Except GossipError Nat × World :=
  match world.network.bind bound with
  | .error cause => (.error cause, world)
  | .ok (endpoint, network) =>
    let world := { world with network }
    match world.enterAt endpoint bound settings options with
    | .ok (station, world) => (.ok station, world)
    | .error cause => (.error cause, { world with network := world.network.close endpoint })

/-- Start a node on a socket; a world has none, so the address cannot be bound. -/
def joinBySocket (settings : Settings) (options : NodeOptions) : Except GossipError Nat := do
  let _ ← settings.codec options
  .error (.network (Address.bindFailure settings.node.bindAddress))

/-- The status a station has for a member, if it knows the member. -/
def statusAt (world : World) (station : Nat) (member : MemberName) : Option Status :=
  world.stations[station]? |>.bind fun state =>
    (state.participant.table.find? member).map Member.status

/-- Look every 100 milliseconds, at most so many times after the first. -/
def awaitStatusWithin (station : Nat) (member : MemberName) (wanted : Option Status) :
    (looks : Nat) → World → World
  | 0, world => world
  | looks + 1, world =>
    if world.statusAt station member = wanted then
      world
    else
      awaitStatusWithin station member wanted looks (world.advanceTo (world.now + 100))

/-- Wait until a station has a status for a member; the answer is the status it has last. -/
def awaitStatus
    (world : World)
    (station : Nat)
    (member : MemberName)
    (wanted : Option Status)
    (within : Nat) :
    Option Status × World :=
  let world := awaitStatusWithin station member wanted ((within + 99) / 100) world
  (world.statusAt station member, world)

/-- Let a node leave the cluster; a node that has left already stays as it is. -/
def leave (world : World) (station : Nat) : World :=
  match world.stations[station]? with
  | none => world
  | some state =>
    if state.isRunning then
      let world := (world.perform station (Participant.leave world.now)).2
      let world := world.stopLoops station
      let world := { world with network := world.network.close state.endpoint }
      world.modifyStation station fun state => { state with isRunning := false }
    else
      world

/-- Drop a node without a word: its loops end, and its endpoint stays bound. -/
def drop (world : World) (station : Nat) : World :=
  (world.stopLoops station).modifyStation station fun state => { state with isRunning := false }

/-- Replace the metadata a node advertises; the answer is its clock. -/
def setMetadata (world : World) (station : Nat) (payload : Bytes) :
    Except GossipError Nat × World :=
  match world.stations[station]? with
  | none => (.error (.protocol "Node not running"), world)
  | some state =>
    if state.isRunning then
      let (clock, world) := world.perform station (Act.onTable (·.setMetadata payload))
      (.ok (clock.getD 0), world)
    else
      (.error (.protocol "Node not running"), world)

end World

end Simulation

end ClusterMembership
