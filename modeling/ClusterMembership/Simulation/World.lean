import ClusterMembership.Network.Links
import ClusterMembership.Notice.Listener
import ClusterMembership.Participant.Dissemination
import ClusterMembership.Participant.Probe
import ClusterMembership.Participant.Reception

/-!
# A world in virtual time

A world holds stations, each with one participant, on one network, and an agenda of
what is due when.  Its clock stands still while something happens and jumps to the
next thing due.  Things due at the same moment happen in the order in which they
were put on the agenda, and what they cause at once comes after them.

In place of peers a world may have a script, which answers packets of a kind after
a delay.  Everything that is sent is recorded.
-/

namespace ClusterMembership

namespace Simulation

/-- What can be due. -/
inductive Due where
  /-- A datagram is handed to the participant of a station. -/
  | delivery (station : Nat) (datagram : Bytes)
  /-- A datagram reaches the endpoint of a station from outside the network. -/
  | arrival (station : Nat) (datagram : Datagram)
  /-- The endpoint of a station is closed. -/
  | hangUp (station : Nat)
  /-- A station looks for a datagram at its endpoint. -/
  | attend (station : Nat) (term : Nat)
  /-- A station sweeps its table and starts a probe. -/
  | detect (station : Nat) (term : Nat)
  /-- A station begins the check of the next member. -/
  | probe (station : Nat) (term : Nat)
  /-- A station pushes gossip. -/
  | push (station : Nat) (term : Nat)
  /-- The time for an ack is up. -/
  | deadline (station : Nat) (check : Nat)
  /-- A check was answered. -/
  | answered (station : Nat) (check : Nat)
  deriving Inhabited

/-- Something due at a moment. -/
structure Event where
  time : Instant
  due : Due
  deriving Inhabited

/-- Which of its loops a station runs. -/
structure Loops where
  handler : Bool := false
  detection : Bool := false
  dissemination : Bool := false
  deriving DecidableEq, Inhabited, Repr

/-- A check that came to its end. -/
structure CheckResult where
  check : Nat
  target : MemberName
  answered : Bool
  /-- Whether the target of a probe was still in the table when it was recorded. -/
  recorded : Bool
  deriving DecidableEq, Inhabited, Repr

/-- One node of a world. -/
structure Station where
  participant : Participant
  listener : Listener MemberChange
  /-- The endpoint the station sends from. -/
  endpoint : Nat
  loops : Loops := {}
  /-- How often the loops were stopped; what an earlier term left due is void. -/
  term : Nat := 0
  /-- The checks whose outcome is recorded in the table. -/
  probes : List Nat := []
  /-- The checks that are given up when the loops stop. -/
  inFlight : List Nat := []
  /-- The checks that ended, latest first. -/
  results : List CheckResult := []
  /-- Whether the node takes part in the cluster. -/
  isRunning : Bool := false

/-- A scripted answer to packets of one kind. -/
structure Answer where
  kind : PacketKind
  /-- The one member whose packets are answered, or everybody. -/
  target : Option MemberName
  delay : Nat
  /-- The datagram, given the request number of the packet that is answered. -/
  datagram : Option Nat → Bytes

/-- A packet that was sent. -/
structure Sent where
  time : Instant
  station : Nat
  outgoing : Outgoing

/-- Stations on a network, with what is due and what was sent. -/
structure World where
  now : Instant := 0
  /-- What is due, by time. -/
  agenda : List Event := []
  stations : Array Station := #[]
  network : Network := .empty
  script : List Answer := []
  /-- The members whose datagrams are lost on the way. -/
  failing : List MemberName := []
  /-- Everything that was sent, latest first. -/
  sent : List Sent := []
  tape : Tape

namespace World

/-- Put something on an agenda, behind what is due no later. -/
def enter (event : Event) : List Event → List Event
  | [] => [event]
  | first :: rest =>
    if first.time ≤ event.time then
      first :: enter event rest
    else
      event :: first :: rest

/-- Let something be due after a delay. -/
def schedule (world : World) (delay : Nat) (due : Due) : World :=
  { world with agenda := enter { time := world.now + delay, due } world.agenda }

/-- Change a station. -/
def modifyStation (world : World) (station : Nat) (change : Station → Station) : World :=
  { world with stations := world.stations.modify station change }

/-- The station at an endpoint. -/
def stationAt? (world : World) (endpoint : Nat) : Option Nat :=
  world.stations.findIdx? (fun station => station.endpoint = endpoint)

/-- A salt that was not used before. -/
def freshSalt (world : World) : Salt × World :=
  ({ bytes := (world.tape.bytes 16).1 }, { world with tape := (world.tape.bytes 16).2 })

/-- Let a station look at its endpoint. -/
def callAttention (world : World) (station : Nat) : World :=
  match world.stations[station]? with
  | none => world
  | some state => world.schedule 0 (.attend station state.term)

/-- Put a packet on the network, if its target has an endpoint there. -/
def carry (world : World) (sender : Station) (outgoing : Outgoing) : World :=
  match world.network.bound[outgoing.target]? with
  | none => world
  | some endpoint =>
    let (salt, world) := world.freshSalt
    match sender.participant.codec.encode salt outgoing.packet with
    | .error _ => world
    | .ok datagram =>
      match world.network.send sender.endpoint outgoing.target datagram with
      | .error _ => world
      | .ok network =>
        let world := { world with network }
        match world.stationAt? endpoint with
        | none => world
        | some receiver => world.callAttention receiver

/-- Let the script answer a packet. -/
def followScript (world : World) (station : Nat) (outgoing : Outgoing) : World :=
  world.script.foldl
    (fun world answer =>
      if answer.kind = outgoing.packet.kind ∧ answer.target.all (· = outgoing.target) then
        world.schedule answer.delay (.delivery station (answer.datagram outgoing.packet.request?))
      else
        world)
    world

/-- Send a packet from a station. -/
def transmit (world : World) (station : Nat) (outgoing : Outgoing) : World :=
  let world := { world with sent := { time := world.now, station, outgoing } :: world.sent }
  match world.stations[station]? with
  | none => world
  | some sender =>
    if world.failing.contains outgoing.target then
      world
    else
      (world.followScript station outgoing).carry sender outgoing

/--
Let the participant of a station act.  What follows from the answer is put on the
agenda before anything that follows from the packets sent.
-/
def performThen
    {α : Type}
    (world : World)
    (station : Nat)
    (act : Act α)
    (next : α → World → World) :
    Option α × World :=
  match world.stations[station]? with
  | none => (none, world)
  | some state =>
    let effect := act state.participant
    let world := world.modifyStation station fun state =>
      { state with
        participant := effect.state
        listener := state.listener.tell effect.changes }
    let world := next effect.answer world
    (some effect.answer,
      effect.sent.foldl (fun world outgoing => world.transmit station outgoing) world)

/-- Let the participant of a station act. -/
def perform {α : Type} (world : World) (station : Nat) (act : Act α) : Option α × World :=
  world.performThen station act (fun _ world => world)

end World

end Simulation

end ClusterMembership
