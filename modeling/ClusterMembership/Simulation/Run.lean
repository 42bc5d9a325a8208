import ClusterMembership.Simulation.World

/-!
# Running a world

`World.occur` lets one thing happen; `World.advanceTo` lets everything happen that is
due up to a moment.  A world has no bound on what happens at one moment, so running
takes a number of steps that is not exceeded.
-/

namespace ClusterMembership

namespace Simulation

namespace World

/-- How many things happen at most while a world is run. -/
def patience : Nat := 100000000

/-- Hand a datagram to the participant of a station. -/
def deliver (world : World) (station : Nat) (datagram : Bytes) : World :=
  (world.performThen station (Participant.receiveDatagram world.now datagram)
    (fun answered world =>
      match answered with
      | some check => world.schedule 0 (.answered station check)
      | none => world)).2

/-- The settings of the protocol at a station. -/
def settingsOf (world : World) (station : Nat) : ProtocolSettings :=
  (world.stations[station]?.map fun state => state.participant.settings).getD {}

/-- Begin a check at a station; the answer is its number. -/
def beginCheck (world : World) (station : Nat) (target : MemberName) : Option Nat × World :=
  world.performThen station (Participant.beginCheck target) fun check world =>
    world.schedule (world.settingsOf station).pingTimeout (.deadline station check)

/-- Begin a probe at a station, if there is a member to probe; the answer is its check. -/
def beginProbe (world : World) (station : Nat) : Option Nat × World :=
  match world.perform station Participant.nextProbe with
  | (some (some target), world) =>
    let (check, world) := world.beginCheck station target
    (check, world.modifyStation station fun state =>
      { state with probes := check.toList ++ state.probes })
  | (_, world) => (none, world)

/-- Conclude a check at a station, and record its outcome if it belongs to a probe. -/
def conclude (world : World) (station : Nat) (check : Nat) (target : MemberName) : World :=
  let (answered, world) := world.perform station (Participant.concludeCheck check)
  let answered := answered.getD false
  let isProbe := (world.stations[station]?.map fun state => state.probes.contains check).getD false
  let (recorded, world) :=
    if isProbe then
      world.perform station (Participant.recordProbe world.now target answered)
    else
      (some false, world)
  world.modifyStation station fun state =>
    { state with
      probes := state.probes.filter (· ≠ check)
      inFlight := state.inFlight.filter (· ≠ check)
      results :=
        { check, target, answered, recorded := recorded.getD false } :: state.results }

/-- Let the first or the second wait of a check end. -/
def expireCheck (world : World) (station : Nat) (number : Nat) (check : Check) : World :=
  if check.answered || check.relayed.isSome then
    world.conclude station number check.target
  else
    let (asked, world) :=
      world.performThen station (Participant.askRelays number) fun asked world =>
        if asked then
          world.schedule (world.settingsOf station).pingRequestTimeout (.deadline station number)
        else
          world
    if asked.getD false then world else world.conclude station number check.target

/-- Let a station that runs its handler take a datagram from its endpoint. -/
def attend (world : World) (station : Nat) (state : Station) : World :=
  match world.network.receive state.endpoint with
  | (.datagram datagram, network) =>
    (({ world with network }).deliver station datagram.bytes).callAttention station
  | (.nothing, network) => { world with network }
  | (.closed, network) =>
    ({ world with network }).modifyStation station fun state =>
      { state with loops := { state.loops with handler := false } }

/-- Let something happen. -/
def occur (world : World) : Due → World
  | .delivery station datagram => world.deliver station datagram
  | .arrival station datagram =>
    match world.stations[station]? with
    | none => world
    | some state =>
      ({ world with network := world.network.inject state.endpoint datagram }).callAttention station
  | .hangUp station =>
    match world.stations[station]? with
    | none => world
    | some state =>
      ({ world with network := world.network.close state.endpoint }).callAttention station
  | .attend station term =>
    match world.stations[station]? with
    | none => world
    | some state =>
      if state.term = term ∧ state.loops.handler then world.attend station state else world
  | .detect station term =>
    match world.stations[station]? with
    | none => world
    | some state =>
      if state.term = term ∧ state.loops.detection then
        let world := (world.perform station (Participant.sweep world.now)).2
        let world := world.schedule 0 (.probe station term)
        world.schedule (world.settingsOf station).pingInterval (.detect station term)
      else
        world
  | .probe station term =>
    match world.stations[station]? with
    | none => world
    | some state =>
      if state.term = term then
        let (check, world) := world.beginProbe station
        world.modifyStation station fun state =>
          { state with inFlight := check.toList ++ state.inFlight }
      else
        world
  | .push station term =>
    match world.stations[station]? with
    | none => world
    | some state =>
      if state.term = term ∧ state.loops.dissemination then
        let world := (world.perform station Participant.gossipRound).2
        world.schedule (world.settingsOf station).syncInterval (.push station term)
      else
        world
  | .deadline station number | .answered station number =>
    match world.stations[station]? |>.bind fun state => state.participant.checks[number]? with
    | none => world
    | some check => world.expireCheck station number check

/-- Let everything happen that is due up to a moment, unless the world is satisfied before. -/
def runUntil (done : World → Bool) (limit : Instant) : (steps : Nat) → World → World
  | 0, world => world
  | steps + 1, world =>
    if done world then
      world
    else
      match world.agenda with
      | [] => world
      | event :: agenda =>
        if event.time ≤ limit then
          runUntil done limit steps ({ world with now := event.time, agenda }.occur event.due)
        else
          world

/-- Let everything happen that is due up to a moment, and move the clock there. -/
def advanceTo (world : World) (time : Instant) : World :=
  { runUntil (fun _ => false) time patience world with now := time }

/-- Let everything happen that is due by now. -/
def settle (world : World) : World :=
  world.advanceTo world.now

/-- How a check ended, if it has ended. -/
def result? (world : World) (station : Nat) (check : Nat) : Option CheckResult :=
  world.stations[station]? |>.bind fun state => state.results.find? (fun r => r.check = check)

/-- Wait until a check that has begun has ended. -/
def awaitCheck (station : Nat) : Option Nat × World → Option CheckResult × World
  | (none, world) => (none, world)
  | (some check, world) =>
    let settings := world.settingsOf station
    let limit := world.now + settings.pingTimeout + settings.pingRequestTimeout
    let world := runUntil (fun world => (world.result? station check).isSome) limit patience world
    (world.result? station check, world)

/-- Start loops at a station. -/
def startLoops (world : World) (station : Nat) (loops : Loops) : World :=
  match world.stations[station]? with
  | none => world
  | some state =>
    let world := world.modifyStation station fun state => { state with loops }
    let world := if loops.handler then world.schedule 0 (.attend station state.term) else world
    let world := if loops.detection then world.schedule 0 (.detect station state.term) else world
    if loops.dissemination then world.schedule 0 (.push station state.term) else world

/-- Stop the loops of a station; the probes they began are given up. -/
def stopLoops (world : World) (station : Nat) : World :=
  match world.stations[station]? with
  | none => world
  | some state =>
    let world := (world.perform station (Act.each Participant.abandonCheck state.inFlight)).2
    world.modifyStation station fun state =>
      { state with
        loops := {}
        term := state.term + 1
        probes := state.probes.filter (fun check => !state.inFlight.contains check)
        inFlight := [] }

end World

end Simulation

end ClusterMembership
