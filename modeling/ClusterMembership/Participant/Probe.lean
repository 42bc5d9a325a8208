import ClusterMembership.Participant.Basic

/-!
# Probing

A check pings its target and waits.  When the time for a direct ack is up, it asks
a few other members to ping the target and waits once more.  An ack under either
of its two request numbers answers it.  When the check is concluded, neither number
is awaited any longer.

A probe is a check of the next member in the shuffle whose outcome goes into the
table: an online member that does not answer becomes suspect, and a member that
answers becomes online.
-/

namespace ClusterMembership

namespace Participant

/-- Begin a check of a member; the answer is the number of the direct request. -/
def beginCheck (target : MemberName) : Act Nat := do
  let request ← freshRequest
  Act.modify fun participant =>
    { participant with
      waiting := participant.waiting.insert request request
      checks := participant.checks.insert request { target } }
  sendPing target request
  return request

/-- Draw members that can probe a target: available ones, other than the target. -/
def drawRelays (target : MemberName) : Act (List MemberName) := fun participant =>
  let (relays, tape) :=
    participant.table.sample .available participant.settings.pingRequestCount
      [target, participant.name] participant.tape
  { answer := relays, state := { participant with tape }, sent := [], changes := [] }

/--
Ask other members to probe the target of a check.  The answer says whether there
was anybody to ask, and with that whether waiting on makes sense.
-/
def askRelays (request : Nat) : Act Bool := do
  let participant ← Act.state
  match participant.checks[request]? with
  | none => return false
  | some check =>
    let relays ← drawRelays check.target
    if relays.isEmpty then
      return false
    else
      let relayed ← freshRequest
      Act.modify fun participant =>
        { participant with
          waiting := participant.waiting.insert relayed request
          checks := participant.checks.insert request { check with relayed := some relayed } }
      let packet : Packet :=
        { source := participant.name, payload := .pingRequest relayed check.target }
      Act.each (fun relay => Act.send relay packet) relays
      return true

/-- End a check; the answer says whether an ack arrived. -/
def concludeCheck (request : Nat) : Act Bool := do
  let participant ← Act.state
  match participant.checks[request]? with
  | none => return false
  | some check =>
    Act.modify fun participant =>
      let waiting := participant.waiting.erase request
      { participant with
        checks := participant.checks.erase request
        waiting :=
          match check.relayed with
          | some relayed => waiting.erase relayed
          | none => waiting }
    return check.answered

/-- Give up a check without concluding it: its request numbers stay awaited. -/
def abandonCheck (request : Nat) : Act Unit :=
  Act.modify fun participant =>
    { participant with checks := participant.checks.erase request }

/-- Draw the next member to probe. -/
def drawProbeTarget : Act (Option MemberName) := fun participant =>
  let (handle, probeTargets) := participant.probeTargets.choiceLive participant.table.isLive
  { answer := (handle.bind participant.table.resolve?).map Member.name
    state := { participant with probeTargets }
    sent := []
    changes := [] }

/-- The next member to probe, among all that are in the table by now. -/
def nextProbe : Act (Option MemberName) := do
  syncTargets
  drawProbeTarget

/-- The status that the outcome of a probe gives a member, where it changes the status. -/
def probedStatus? (answered : Bool) (status : Status) : Option Status :=
  match answered, status with
  | true, .online => none
  | true, _ => some .online
  | false, .online => some .suspect
  | false, _ => none

/--
Record the outcome of a probe.  The answer says whether the target is still in the
table.
-/
def recordProbe (now : Instant) (target : MemberName) (answered : Bool) : Act Bool := do
  let participant ← Act.state
  match participant.table.find? target with
  | none => return false
  | some member =>
    match probedStatus? answered member.status with
    | none => return true
    | some status =>
      let _ ← Act.onTable fun table =>
        let table := table.tick
        table.apply now target status table.clock none
      return true

end Participant

end ClusterMembership
