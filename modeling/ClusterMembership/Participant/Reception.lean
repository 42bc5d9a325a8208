import ClusterMembership.Participant.Basic

/-!
# Reception

What a participant does with a packet.  Gossip is merged wherever it comes along.
A ping is answered by an ack.  A request to ping another member makes the
participant a relay; the ack it gets is passed on to the requester, under the
number of the request.  An ack that a check of its own waits for is never passed on.

A participant ignores packets under its own name, and datagrams that are not signed
packets.
-/

namespace ClusterMembership

namespace Participant

/-- Merge entries from a member into the table. -/
def mergeEntries (now : Instant) (source : MemberName) (entries : List GossipEntry) : Act Unit := do
  let _ ← Act.onTable (·.mergeAll now source entries)
  return

/-- Become the relay of a request: remember who asked, and ping the target. -/
def relayPing (now : Instant) (requester : MemberName) (request : Nat) (target : MemberName) :
    Act Unit := do
  let ping ← freshRequest
  Act.modify fun participant =>
    { participant with
      relays := participant.relays.insert ping { requester, request, startedAt := now } }
  sendPing target ping

/-- Note the ack of a check; the answer is the check, if this is its first ack. -/
def noteAck (check : Nat) : Act (Option Nat) := do
  let participant ← Act.state
  match participant.checks[check]? with
  | none => return none
  | some state =>
    if state.answered then
      return none
    else
      Act.modify fun participant =>
        { participant with checks := participant.checks.insert check { state with answered := true } }
      return some check

/-- Pass an ack on to the member that asked for the ping, if it belongs to a relayed one. -/
def forwardAck (ping : Nat) (gossip : List GossipEntry) : Act Unit := do
  let participant ← Act.state
  match participant.relays[ping]? with
  | none => return
  | some relay =>
    Act.modify fun participant => { participant with relays := participant.relays.erase ping }
    sendFitted relay.requester (.ack participant.name relay.request) gossip

/-- Handle a packet of another member; the answer is the check that it answers, if any. -/
def receiveFrom (now : Instant) (source : MemberName) : Payload → Act (Option Nat)
  | .ping request gossip => do
    mergeEntries now source gossip
    sendAck source request
    return none
  | .pingRequest request target => do
    let participant ← Act.state
    if target = participant.name then
      sendAck source request
    else
      relayPing now source request target
    return none
  | .ack request gossip => do
    mergeEntries now source gossip
    let participant ← Act.state
    match participant.waiting[request]? with
    | some check => noteAck check
    | none =>
      forwardAck request gossip
      return none
  | .gossip entries => do
    mergeEntries now source entries
    let participant ← Act.state
    Act.send source
      { source := participant.name, payload := .gossipAck (entries.map GossipEntry.ack) }
    return none
  | .gossipAck acks => do
    Act.modify fun participant =>
      { participant with table := participant.table.recordAcks source acks }
    return none

/-- Handle a packet; the answer is the check that it answers, if any. -/
def receive (now : Instant) (packet : Packet) : Act (Option Nat) := do
  let participant ← Act.state
  if packet.source = participant.name then
    return none
  else
    receiveFrom now packet.source packet.payload

/-- Handle a datagram; one that is not a signed packet is dropped. -/
def receiveDatagram (now : Instant) (datagram : Bytes) : Act (Option Nat) := do
  let participant ← Act.state
  match participant.codec.decode datagram with
  | .ok packet => receive now packet
  | .error _ => return none

end Participant

end ClusterMembership
