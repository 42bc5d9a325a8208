import ClusterMembership.Participant.Basic

/-!
# Dissemination

Now and then a participant pushes what its peers have not acknowledged to a few of
them.  When it leaves the cluster, it tells everybody it can reach.  A sweep moves
on what timed out: members that stayed suspect or unavailable for too long, and
probes on behalf of others that nobody waits for any more.
-/

namespace ClusterMembership

namespace Participant

/-- Send packets to every target, packet by packet. -/
def sendAll (packets : List Packet) (targets : List MemberName) : Act Unit :=
  Act.each (fun packet => Act.each (fun target => Act.send target packet) targets) packets

/--
Push entries to every target, in as many datagrams as they need.  The answer is
the number of datagrams each target is sent.
-/
def disseminate
    (targets : List MemberName)
    (entries : List GossipEntry) :
    Act (Except GossipError Nat) := do
  if targets.isEmpty || entries.isEmpty then
    return .ok 0
  let participant ← Act.state
  let packets :=
    participant.codec.batches (.gossip participant.name) participant.settings.maxPacketSize entries
  match packets with
  | .error cause => return .error cause
  | .ok packets =>
    sendAll packets targets
    return .ok packets.length

/-- Draw the members that are sent gossip in one round. -/
def drawGossipTargets : Act (List MemberName) := fun participant =>
  let available (handle : Handle) : Bool :=
    ((participant.table.resolve? handle).map fun member => member.status.isAvailable).getD false
  let (handles, gossipTargets) :=
    participant.gossipTargets.choose participant.table.isLive available
      participant.settings.gossipFanout
  { answer := (handles.filterMap participant.table.resolve?).map Member.name
    state := { participant with gossipTargets }
    sent := []
    changes := [] }

/-- Push what one peer has not acknowledged; the answer is the number of datagrams. -/
def gossipTo (target : MemberName) : Act Nat := do
  let participant ← Act.state
  let entries := participant.table.gossip target participant.settings.maxGossipEntries
  match ← disseminate [target] entries with
  | .ok count => return count
  | .error _ => return 0

/-- Push gossip to each of a list of peers; the answer is the number of datagrams. -/
def gossipToAll : List MemberName → Act Nat
  | [] => return 0
  | target :: others => do
    let count ← gossipTo target
    return count + (← gossipToAll others)

/-- One round of gossip to a few available members; the answer is the number of datagrams. -/
def gossipRound : Act Nat := do
  syncTargets
  gossipToAll (← drawGossipTargets)

/-- Mark the node offline and tell every available member. -/
def leave (now : Instant) : Act (Except GossipError Nat) := do
  let entry ← Act.onTable (·.leave now)
  let participant ← Act.state
  disseminate (participant.table.withStatus .available) [entry]

/-- The timeouts of a sweep. -/
def timeouts (participant : Participant) : Table.Timeouts where
  suspect := participant.settings.suspectTimeout
  unavailable := participant.settings.unavailableTimeout
  retention := participant.settings.offlineRetention

/-- Drop the handles of members that left the table from both shuffles. -/
def pruneTargets : Act Unit :=
  Act.modify fun participant =>
    { participant with
      probeTargets := (participant.probeTargets.prune participant.table.isLive).2
      gossipTargets := (participant.gossipTargets.prune participant.table.isLive).2 }

/-- How long the answer to a probe on behalf of another member is of use. -/
def relayLifetime (settings : ProtocolSettings) : Nat :=
  settings.pingTimeout + settings.pingRequestTimeout

/-- Forget the probes on behalf of others that nobody waits for any more. -/
def dropStaleRelays (now : Instant) : Act Unit :=
  Act.modify fun participant =>
    { participant with
      relays := participant.relays.filter fun _ relay =>
        now - relay.startedAt < relayLifetime participant.settings }

/-- Move on everything that timed out; the answer counts the members moved or dropped. -/
def sweep (now : Instant) : Act Nat := do
  let participant ← Act.state
  let swept ← Act.onTable (·.expire now now participant.timeouts)
  if swept > 0 then
    pruneTargets
  dropStaleRelays now
  return swept

end Participant

end ClusterMembership
