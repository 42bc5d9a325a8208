import ClusterMembership.Codec
import ClusterMembership.Settings.Basic
import ClusterMembership.Shuffle.Weak
import ClusterMembership.Table.Selection
import ClusterMembership.Table.Sweep

/-!
# One participant of the protocol

A participant is the state of the protocol at one node: the membership table, the
two shuffles that pick whom to probe and whom to send gossip, the checks that wait
for an ack, and the probes made on behalf of others.

Everything a participant does is an `Act`: it changes the state, hands packets
over for sending, and tells subscribers about changes of the table.  An act takes
no time.  Where the protocol waits, one act ends and another one follows, so the
acts are the sections between which anything else may happen.
-/

namespace ClusterMembership

/-- A packet on its way to a member. -/
structure Outgoing where
  target : MemberName
  packet : Packet
  deriving DecidableEq, Inhabited, Repr

/-- A ping sent on behalf of another member. -/
structure Relay where
  /-- The member that asked for the ping. -/
  requester : MemberName
  /-- The number of its request. -/
  request : Nat
  startedAt : Instant
  deriving DecidableEq, Inhabited, Repr

/-- A check of one member that is under way. -/
structure Check where
  target : MemberName
  /-- The request number the relays answer, once they were asked. -/
  relayed : Option Nat := none
  /-- Whether an ack has arrived. -/
  answered : Bool := false
  deriving DecidableEq, Inhabited, Repr

/-- The state of the protocol at one node. -/
structure Participant where
  settings : ProtocolSettings
  codec : Codec
  table : Table
  /-- The request numbers an ack is awaited for, each with the check it belongs to. -/
  waiting : Std.ExtHashMap Nat Nat
  /-- The checks under way, each by the number of its direct request. -/
  checks : Std.ExtHashMap Nat Check
  /-- The pings sent on behalf of others, by the number of the ping. -/
  relays : Std.ExtHashMap Nat Relay
  probeTargets : Shuffle Handle
  gossipTargets : Shuffle Handle
  /-- The next request number that was not used yet. -/
  nextRequest : Nat
  /-- The source of every other random choice. -/
  tape : Tape

/-- What an act answers, leaves, sends, and tells subscribers. -/
structure Effect (α : Type) where
  answer : α
  state : Participant
  sent : List Outgoing
  changes : List MemberChange

/-- Something a participant does at one moment. -/
def Act (α : Type) : Type :=
  Participant → Effect α

instance : Monad Act where
  pure answer := fun state => { answer, state, sent := [], changes := [] }
  bind first next := fun state =>
    let before := first state
    let after := next before.answer before.state
    { after with
      sent := before.sent ++ after.sent
      changes := before.changes ++ after.changes }

namespace Act

/-- The state as it is. -/
def state : Act Participant := fun state =>
  { answer := state, state, sent := [], changes := [] }

/-- Change the state. -/
def modify (change : Participant → Participant) : Act Unit := fun state =>
  { answer := (), state := change state, sent := [], changes := [] }

/-- Change the table, and tell subscribers what changed. -/
def onTable {α : Type} (change : Table → Table.Outcome α) : Act α := fun state =>
  let outcome := change state.table
  { answer := outcome.answer
    state := { state with table := outcome.table }
    sent := []
    changes := outcome.changes }

/-- Send a packet; one that cannot be encoded is dropped. -/
def send (target : MemberName) (packet : Packet) : Act Unit := fun state =>
  { answer := ()
    state
    sent := if state.codec.admits packet then [{ target, packet }] else []
    changes := [] }

/-- Do one thing for every element of a list, in order. -/
def each {α : Type} (action : α → Act Unit) : List α → Act Unit
  | [] => pure ()
  | value :: values => do
    action value
    each action values

end Act

namespace Participant

/-- The name of the node. -/
def name (participant : Participant) : MemberName :=
  participant.table.own.name

/-- The participant of a node that starts with a table. -/
def start (settings : ProtocolSettings) (codec : Codec) (table : Table) (tape : Tape) :
    Participant :=
  let (probeTape, tape) := tape.split
  let (gossipTape, tape) := tape.split
  let (first, tape) := tape.below (Bytes.capacity 4)
  { settings
    codec
    table
    waiting := ∅
    checks := ∅
    relays := ∅
    probeTargets := .empty probeTape
    gossipTargets := .empty gossipTape
    nextRequest := first
    tape }

/-- A request number that was not used before. -/
def freshRequest : Act Nat := do
  let participant ← Act.state
  Act.modify fun participant => { participant with nextRequest := participant.nextRequest + 1 }
  return participant.nextRequest

/-- Take the handles of the members that joined the table since the last time. -/
def takeInserted : Act (List Handle) :=
  Act.onTable fun table =>
    let (handles, table) := table.takeInserted
    { answer := handles, table, changes := [] }

/-- Make handles candidates of both shuffles. -/
def addTargets (handles : List Handle) : Act Unit :=
  Act.modify fun participant =>
    { participant with
      probeTargets :=
        handles.foldl (fun shuffle handle => (shuffle.add handle).2) participant.probeTargets
      gossipTargets :=
        handles.foldl (fun shuffle handle => (shuffle.add handle).2) participant.gossipTargets }

/-- Let the shuffles know the members that joined the table. -/
def syncTargets : Act Unit := do
  addTargets (← takeInserted)

/--
What goes along with a ping or an ack: the own entry, and gossip the target has
not acknowledged.
-/
def piggyback (participant : Participant) (target : MemberName) : List GossipEntry :=
  let gossip := participant.table.gossip target participant.settings.maxGossipEntries
  participant.table.own.entry :: gossip.filter (fun entry => entry.name ≠ participant.name)

/-- Send a packet with as many leading entries as one datagram takes. -/
def sendFitted
    (target : MemberName)
    (carrier : Carrier)
    (entries : List GossipEntry) :
    Act Unit := do
  let participant ← Act.state
  Act.send target
    (participant.codec.fitted carrier participant.settings.maxPacketSize entries)

/-- Send a ping under a request number. -/
def sendPing (target : MemberName) (request : Nat) : Act Unit := do
  let participant ← Act.state
  sendFitted target (.ping participant.name request) (participant.piggyback target)

/-- Send the ack of a request. -/
def sendAck (target : MemberName) (request : Nat) : Act Unit := do
  let participant ← Act.state
  sendFitted target (.ack participant.name request) (participant.piggyback target)

end Participant

end ClusterMembership
