import ClusterMembership.Proofs.Cluster.Relaying
import ClusterMembership.Proofs.Participant.Awaiting

/-!
# Checks that are answered by way of a relay

The ping of a check may be lost, and the check may still succeed: a relay is asked, pings the target
under a number of its own, and passes the ack on.  `Cluster.CanDetour.exists_relayed_check` says so
for any cluster and any time: it takes that the relay is drawn, that the four packets can be
encoded, and that nothing comes between.
-/

namespace ClusterMembership

namespace Participant

variable {state : Participant} {check number : Nat} {found : Check} {relay target : MemberName}

/-- The request to a relay that is asked for a ping of a target. -/
def relayRequest (state : Participant) (relay target : MemberName) : Outgoing where
  target := relay
  packet := { source := state.name, payload := .pingRequest state.nextRequest target }

theorem mem_sent_each
    {packet : Packet}
    {targets : List MemberName}
    (among : target ∈ targets)
    (admitted : state.codec.admits packet) :
    { target, packet } ∈
      (Act.each (fun target => Act.send target packet) targets state).sent := by
  induction targets with
  | nil => cases among
  | cons first others step =>
    have sent : (Act.each (fun target => Act.send target packet) (first :: others) state).sent =
        (if state.codec.admits packet then [{ target := first, packet }] else []) ++
          (Act.each (fun target => Act.send target packet) others state).sent := rfl
    rw [sent, if_pos admitted]
    rcases List.mem_cons.1 among with rfl | later
    · exact List.mem_append_left _ (List.mem_singleton_self _)
    · exact List.mem_append_right _ (step later)

/-- A check that asks relays sends each of them a request, and awaits an ack under its number. -/
theorem askRelays_of_drawn
    (known : state.checks[check]? = some found)
    (drawn : relay ∈ (drawRelays found.target state).answer)
    (admitted : state.codec.admits (state.relayRequest relay found.target).packet) :
    state.relayRequest relay found.target ∈ (askRelays check state).sent ∧
      (askRelays check state).state.waiting = state.waiting.insert state.nextRequest check ∧
      (askRelays check state).state.checks =
        state.checks.insert check { found with relayed := some state.nextRequest } := by
  have somebody : ¬(drawRelays found.target state).answer.isEmpty = true :=
    fun nobody => List.ne_nil_of_mem drawn (List.isEmpty_iff.1 nobody)
  obtain ⟨-, after, sent⟩ := askRelays_of_known known
  rw [if_neg somebody, state_requestRelays] at after
  rw [after]
  refine ⟨?_, rfl, rfl⟩
  rw [sent, if_neg somebody]
  exact List.mem_append_left [] (mem_sent_each drawn admitted)

/-- The relay of a request pings the target, and notes who asked. -/
theorem firstPing_mem_sent_of_pingRequest
    {source : MemberName}
    {request : Nat}
    (foreign : source ≠ state.name)
    (other : target ≠ state.name)
    (now : Instant)
    (admitted : state.codec.admits (state.firstPing target).packet) :
    state.firstPing target ∈
      (receive now { source, payload := .pingRequest request target } state).sent := by
  have chosen : receiveFrom now source (.pingRequest request target) state =
      (if target = state.name then (do sendAck source request; return none)
        else (do relayPing now source request target; return none) : Act (Option Nat)) state :=
    rfl
  have sent :
      ((do relayPing now source request target; return none : Act (Option Nat)) state).sent =
        (if state.codec.admits (state.firstPing target).packet then [state.firstPing target]
          else []) ++ [] := rfl
  rw [receive_of_foreign foreign]
  dsimp only
  rw [chosen, if_neg other, sent, if_pos admitted]
  exact List.mem_cons_self

theorem packet_passedOn (state : Participant) (noted : Relay) (gossip : List GossipEntry) :
    (state.passedOn noted gossip).packet =
      { source := state.name
        payload := .ack noted.request (state.passedOn noted gossip).packet.entries } :=
  (Codec.wrap_entries_fitted _ _ _ _).symm

/-- The relay passes the ack of its ping on to whoever asked. -/
theorem passedOn_mem_sent
    {source : MemberName}
    {noted : Relay}
    (sound : state.table.Sound)
    (foreign : source ≠ state.name)
    (unawaited : state.waiting[number]? = none)
    (known : state.relays[number]? = some noted)
    (now : Instant)
    (gossip : List GossipEntry)
    (admitted : state.codec.admits (state.passedOn noted gossip).packet) :
    state.passedOn noted gossip ∈
      (receive now { source, payload := .ack number gossip } state).sent := by
  have still : (mergeEntries now source gossip state).state.codec = state.codec := rfl
  rw [receive_of_foreign foreign]
  dsimp only
  rw [(receiveFrom_ack_of_relayed unawaited known now source gossip).2,
    passedOn_mergeEntries sound, still, if_pos admitted]
  exact List.mem_singleton_self _

end Participant

namespace Cluster

variable {Node : Type} [DecidableEq Node]

/-! ## Events, one after the other -/

section After

variable {cluster : Cluster Node} {node other : Node} {flight : Outgoing} {now : Instant}

theorem nodes_act_self (deed : Deed) :
    (cluster.after (.act node deed now)).nodes node =
      (deed.perform now (cluster.nodes node)).1 := by
  simp [nodes_after, outcome]

theorem nodes_act_other (apart : node ≠ other) (deed : Deed) :
    (cluster.after (.act node deed now)).nodes other = cluster.nodes other := by
  simp [nodes_after, outcome, apart]

theorem nodes_deliver_self :
    (cluster.after (.deliver flight node now)).nodes node =
      (Participant.receive now flight.packet (cluster.nodes node)).state := by
  simp [nodes_after, outcome, Act.outcome]

theorem nodes_deliver_other (apart : node ≠ other) :
    (cluster.after (.deliver flight node now)).nodes other = cluster.nodes other := by
  simp [nodes_after, outcome, apart]

theorem mem_flights_act
    {deed : Deed}
    (sent : flight ∈ (deed.perform now (cluster.nodes node)).2) :
    flight ∈ (cluster.after (.act node deed now)).flights :=
  List.mem_append_right _ sent

theorem mem_flights_deliver
    {arrived : Outgoing}
    (sent : flight ∈ (Participant.receive now arrived.packet (cluster.nodes node)).sent) :
    flight ∈ (cluster.after (.deliver arrived node now)).flights :=
  List.mem_append_right _ sent

variable {profiles : Node → Profile} {events : List (Event Node)}

/-- Whatever has happened, tables are sound, and nodes have the names they started with. -/
theorem Leads.standing
    (leads : Leads profiles events cluster)
    (distinct : Function.Injective fun node => (profiles node).name)
    (node : Node) :
    (cluster.nodes node).table.Sound ∧ (cluster.nodes node).name = (profiles node).name := by
  let history : History Node := { profiles, events, distinct, admitted := leads.admitted }
  have standing := history.sound_participant events.length node
  rwa [History.participant, History.state, leads.reached] at standing

theorem Leads.act (leads : Leads profiles events cluster) (node : Node) (deed : Deed) :
    Leads profiles (events ++ [.act node deed 0]) (cluster.after (.act node deed 0)) :=
  leads.step trivial

theorem Leads.deliver
    (leads : Leads profiles events cluster)
    (flying : flight ∈ cluster.flights)
    (target : flight.target = cluster.name node) :
    Leads profiles (events ++ [.deliver flight node 0]) (cluster.after (.deliver flight node 0)) :=
  leads.step ⟨flying, target⟩

/-- Nodes keep the names that they started with, so they are told apart by them. -/
theorem Leads.name_ne
    (leads : Leads profiles events cluster)
    (distinct : Function.Injective fun node => (profiles node).name)
    (apart : node ≠ other) :
    cluster.name node ≠ cluster.name other := by
  intro same
  have first : cluster.name node = (profiles node).name := (leads.standing distinct node).2
  have second : cluster.name other = (profiles other).name := (leads.standing distinct other).2
  exact apart (distinct (first.symm.trans (same.trans second)))

end After

/-! ## A check whose ping is lost -/

section Detour

variable (cluster : Cluster Node) (prober relay heard : Node)

/-- The request to a relay to ping a node that is being checked. -/
def askedRelay : Outgoing :=
  (Participant.beginCheck (cluster.name heard) (cluster.nodes prober)).state.relayRequest
    (cluster.name relay) (cluster.name heard)

/-- The ping that the relay sends. -/
def relayedPing : Outgoing :=
  (cluster.nodes relay).firstPing (cluster.name heard)

/-- The ack of that ping. -/
def relayedReply : Outgoing :=
  (Participant.mergeEntries 0 (cluster.name relay) (cluster.relayedPing relay heard).packet.entries
    (cluster.nodes heard)).state.replyTo (cluster.name relay) (cluster.nodes relay).nextRequest

/-- What the relay notes about the request. -/
def requestNote : Relay where
  requester := cluster.name prober
  request := (cluster.nodes prober).nextRequest + 1
  startedAt := 0

/-- The relay with its note. -/
def noting : Participant :=
  { cluster.nodes relay with
    nextRequest := (cluster.nodes relay).nextRequest + 1
    relays := (cluster.nodes relay).relays.insert (cluster.nodes relay).nextRequest
      (cluster.requestNote prober) }

/-- The ack that the relay passes on. -/
def passedReply : Outgoing :=
  (cluster.noting prober relay).passedOn (cluster.requestNote prober)
    (cluster.relayedReply relay heard).packet.entries

/-- A node checks another one, whose own ping does not arrive, and asks a relay. -/
def detour : List (Event Node) :=
  [.act prober (.beginCheck (cluster.name heard)) 0,
    .act prober (.askRelays (cluster.nodes prober).nextRequest) 0,
    .deliver (cluster.askedRelay prober relay heard) relay 0,
    .deliver (cluster.relayedPing relay heard) heard 0,
    .deliver (cluster.relayedReply relay heard) relay 0,
    .deliver (cluster.passedReply prober relay heard) prober 0,
    .act prober (.concludeCheck (cluster.nodes prober).nextRequest) 0]

end Detour

/-- What it takes for a check to succeed by way of a relay. -/
structure CanDetour (cluster : Cluster Node) (prober relay heard : Node) : Prop where
  apart : prober ≠ relay ∧ prober ≠ heard ∧ relay ≠ heard
  drawn : cluster.name relay ∈ (Participant.drawRelays (cluster.name heard)
    (Participant.beginCheck (cluster.name heard) (cluster.nodes prober)).state).answer
  unawaited : (cluster.nodes relay).waiting[(cluster.nodes relay).nextRequest]? = none
  asked : (cluster.nodes prober).codec.admits (cluster.askedRelay prober relay heard).packet
  pinged : (cluster.nodes relay).codec.admits (cluster.relayedPing relay heard).packet
  replied : (cluster.nodes heard).codec.admits (cluster.relayedReply relay heard).packet
  passed : (cluster.nodes relay).codec.admits (cluster.passedReply prober relay heard).packet

section

variable
    {profiles : Node → Profile}
    {events : List (Event Node)}
    {cluster : Cluster Node}
    {prober relay heard : Node}

/-- The prober has begun the check and asked the relay. -/
theorem CanDetour.leads_asked
    (can : CanDetour cluster prober relay heard)
    (leads : Leads profiles events cluster) :
    let asked := (cluster.after (.act prober (.beginCheck (cluster.name heard)) 0)).after
      (.act prober (.askRelays (cluster.nodes prober).nextRequest) 0)
    Leads profiles (events ++ (cluster.detour prober relay heard).take 2) asked ∧
      cluster.askedRelay prober relay heard ∈ asked.flights ∧
      (asked.nodes prober).waiting[(cluster.nodes prober).nextRequest + 1]? =
        some (cluster.nodes prober).nextRequest ∧
      (∃ found, (asked.nodes prober).checks[(cluster.nodes prober).nextRequest]? = some found) ∧
      asked.nodes relay = cluster.nodes relay ∧ asked.nodes heard = cluster.nodes heard := by
  intro asked
  obtain ⟨toRelay, toHeard, -⟩ := can.apart
  let begun := (Participant.beginCheck (cluster.name heard) (cluster.nodes prober)).state
  have begins : (cluster.after (.act prober (.beginCheck (cluster.name heard)) 0)).nodes prober =
      begun := nodes_act_self _
  have known : begun.checks[(cluster.nodes prober).nextRequest]? =
      some { target := cluster.name heard } := by
    show ((cluster.nodes prober).checks.insert (cluster.nodes prober).nextRequest
      { target := cluster.name heard })[(cluster.nodes prober).nextRequest]? = _
    simp
  obtain ⟨sent, waiting, checks⟩ := Participant.askRelays_of_drawn known can.drawn can.asked
  have asks : asked.nodes prober =
      (Participant.askRelays (cluster.nodes prober).nextRequest begun).state := by
    rw [← begins]
    exact nodes_act_self _
  refine ⟨?_, mem_flights_act ?_, ?_,
    ⟨{ target := cluster.name heard, relayed := some begun.nextRequest }, ?_⟩, ?_, ?_⟩
  · have acted := (leads.act prober (.beginCheck (cluster.name heard))).act prober
      (.askRelays (cluster.nodes prober).nextRequest)
    rw [List.append_assoc] at acted
    exact acted
  · rw [begins]
    exact sent
  · rw [asks, waiting]
    exact Std.ExtHashMap.getElem?_insert_self
  · rw [asks, checks]
    exact Std.ExtHashMap.getElem?_insert_self
  · exact (nodes_act_other toRelay _).trans (nodes_act_other toRelay _)
  · exact (nodes_act_other toHeard _).trans (nodes_act_other toHeard _)

/-- The relay has noted the request and pinged the target, and the target has answered. -/
theorem CanDetour.leads_replied
    (can : CanDetour cluster prober relay heard)
    (distinct : Function.Injective fun node => (profiles node).name)
    (leads : Leads profiles events cluster)
    {asked : Cluster Node}
    {earlier : List (Event Node)}
    (toAsked : Leads profiles earlier asked)
    (request : cluster.askedRelay prober relay heard ∈ asked.flights)
    (relaying : asked.nodes relay = cluster.nodes relay)
    (answering : asked.nodes heard = cluster.nodes heard) :
    let replied := (asked.after (.deliver (cluster.askedRelay prober relay heard) relay 0)).after
      (.deliver (cluster.relayedPing relay heard) heard 0)
    Leads profiles
        (earlier ++ [.deliver (cluster.askedRelay prober relay heard) relay 0,
          .deliver (cluster.relayedPing relay heard) heard 0]) replied ∧
      cluster.relayedReply relay heard ∈ replied.flights ∧
      replied.nodes prober = asked.nodes prober ∧
      replied.nodes relay = cluster.noting prober relay := by
  intro replied
  obtain ⟨toRelay, toHeard, between⟩ := can.apart
  let noted := asked.after (.deliver (cluster.askedRelay prober relay heard) relay 0)
  have still : noted.nodes heard = cluster.nodes heard :=
    (nodes_deliver_other between).trans answering
  have toNoted : Leads profiles
      (earlier ++ [.deliver (cluster.askedRelay prober relay heard) relay 0]) noted :=
    toAsked.deliver request (congrArg Participant.name relaying.symm)
  have ping : cluster.relayedPing relay heard ∈ noted.flights := by
    apply mem_flights_deliver
    rw [relaying]
    exact Participant.firstPing_mem_sent_of_pingRequest (leads.name_ne distinct toRelay)
      (leads.name_ne distinct between.symm) 0 can.pinged
  have toReplied := toNoted.deliver ping (congrArg Participant.name still.symm)
  rw [List.append_assoc] at toReplied
  refine ⟨toReplied, mem_flights_deliver ?_, ?_, ?_⟩
  · rw [still, relayedPing, Participant.packet_firstPing]
    exact Participant.replyTo_mem_sent (leads.name_ne distinct between) rfl can.replied
  · exact (nodes_deliver_other toHeard.symm).trans (nodes_deliver_other toRelay.symm)
  · refine (nodes_deliver_other between.symm).trans ?_
    rw [nodes_deliver_self, relaying,
      Participant.receive_of_foreign (leads.name_ne distinct toRelay)]
    exact Participant.state_receiveFrom_pingRequest (leads.name_ne distinct between.symm) 0 _ _

/-- The relay has passed the ack on, and the check can be concluded with success. -/
theorem CanDetour.leads_passed
    (can : CanDetour cluster prober relay heard)
    (distinct : Function.Injective fun node => (profiles node).name)
    (leads : Leads profiles events cluster) :
    ∃ passed : Cluster Node,
      Leads profiles (events ++ (cluster.detour prober relay heard).take 6) passed ∧
        (Participant.concludeCheck (cluster.nodes prober).nextRequest
          (passed.nodes prober)).answer = true := by
  obtain ⟨toRelay, toHeard, between⟩ := can.apart
  obtain ⟨toAsked, request, awaited, ⟨found, known⟩, relaying, answering⟩ := can.leads_asked leads
  obtain ⟨toReplied, reply, waits, notes⟩ :=
    can.leads_replied distinct leads toAsked request relaying answering
  generalize (cluster.after (.act prober (.beginCheck (cluster.name heard)) 0)).after
    (.act prober (.askRelays (cluster.nodes prober).nextRequest) 0) = asked at *
  generalize (asked.after (.deliver (cluster.askedRelay prober relay heard) relay 0)).after
    (.deliver (cluster.relayedPing relay heard) heard 0) = replied at *
  have toReturned := toReplied.deliver reply (congrArg Participant.name notes).symm
  -- the ack that the relay gets is under the number of its ping
  have named : (Participant.mergeEntries 0 (cluster.name relay)
      (cluster.relayedPing relay heard).packet.entries (cluster.nodes heard)).state.name =
        cluster.name heard :=
    Participant.name_mergeEntries (leads.standing distinct heard).1 0 _ _
  have acked := Participant.packet_replyTo (Participant.mergeEntries 0 (cluster.name relay)
    (cluster.relayedPing relay heard).packet.entries (cluster.nodes heard)).state
    (cluster.name relay) (cluster.nodes relay).nextRequest
  rw [named] at acked
  have sound : (cluster.noting prober relay).table.Sound := (leads.standing distinct relay).1
  have passing : cluster.passedReply prober relay heard ∈
      (replied.after (.deliver (cluster.relayedReply relay heard) relay 0)).flights := by
    apply mem_flights_deliver
    rw [notes, relayedReply, acked]
    exact Participant.passedOn_mem_sent sound (leads.name_ne distinct between.symm) can.unawaited
      Std.ExtHashMap.getElem?_insert_self 0 _ can.passed
  have target : cluster.name prober =
      (replied.after (.deliver (cluster.relayedReply relay heard) relay 0)).name prober :=
    (leads.standing distinct prober).2.trans (toReturned.standing distinct prober).2.symm
  have toPassed := toReturned.deliver passing target
  rw [List.append_assoc, List.append_assoc, List.append_assoc] at toPassed
  refine ⟨_, toPassed, ?_⟩
  have waiting :
      (replied.after (.deliver (cluster.relayedReply relay heard) relay 0)).nodes prober =
        asked.nodes prober := (nodes_deliver_other toRelay.symm).trans waits
  rw [nodes_deliver_self, waiting, passedReply, Participant.packet_passedOn]
  refine Participant.answer_concludeCheck_of_awaited ?_ awaited known _ 0
  rw [(toAsked.standing distinct prober).2, ← (leads.standing distinct prober).2]
  exact leads.name_ne distinct toRelay.symm

/--
In any cluster, at any time, a check may succeed by way of a relay.  From then on, the target hears
of the relay only.
-/
theorem CanDetour.exists_relayed_check
    (can : CanDetour cluster prober relay heard)
    (distinct : Function.Injective fun node => (profiles node).name)
    (leads : Leads profiles events cluster) :
    ∃ (history : History Node) (check : Nat), history.profiles = profiles ∧
      history.Begins events.length prober (cluster.name heard) check ∧
      history.Succeeds (events.length + 6) prober check ∧
      ∀ time flight now, events.length ≤ time →
        history.events[time]? = some (.deliver flight heard now) →
          flight.packet.source = cluster.name relay := by
  obtain ⟨passed, toPassed, succeeds⟩ := can.leads_passed distinct leads
  have whole := toPassed.act prober (.concludeCheck (cluster.nodes prober).nextRequest)
  rw [List.append_assoc] at whole
  have all : (cluster.detour prober relay heard).take 6 ++
      [.act prober (.concludeCheck (cluster.nodes prober).nextRequest) 0] =
        cluster.detour prober relay heard := rfl
  rw [all] at whole
  let history : History Node :=
    { profiles, events := events ++ cluster.detour prober relay heard, distinct
      admitted := whole.admitted }
  have begins : history.state events.length = cluster :=
    (stateAt_append profiles events _ (Nat.le_refl _)).trans leads.reached
  have ends : history.state (events.length + 6) = passed := by
    have length : (events ++ (cluster.detour prober relay heard).take 6).length =
        events.length + 6 := List.length_append
    have split : history.events = (events ++ (cluster.detour prober relay heard).take 6) ++
        [.act prober (.concludeCheck (cluster.nodes prober).nextRequest) 0] := by
      rw [List.append_assoc, all]
    rw [History.state, split, ← length, stateAt_append _ _ _ (Nat.le_refl _)]
    exact toPassed.reached
  have later : ∀ time, history.events[events.length + time]? =
      (cluster.detour prober relay heard)[time]? := fun time => by
    rw [List.getElem?_append_right (Nat.le_add_right _ _), Nat.add_sub_cancel_left]
  refine ⟨history, (cluster.nodes prober).nextRequest, rfl, ⟨⟨0, later 0⟩, ?_⟩, ⟨⟨0, later 6⟩, ?_⟩,
    fun time flight now after happens => ?_⟩
  · rw [History.participant, begins]
    rfl
  · rw [History.participant, ends]
    exact succeeds
  · obtain ⟨place, rfl⟩ := Nat.exists_eq_add_of_le after
    rw [later] at happens
    obtain ⟨-, toHeard, between⟩ := can.apart
    have among := List.mem_of_getElem? happens
    simp only [detour, List.mem_cons, Event.deliver.injEq, reduceCtorEq, between.symm,
      toHeard.symm, false_and, and_false, false_or, or_false, List.not_mem_nil] at among
    rw [among.1, relayedPing, Participant.packet_firstPing]
    rfl

end

end Cluster

end ClusterMembership
