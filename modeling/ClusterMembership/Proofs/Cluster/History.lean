import ClusterMembership.Proofs.Cluster.Run
import ClusterMembership.Proofs.Participant.Ledger
import ClusterMembership.Proofs.Table.OwnRow

/-!
# The history of a cluster

A history tells a run from its beginning: the nodes start, and then event follows event.  What
happens at which time can be looked up, so that a statement may speak of what came before.
Packets are lost, duplicated and delayed as in any run; sweeps may drop members as well.

`Cluster.Turn` is what an event comes to at one node, as far as requests are concerned.  All
that is proved about requests goes by its cases.
-/

namespace ClusterMembership

/-! ## One event at one node -/

theorem Participant.table_sweep (state : Participant) (now : Instant) :
    (sweep now state).state.table = (state.table.expire now now state.timeouts).table := by
  by_cases moved : 0 < (state.table.expire now now state.timeouts).answer
  · simp [sweep, bind, pure, Act.state, Act.onTable, pruneTargets, dropStaleRelays, Act.modify,
      moved]
  · simp [sweep, bind, pure, Act.state, Act.onTable, dropStaleRelays, Act.modify, moved]

/-- Whatever a node does of its own accord, its table stays sound, and the node keeps its name. -/
theorem Deed.sound_perform
    {state : Participant}
    (sound : state.table.Sound)
    (deed : Deed)
    (now : Instant) :
    (deed.perform now state).1.table.Sound ∧ (deed.perform now state).1.name = state.name := by
  by_cases swept : deed = .sweep
  · have table : (Deed.perform now state .sweep).1.table =
        state.table.perform (.expire now now state.timeouts) :=
      state.table_sweep now
    rw [swept, Participant.name, table]
    exact ⟨sound.perform _, sound.name_perform _⟩
  · have retains : deed.Retains now state := by
      cases deed <;> trivial
    have expanded := Deed.expanded sound retains
    exact ⟨expanded.table.sound, expanded.table.advances.own⟩

namespace Cluster

variable {Node : Type}

/-- Whether an event can take place: packets arrive where they are sent. -/
def Admits (cluster : Cluster Node) : Event Node → Prop
  | .deliver flight node _ => flight ∈ cluster.flights ∧ flight.target = cluster.name node
  | .lose flight | .duplicate flight => flight ∈ cluster.flights
  | .act .. => True

theorem admits_of_possible
    {cluster : Cluster Node}
    {event : Event Node}
    (possible : cluster.Possible event) :
    cluster.Admits event := by
  cases event with
  | deliver flight node now => exact possible
  | lose flight => exact possible
  | duplicate flight => exact possible
  | act node deed now => trivial

/-! ## Turns -/

/-- What an event at a node comes to, as far as requests are concerned. -/
inductive Turn
    (event : Option (Event Node))
    (node : Node)
    (before after : Participant)
    (sent : List Outgoing) :
    Prop where
  /-- No request is involved. -/
  | idle
      (books : before.Books {} after)
      (news : ∀ flight ∈ sent, flight.IsNews)
  /-- The node begins a check. -/
  | begins {target : MemberName} {now : Instant}
      (happens : event = some (.act node (.beginCheck target) now))
      (issued : before.nextRequest < after.nextRequest)
      (books : before.Books
        { waiting := some (before.nextRequest, before.nextRequest)
          check := some (before.nextRequest, { target }) } after)
      (pings : ∀ flight ∈ sent, flight.Pings before.name before.nextRequest target)
  /-- The node asks others to ping the target of a check. -/
  | asks {check : Nat} {now : Instant} {found : Check}
      (happens : event = some (.act node (.askRelays check) now))
      (known : before.checks[check]? = some found)
      (issued : before.nextRequest < after.nextRequest)
      (books : before.Books
        { waiting := some (before.nextRequest, check)
          check := some (check, { found with relayed := some before.nextRequest }) } after)
      (requests : ∀ flight ∈ sent,
        flight.Requests before.name before.nextRequest found.target)
  /-- The node pings a member for somebody else. -/
  | relays {flight : Outgoing} {now : Instant} {target : MemberName} {relay : Relay}
      (happens : event = some (.deliver flight node now))
      (request : flight.packet =
        { source := relay.requester, payload := .pingRequest relay.request target })
      (issued : before.nextRequest < after.nextRequest)
      (books : before.Books { relay := some (before.nextRequest, relay) } after)
      (pings : ∀ ping ∈ sent, ping.Pings before.name before.nextRequest target)
  /-- The node acknowledges a request made to it. -/
  | answers {flight : Outgoing} {now : Instant} {number : Nat}
      (happens : event = some (.deliver flight node now))
      (request : (∃ gossip, flight.packet.payload = .ping number gossip) ∨
        flight.packet.payload = .pingRequest number before.name)
      (books : before.Books {} after)
      (acks : ∀ ack ∈ sent, ack.Acks number flight.packet.source)
  /-- The node notes an ack that a check of its own waits for. -/
  | notes {flight : Outgoing} {now : Instant} {number check : Nat} {found : Check}
      (happens : event = some (.deliver flight node now))
      (ack : ∃ gossip, flight.packet.payload = .ack number gossip)
      (awaited : before.waiting[number]? = some check)
      (known : before.checks[check]? = some found)
      (books : before.Books { check := some (check, { found with answered := true }) } after)
      (news : ∀ flight ∈ sent, flight.IsNews)
  /-- The node passes an ack on. -/
  | forwards {flight : Outgoing} {now : Instant} {number : Nat} {relay : Relay}
      (happens : event = some (.deliver flight node now))
      (ack : ∃ gossip, flight.packet.payload = .ack number gossip)
      (known : before.relays[number]? = some relay)
      (books : before.Books {} after)
      (acks : ∀ ack ∈ sent, ack.Acks relay.request relay.requester)

namespace Turn

variable {event : Option (Event Node)} {node : Node} {state : Participant}

theorem of_records
    {α : Type}
    {act : Act α}
    (records : act.Records {} Outgoing.IsNews state) :
    Turn event node state (act state).state (act state).sent :=
  .idle records.books records.sent

/-- A node goes on to the relays of a check if it knows any. -/
theorem of_askRelays (check : Nat) (now : Instant) :
    Turn (some (.act node (.askRelays check) now)) node state
      (Participant.askRelays check state).state (Participant.askRelays check state).sent := by
  by_cases asks : ∃ found, state.checks[check]? = some found ∧
      (Participant.drawRelays found.target state).answer ≠ []
  · rcases asks with ⟨found, known, drawn⟩
    have issues := Participant.issues_askRelays known drawn
    exact .asks rfl known issues.issued issues.books issues.sent
  · refine .of_records (Participant.records_askRelays_of_nobody ?_)
    intro found known
    by_contra drawn
    exact asks ⟨found, known, drawn⟩

theorem of_perform (deed : Deed) (now : Instant) :
    Turn (some (.act node deed now)) node state
      (deed.perform now state).1 (deed.perform now state).2 := by
  cases deed with
  | beginCheck target =>
    have issues := Participant.issues_beginCheck state target
    exact .begins rfl issues.issued issues.books issues.sent
  | askRelays check => exact of_askRelays check now
  | concludeCheck check => exact of_records (Participant.records_concludeCheck check)
  | abandonCheck check => exact of_records (Participant.records_abandonCheck check)
  | recordProbe target answered =>
    exact of_records (Participant.records_recordProbe now target answered)
  | nextProbe => exact of_records Participant.records_nextProbe
  | gossipTo target => exact of_records (Participant.records_gossipTo target)
  | gossipRound => exact of_records Participant.records_gossipRound
  | sweep => exact of_records (Participant.records_sweep now)
  | setMetadata payload => exact of_records (.onTable _)
  | leave => exact of_records (Participant.records_leave now)

/-- What becomes of an ack depends on what the node awaits, for itself or for somebody else. -/
theorem of_receiveFrom_ack
    {flight : Outgoing}
    {request : Nat}
    {gossip : List GossipEntry}
    (said : flight.packet.payload = .ack request gossip)
    (now : Instant) :
    let act := Participant.receiveFrom now flight.packet.source (.ack request gossip)
    Turn (some (.deliver flight node now)) node state (act state).state (act state).sent := by
  intro act
  cases awaited : state.waiting[request]? with
  | some check =>
    cases known : state.checks[check]? with
    | none =>
      apply of_records
      apply Participant.records_receiveFrom_ack awaited
      intro found held
      rw [known] at held
      cases held
    | some found =>
      have records :
          act.Records { check := some (check, { found with answered := true }) } Outgoing.IsNews
            state := by
        apply Participant.records_receiveFrom_ack awaited
        intro other held
        rw [known] at held
        cases held
        rfl
      exact .notes rfl ⟨gossip, said⟩ awaited known records.books records.sent
  | none =>
    cases known : state.relays[request]? with
    | none =>
      apply of_records
      exact Participant.records_receiveFrom_ack_of_unknown awaited known _ _ _
    | some relay =>
      have records := Participant.records_receiveFrom_ack_of_relayed awaited known now
        flight.packet.source gossip
      exact .forwards rfl ⟨gossip, said⟩ known records.books records.sent

theorem of_receive (flight : Outgoing) (now : Instant) :
    Turn (some (.deliver flight node now)) node state
      (Participant.receive now flight.packet state).state
      (Participant.receive now flight.packet state).sent := by
  by_cases own : flight.packet.source = state.name
  · exact of_records (Participant.records_receive_of_own own now)
  · rw [Participant.receive_of_foreign own]
    cases said : flight.packet.payload with
    | ping request gossip =>
      have records := Participant.records_receiveFrom_ping state now flight.packet.source request
        gossip
      exact .answers rfl (Or.inl ⟨gossip, said⟩) records.books records.sent
    | pingRequest request target =>
      by_cases self : target = state.name
      · subst self
        have records := Participant.records_receiveFrom_pingRequest state now
          flight.packet.source request
        exact .answers rfl (Or.inr said) records.books records.sent
      · have issues := Participant.issues_receiveFrom_pingRequest self now
          flight.packet.source request
        refine .relays rfl ?_ issues.issued issues.books issues.sent
        rw [← said]
    | ack request gossip => exact of_receiveFrom_ack said now
    | gossip entries => exact of_records (Participant.records_receiveFrom_gossip now _ entries)
    | gossipAck acks => exact of_records (Participant.records_receiveFrom_gossipAck now _ acks)

/-- Whatever happens, request numbers are never given back. -/
theorem numbers
    {before after : Participant}
    {sent : List Outgoing}
    (turn : Turn event node before after sent) :
    before.nextRequest ≤ after.nextRequest := by
  cases turn with
  | idle books news => exact books.numbers
  | begins happens issued => exact Nat.le_of_lt issued
  | asks happens known issued => exact Nat.le_of_lt issued
  | relays happens request issued => exact Nat.le_of_lt issued
  | answers happens request books acks => exact books.numbers
  | notes happens ack awaited known books => exact books.numbers
  | forwards happens ack known books => exact books.numbers

end Turn

variable [DecidableEq Node]

/-! ## Events as turns of every node -/

/-- What an event makes of a node, and the packets the node sends. -/
def outcome (cluster : Cluster Node) (node : Node) : Event Node → Participant × List Outgoing
  | .deliver flight receiver now =>
    if receiver = node then
      (Participant.receive now flight.packet).outcome (cluster.nodes node)
    else
      (cluster.nodes node, [])
  | .act actor deed now =>
    if actor = node then
      deed.perform now (cluster.nodes node)
    else
      (cluster.nodes node, [])
  | .lose _ | .duplicate _ => (cluster.nodes node, [])

theorem nodes_after (cluster : Cluster Node) (event : Event Node) (node : Node) :
    (cluster.after event).nodes node = (cluster.outcome node event).1 := by
  cases event with
  | deliver flight receiver now =>
    by_cases here : receiver = node
    · simp [after, move, outcome, here]
    · simp [after, move, outcome, here, Function.update_of_ne (Ne.symm here)]
  | lose flight => rfl
  | duplicate flight => rfl
  | act actor deed now =>
    by_cases here : actor = node
    · simp [after, move, outcome, here]
    · simp [after, move, outcome, here, Function.update_of_ne (Ne.symm here)]

/-- A packet on its way was on its way before, or a node has just sent it. -/
theorem mem_flights_after
    {cluster : Cluster Node}
    {event : Event Node}
    (admitted : cluster.Admits event)
    {flight : Outgoing}
    (member : flight ∈ (cluster.after event).flights) :
    flight ∈ cluster.flights ∨ ∃ node, flight ∈ (cluster.outcome node event).2 := by
  cases event with
  | deliver arrived node now =>
    rcases List.mem_append.1 member with kept | sent
    · exact Or.inl (List.mem_of_mem_erase kept)
    · exact Or.inr ⟨node, by simpa [outcome] using sent⟩
  | lose lost => exact Or.inl (List.mem_of_mem_erase member)
  | duplicate doubled =>
    rcases List.mem_cons.1 member with rfl | kept
    · exact Or.inl admitted
    · exact Or.inl kept
  | act node deed now =>
    rcases List.mem_append.1 member with kept | sent
    · exact Or.inl kept
    · exact Or.inr ⟨node, by simpa [outcome] using sent⟩

/-- Tables stay sound, and names stay the same. -/
theorem sound_outcome
    {cluster : Cluster Node}
    {node : Node}
    (sound : (cluster.nodes node).table.Sound)
    (event : Event Node) :
    (cluster.outcome node event).1.table.Sound ∧
      (cluster.outcome node event).1.name = cluster.name node := by
  have still : (cluster.nodes node).table.Sound ∧ (cluster.nodes node).name = cluster.name node :=
    ⟨sound, rfl⟩
  cases event with
  | deliver flight receiver now =>
    rw [outcome]
    split
    · have grown := (Participant.expands_receive sound now flight.packet).table
      exact ⟨grown.sound, grown.advances.own⟩
    · exact still
  | lose flight => exact still
  | duplicate flight => exact still
  | act actor deed now =>
    rw [outcome]
    split
    · exact Deed.sound_perform sound deed now
    · exact still

theorem turn_outcome (cluster : Cluster Node) (node : Node) (event : Event Node) :
    Turn (some event) node (cluster.nodes node)
      (cluster.outcome node event).1 (cluster.outcome node event).2 := by
  have still : Turn (some event) node (cluster.nodes node) (cluster.nodes node) [] :=
    .idle (.of_same rfl rfl rfl rfl) fun flight member => by cases member
  cases event with
  | deliver flight receiver now =>
    rw [outcome]
    split
    · next here =>
      subst here
      exact Turn.of_receive flight now
    · exact still
  | lose flight => exact still
  | duplicate flight => exact still
  | act actor deed now =>
    rw [outcome]
    split
    · next here =>
      subst here
      exact Turn.of_perform deed now
    · exact still

/-! ## Histories -/

/-- The cluster at a time.  When all events have taken place, nothing happens any more. -/
def stateAt (profiles : Node → Profile) (events : List (Event Node)) : Nat → Cluster Node
  | 0 => founded profiles
  | time + 1 =>
    match events[time]? with
    | some event => (stateAt profiles events time).after event
    | none => stateAt profiles events time

/-- Nodes with distinct names start, and then events take place that can take place. -/
structure History (Node : Type) [DecidableEq Node] where
  profiles : Node → Profile
  events : List (Event Node)
  distinct : Function.Injective fun node => (profiles node).name
  admitted : ∀ (time : Nat) (event : Event Node), events[time]? = some event →
    (stateAt profiles events time).Admits event

/-- What happens later makes no difference to the state at a time. -/
theorem stateAt_append
    (profiles : Node → Profile)
    (events later : List (Event Node))
    {time : Nat}
    (told : time ≤ events.length) :
    stateAt profiles (events ++ later) time = stateAt profiles events time := by
  induction time with
  | zero => rfl
  | succ time step =>
    rw [stateAt, stateAt, step (Nat.le_of_succ_le told), List.getElem?_append_left told]

/-- Events that can take place one after the other lead to a cluster. -/
structure Leads
    (profiles : Node → Profile)
    (events : List (Event Node))
    (cluster : Cluster Node) :
    Prop where
  admitted (time : Nat) (event : Event Node) (happens : events[time]? = some event) :
    (stateAt profiles events time).Admits event
  reached : stateAt profiles events events.length = cluster

theorem leads_nil (profiles : Node → Profile) : Leads profiles [] (founded profiles) :=
  ⟨fun _ _ happens => absurd happens (by simp), rfl⟩

theorem Leads.step
    {profiles : Node → Profile}
    {events : List (Event Node)}
    {cluster : Cluster Node}
    (leads : Leads profiles events cluster)
    {event : Event Node}
    (admits : cluster.Admits event) :
    Leads profiles (events ++ [event]) (cluster.after event) := by
  constructor
  · intro time next happens
    rcases Nat.lt_trichotomy time events.length with earlier | rfl | beyond
    · rw [List.getElem?_append_left earlier] at happens
      rw [stateAt_append profiles events [event] (Nat.le_of_lt earlier)]
      exact leads.admitted time next happens
    · rw [List.getElem?_concat_length] at happens
      cases happens
      rw [stateAt_append profiles events [event] (Nat.le_refl _), leads.reached]
      exact admits
    · have past : (events ++ [event]).length ≤ time := by
        rw [List.length_append]
        exact beyond
      rw [List.getElem?_eq_none past] at happens
      cases happens
  · rw [List.length_append, List.length_singleton, stateAt, List.getElem?_concat_length,
      stateAt_append profiles events [event] (Nat.le_refl _), leads.reached]

/-- Every run has a history. -/
theorem Run.exists_history
    {issued : Claim → Prop}
    {cluster : Cluster Node}
    (run : Run issued cluster) :
    ∃ history : History Node,
      stateAt history.profiles history.events history.events.length = cluster := by
  induction run with
  | founded profiles distinct =>
    exact ⟨⟨profiles, [], distinct, (leads_nil profiles).admitted⟩, rfl⟩
  | @step issued cluster run event possible step =>
    rcases step with ⟨⟨profiles, events, distinct, admitted⟩, reached⟩
    have leads : Leads profiles (events ++ [event]) (cluster.after event) :=
      Leads.step ⟨admitted, reached⟩ (admits_of_possible possible)
    exact ⟨⟨profiles, events ++ [event], distinct, leads.admitted⟩, leads.reached⟩

namespace History

variable (history : History Node)

def state (time : Nat) : Cluster Node :=
  stateAt history.profiles history.events time

def name (node : Node) : MemberName :=
  (history.profiles node).name

/-- The participant of a node as it is before the event of a time. -/
def participant (time : Nat) (node : Node) : Participant :=
  (history.state time).nodes node

/-- What a node sends at a time. -/
def sent (time : Nat) (node : Node) : List Outgoing :=
  match history.events[time]? with
  | some event => ((history.state time).outcome node event).2
  | none => []

theorem state_succ_of_event
    {time : Nat}
    {event : Event Node}
    (happens : history.events[time]? = some event) :
    history.state (time + 1) = (history.state time).after event := by
  rw [state, stateAt, happens]
  rfl

theorem state_succ_of_none
    {time : Nat}
    (nothing : history.events[time]? = none) :
    history.state (time + 1) = history.state time := by
  rw [state, stateAt, nothing]
  rfl

theorem sent_of_event
    {time : Nat}
    {event : Event Node}
    (happens : history.events[time]? = some event)
    (node : Node) :
    history.sent time node = ((history.state time).outcome node event).2 := by
  rw [sent, happens]

theorem sent_of_none
    {time : Nat}
    (nothing : history.events[time]? = none)
    (node : Node) :
    history.sent time node = [] := by
  rw [sent, nothing]

/-- Whatever happens at a time is a turn of every node. -/
theorem turn (time : Nat) (node : Node) :
    Turn history.events[time]? node (history.participant time node)
      (history.participant (time + 1) node) (history.sent time node) := by
  cases happens : history.events[time]? with
  | none =>
    rw [history.sent_of_none happens, participant, participant, history.state_succ_of_none happens]
    exact .idle (.of_same rfl rfl rfl rfl) fun flight member => by cases member
  | some event =>
    rw [history.sent_of_event happens, participant, participant,
      history.state_succ_of_event happens, nodes_after]
    exact turn_outcome _ _ _

theorem sound_participant (time : Nat) (node : Node) :
    (history.participant time node).table.Sound ∧
      (history.participant time node).name = history.name node := by
  induction time with
  | zero =>
    refine ⟨Table.sound_start _ _ _ _, ?_⟩
    show (Table.start _ _ _ _).own.name = history.name node
    rw [Table.own_start]
    rfl
  | succ time step =>
    cases happens : history.events[time]? with
    | none =>
      rw [participant, history.state_succ_of_none happens]
      exact step
    | some event =>
      rw [participant, history.state_succ_of_event happens, nodes_after]
      rcases sound_outcome step.1 event with ⟨sound, named⟩
      exact ⟨sound, named.trans step.2⟩

theorem name_participant (time : Nat) (node : Node) :
    (history.participant time node).name = history.name node :=
  (history.sound_participant time node).2

/-- Every packet on its way was sent at an earlier time. -/
theorem exists_sent_of_mem_flights
    {time : Nat}
    {flight : Outgoing}
    (member : flight ∈ (history.state time).flights) :
    ∃ earlier < time, ∃ node, flight ∈ history.sent earlier node := by
  induction time with
  | zero => cases member
  | succ time step =>
    cases happens : history.events[time]? with
    | none =>
      rw [history.state_succ_of_none happens] at member
      rcases step member with ⟨earlier, before, sent⟩
      exact ⟨earlier, Nat.lt_succ_of_lt before, sent⟩
    | some event =>
      rw [history.state_succ_of_event happens] at member
      rcases mem_flights_after (history.admitted time event happens) member with kept | ⟨node, sent⟩
      · rcases step kept with ⟨earlier, before, sent⟩
        exact ⟨earlier, Nat.lt_succ_of_lt before, sent⟩
      · refine ⟨time, Nat.lt_succ_self time, node, ?_⟩
        rw [history.sent_of_event happens]
        exact sent

/-- What arrives was sent before, to the node where it arrives. -/
theorem exists_sent_of_delivered
    {time : Nat}
    {flight : Outgoing}
    {node : Node}
    {now : Instant}
    (happens : history.events[time]? = some (.deliver flight node now)) :
    flight.target = history.name node ∧
      ∃ earlier < time, ∃ sender, flight ∈ history.sent earlier sender := by
  rcases history.admitted time _ happens with ⟨member, target⟩
  exact ⟨target.trans (history.name_participant time node),
    history.exists_sent_of_mem_flights member⟩

theorem nextRequest_le
    {earlier later : Nat}
    (ordered : earlier ≤ later)
    (node : Node) :
    (history.participant earlier node).nextRequest ≤
      (history.participant later node).nextRequest := by
  induction ordered with
  | refl => exact Nat.le_refl _
  | step ordered step => exact Nat.le_trans step (history.turn _ node).numbers

end History

end Cluster

end ClusterMembership
