import ClusterMembership.Proofs.Cluster.RelayedCheck

/-!
# A successful check has reached its target

Acks are matched by their number alone, whoever sends them, and one counter numbers the pings
of a node, its requests to relays, and the pings it sends as a relay.  So a check may trust an
ack only because no number is ever used for two errands: `Issues.unique`.

From there, acks are traced back.  An ack answers a ping or is passed on by a relay, every
packet was sent by the node it names, and a relay is never asked to ping itself.  Behind an ack
of a check there is a ping that its target has handled, and no more than one relay between.
-/

namespace ClusterMembership

namespace Cluster

variable {Node : Type} [DecidableEq Node]

/-- What a request number is drawn for. -/
inductive Errand where
  /-- To ping the target of a check. -/
  | check (target : MemberName)
  /-- To have relays ping the target of a check. -/
  | request (check : Nat) (target : MemberName)
  /-- To ping a target on request. -/
  | relay (requester : MemberName) (request : Nat) (target : MemberName)

/-- The member that is pinged under the number of an errand. -/
def Errand.pinged? : Errand → Option MemberName
  | .check target | .relay _ _ target => some target
  | .request .. => none

namespace History

variable {history : History Node}

/-- What happens at a time is an errand of a node. -/
def Gives (history : History Node) (time : Nat) (node : Node) : Errand → Prop
  | .check target => ∃ now, history.events[time]? = some (.act node (.beginCheck target) now)
  | .request check target => ∃ now found,
      history.events[time]? = some (.act node (.askRelays check) now) ∧
        (history.participant time node).checks[check]? = some found ∧ found.target = target
  | .relay requester request target => ∃ flight now,
      history.events[time]? = some (.deliver flight node now) ∧
        flight.packet = { source := requester, payload := .pingRequest request target }

/-- Nothing that happens is two errands. -/
theorem Gives.unique
    {time : Nat}
    {node : Node}
    {first second : Errand}
    (given : history.Gives time node first)
    (again : history.Gives time node second) :
    first = second := by
  cases first <;> cases second <;> simp only [Gives] at given again <;> grind

/-- A node draws a request number for an errand. -/
structure Issues
    (history : History Node)
    (time : Nat)
    (node : Node)
    (number : Nat)
    (errand : Errand) :
    Prop where
  next : (history.participant time node).nextRequest = number
  issued : number < (history.participant (time + 1) node).nextRequest
  gives : history.Gives time node errand

namespace Issues

variable {time earlier later : Nat} {node : Node} {number : Nat} {errand first second : Errand}

/-- A number that is drawn is below all that are drawn later. -/
theorem not_lt
    (before : history.Issues earlier node number first)
    (after : history.Issues later node number second) :
    ¬earlier < later := by
  intro ordered
  have grown := history.nextRequest_le ordered node
  rw [after.next] at grown
  exact Nat.not_lt.2 grown before.issued

/-- No number is drawn twice, be it for another errand or for the same one. -/
theorem unique
    (before : history.Issues earlier node number first)
    (after : history.Issues later node number second) :
    earlier = later ∧ first = second := by
  have same : earlier = later :=
    Nat.le_antisymm (Nat.not_lt.1 (after.not_lt before)) (Nat.not_lt.1 (before.not_lt after))
  subst same
  exact ⟨rfl, before.gives.unique after.gives⟩

end Issues

/-! ## Where the ledger comes from -/

/-- Every entry of a ledger goes back to an errand. -/
structure Accounted (history : History Node) (time : Nat) (node : Node) : Prop where
  waiting : ∀ number check : Nat,
    (history.participant time node).waiting[number]? = some check →
      ∃ earlier < time, ∃ target,
        (check = number ∧ history.Issues earlier node number (.check target)) ∨
          history.Issues earlier node number (.request check target)
  checks : ∀ (number : Nat) (check : Check),
    (history.participant time node).checks[number]? = some check →
      ∃ earlier < time, history.Issues earlier node number (.check check.target)
  relays : ∀ (number : Nat) (relay : Relay),
    (history.participant time node).relays[number]? = some relay →
      ∃ earlier < time, ∃ target,
        history.Issues earlier node number (.relay relay.requester relay.request target)

theorem accounted_zero (history : History Node) (node : Node) : history.Accounted 0 node := by
  have waiting : (history.participant 0 node).waiting = ∅ := rfl
  have checks : (history.participant 0 node).checks = ∅ := rfl
  have relays : (history.participant 0 node).relays = ∅ := rfl
  constructor
  · intro number check held
    simp [waiting] at held
  · intro number check held
    simp [checks] at held
  · intro number relay held
    simp [relays] at held

/-- What a booking adds goes back to an errand of the same time. -/
theorem Accounted.succ
    {time : Nat}
    {node : Node}
    (accounted : history.Accounted time node)
    {booking : Booking}
    (books : (history.participant time node).Books booking (history.participant (time + 1) node))
    (waiting : ∀ number check, booking.waiting = some (number, check) → ∃ target,
      (check = number ∧ history.Issues time node number (.check target)) ∨
        history.Issues time node number (.request check target))
    (checks : ∀ number check, booking.check = some (number, check) →
      history.Issues time node number (.check check.target) ∨
        ∃ found, (history.participant time node).checks[number]? = some found ∧
          found.target = check.target)
    (relays : ∀ number relay, booking.relay = some (number, relay) → ∃ target,
      history.Issues time node number (.relay relay.requester relay.request target)) :
    history.Accounted (time + 1) node := by
  constructor
  · intro number check held
    rcases books.waiting number check held with before | booked
    · rcases accounted.waiting number check before with ⟨earlier, ordered, origin⟩
      exact ⟨earlier, Nat.lt_succ_of_lt ordered, origin⟩
    · exact ⟨time, Nat.lt_succ_self time, waiting number check booked⟩
  · intro number check held
    have kept : ∀ found, (history.participant time node).checks[number]? = some found →
        found.target = check.target →
          ∃ earlier < time + 1, history.Issues earlier node number (.check check.target) := by
      intro found before same
      rcases accounted.checks number found before with ⟨earlier, ordered, begins⟩
      rw [same] at begins
      exact ⟨earlier, Nat.lt_succ_of_lt ordered, begins⟩
    rcases books.checks number check held with before | booked
    · exact kept check before rfl
    · rcases checks number check booked with begins | ⟨found, before, same⟩
      · exact ⟨time, Nat.lt_succ_self time, begins⟩
      · exact kept found before same
  · intro number relay held
    rcases books.relays number relay held with before | booked
    · rcases accounted.relays number relay before with ⟨earlier, ordered, origin⟩
      exact ⟨earlier, Nat.lt_succ_of_lt ordered, origin⟩
    · exact ⟨time, Nat.lt_succ_self time, relays number relay booked⟩

theorem accounted (history : History Node) (time : Nat) (node : Node) :
    history.Accounted time node := by
  induction time with
  | zero => exact history.accounted_zero node
  | succ time step =>
    cases history.turn time node with
    | idle books => exact step.succ books nofun nofun nofun
    | begins happens issued books =>
      refine step.succ books ?_ ?_ nofun
      · rintro _ _ ⟨⟩
        exact ⟨_, Or.inl ⟨rfl, rfl, issued, ⟨_, happens⟩⟩⟩
      · rintro _ _ ⟨⟩
        exact Or.inl ⟨rfl, issued, ⟨_, happens⟩⟩
    | asks happens known issued books =>
      refine step.succ books ?_ ?_ nofun
      · rintro _ _ ⟨⟩
        exact ⟨_, Or.inr ⟨rfl, issued, ⟨_, _, happens, known, rfl⟩⟩⟩
      · rintro _ _ ⟨⟩
        exact Or.inr ⟨_, known, rfl⟩
    | relays happens request issued books =>
      refine step.succ books nofun nofun ?_
      rintro _ _ ⟨⟩
      exact ⟨_, rfl, issued, ⟨_, _, happens, request⟩⟩
    | answers happens request books => exact step.succ books nofun nofun nofun
    | notes happens ack awaited known books =>
      refine step.succ books nofun ?_ nofun
      rintro _ _ ⟨⟩
      exact Or.inr ⟨_, known, rfl⟩
    | forwards happens ack known books => exact step.succ books nofun nofun nofun

/-! ## Where packets come from -/

section Origins

variable {time : Nat} {node : Node} {flight : Outgoing} {number : Nat} {target : MemberName}

/-- A ping is sent for a check, or on request. -/
theorem origin_of_ping
    (sent : flight ∈ history.sent time node)
    (ping : ∃ gossip, flight.packet.payload = .ping number gossip) :
    flight.packet.source = history.name node ∧
      ∃ errand, history.Issues time node number errand ∧
        errand.pinged? = some flight.target := by
  rcases ping with ⟨gossip, said⟩
  have numbered : flight.packet.request? = some number := by rw [Packet.request?, said]
  have kind : flight.packet.kind = .ping := by rw [Packet.kind, said]
  rw [← history.name_participant time node]
  cases history.turn time node with
  | idle books news => cases numbered.symm.trans (news flight sent)
  | begins happens issued books pings =>
    rcases pings flight sent with ⟨rfl, source, others, payload⟩
    cases said.symm.trans payload
    exact ⟨source, .check _, ⟨rfl, issued, ⟨_, happens⟩⟩, rfl⟩
  | asks happens known issued books requests => cases kind.symm.trans (requests flight sent).kind
  | relays happens request issued books pings =>
    rcases pings flight sent with ⟨rfl, source, others, payload⟩
    cases said.symm.trans payload
    exact ⟨source, .relay _ _ _, ⟨rfl, issued, ⟨_, _, happens, request⟩⟩, rfl⟩
  | answers happens request books acks => cases kind.symm.trans (acks flight sent).kind
  | notes happens ack awaited known books news => cases numbered.symm.trans (news flight sent)
  | forwards happens ack known books acks => cases kind.symm.trans (acks flight sent).kind

/-- A request to ping a member is sent for a check, and not to that member. -/
theorem origin_of_pingRequest
    (sent : flight ∈ history.sent time node)
    (said : flight.packet.payload = .pingRequest number target) :
    flight.Requests (history.name node) number target ∧
      ∃ check, history.Issues time node number (.request check target) := by
  have numbered : flight.packet.request? = some number := by rw [Packet.request?, said]
  have kind : flight.packet.kind = .pingRequest := by rw [Packet.kind, said]
  rw [← history.name_participant time node]
  cases history.turn time node with
  | idle books news => cases numbered.symm.trans (news flight sent)
  | begins happens issued books pings => cases kind.symm.trans (pings flight sent).kind
  | asks happens known issued books requests =>
    have request := requests flight sent
    rw [request.2] at said
    cases said
    exact ⟨request, _, rfl, issued, ⟨_, _, happens, known, rfl⟩⟩
  | relays happens request issued books pings => cases kind.symm.trans (pings flight sent).kind
  | answers happens request books acks => cases kind.symm.trans (acks flight sent).kind
  | notes happens ack awaited known books news => cases numbered.symm.trans (news flight sent)
  | forwards happens ack known books acks => cases kind.symm.trans (acks flight sent).kind

/-- An ack answers what has just arrived, or passes on an ack that has just arrived. -/
theorem origin_of_ack
    (sent : flight ∈ history.sent time node)
    (ack : ∃ gossip, flight.packet.payload = .ack number gossip) :
    ∃ arrived now, history.events[time]? = some (.deliver arrived node now) ∧
      ((arrived.packet.source = flight.target ∧
          ((∃ gossip, arrived.packet.payload = .ping number gossip) ∨
            arrived.packet.payload = .pingRequest number (history.name node))) ∨
        ∃ ping relay, (∃ gossip, arrived.packet.payload = .ack ping gossip) ∧
          (history.participant time node).relays[ping]? = some relay ∧
          relay.requester = flight.target ∧ relay.request = number) := by
  rcases ack with ⟨gossip, said⟩
  have numbered : flight.packet.request? = some number := by rw [Packet.request?, said]
  have kind : flight.packet.kind = .ack := by rw [Packet.kind, said]
  rw [← history.name_participant time node]
  cases history.turn time node with
  | idle books news => cases numbered.symm.trans (news flight sent)
  | begins happens issued books pings => cases kind.symm.trans (pings flight sent).kind
  | asks happens known issued books requests => cases kind.symm.trans (requests flight sent).kind
  | relays happens request issued books pings => cases kind.symm.trans (pings flight sent).kind
  | answers happens request books acks =>
    rcases acks flight sent with ⟨requester, others, payload⟩
    cases said.symm.trans payload
    exact ⟨_, _, happens, Or.inl ⟨requester.symm, request⟩⟩
  | notes happens ack awaited known books news => cases numbered.symm.trans (news flight sent)
  | forwards happens ack known books acks =>
    rcases acks flight sent with ⟨requester, others, payload⟩
    cases said.symm.trans payload
    exact ⟨_, _, happens, Or.inr ⟨_, _, ack, known, requester.symm, rfl⟩⟩

end Origins

/-! ## What is behind an ack -/

/-- A node pings another one, which handles the ping and answers it. -/
structure Echoes
    (history : History Node)
    (pinger heard : Node)
    (number sent handled : Nat) :
    Prop where
  ordered : sent < handled
  ping : ∃ ping ∈ history.sent sent pinger,
    ping.Pings (history.name pinger) number (history.name heard) ∧
      ∃ now, history.events[handled]? = some (.deliver ping heard now)
  ack : ∃ ack ∈ history.sent handled heard, ack.Acks number (history.name pinger)

/-- A request to ping a target arrives at a relay, which draws a number for the ping. -/
structure Asks
    (history : History Node)
    (asker via : Node)
    (number ping : Nat)
    (target : MemberName)
    (asked received : Nat) :
    Prop where
  ordered : asked < received
  request : ∃ request ∈ history.sent asked asker,
    request.target = history.name via ∧ request.Requests (history.name asker) number target
  drawn : ∃ check, history.Issues asked asker number (.request check target)
  relayed : history.Issues received via ping (.relay (history.name asker) number target)

/-- An ack under a number has arrived at a node. -/
def Acked (history : History Node) (time : Nat) (node : Node) (number : Nat) : Prop :=
  ∃ flight now, history.events[time]? = some (.deliver flight node now) ∧
    ∃ gossip, flight.packet.payload = .ack number gossip

section Acks

variable
    {time drawn : Nat}
    {node : Node}
    {number check : Nat}
    {errand : Errand}
    {target : MemberName}

/--
An ack that arrives goes back to a ping by the node itself, handled by whom the node has
pinged, or to a request of the node and an ack that has arrived at the relay.
-/
theorem behind_ack (acked : history.Acked time node number) :
    (∃ heard sent handled errand, handled < time ∧
      history.Echoes node heard number sent handled ∧
      history.Issues sent node number errand ∧
      errand.pinged? = some (history.name heard)) ∨
    ∃ via ping target asked received forwarded, received < forwarded ∧ forwarded < time ∧
      history.Asks node via number ping target asked received ∧
      history.Acked forwarded via ping := by
  rcases acked with ⟨flight, now, happens, ack⟩
  rcases history.exists_sent_of_delivered happens with ⟨target, earlier, before, sender, sent⟩
  rcases origin_of_ack sent ack with ⟨arrived, since, delivered, ⟨source, request⟩ | relayed⟩
  · rcases history.exists_sent_of_delivered delivered with
      ⟨destination, asked, since, pinger, asking⟩
    rcases request with ping | request
    · rcases origin_of_ping asking ping with ⟨named, errand, issues, pinged⟩
      have same : pinger = node := history.distinct (named.symm.trans (source.trans target))
      subst same
      rw [destination] at pinged
      refine Or.inl ⟨sender, asked, earlier, errand, before, ⟨since, ?_, ?_⟩, issues, pinged⟩
      · exact ⟨arrived, asking, ⟨destination, named, ping⟩, _, delivered⟩
      · exact ⟨flight, sent, target, ack⟩
    · -- Nobody is asked to ping itself.
      exact absurd destination (origin_of_pingRequest asking request).1.1
  · rcases relayed with ⟨ping, relay, passed, known, requester, rfl⟩
    rcases (history.accounted earlier sender).relays ping relay known with
      ⟨received, kept, pinged, issues⟩
    rcases issues.gives with ⟨asking, moment, handed, packet⟩
    rcases history.exists_sent_of_delivered handed with ⟨destination, asked, first, asker, put⟩
    have said : asking.packet.payload = .pingRequest relay.request pinged := by rw [packet]
    rcases origin_of_pingRequest put said with ⟨requests, check, drawn⟩
    have named : history.name asker = history.name node := by
      rw [← target, ← requester]
      have source := requests.2
      rw [packet] at source
      exact (congrArg Packet.source source).symm
    have same : asker = node := history.distinct named
    subst same
    rw [requester, target] at issues
    refine Or.inr ⟨sender, ping, pinged, asked, received, earlier, kept, before, ?_, ?_⟩
    · exact ⟨first, ⟨asking, put, destination, requests⟩, ⟨check, drawn⟩, issues⟩
    · exact ⟨arrived, _, delivered, passed⟩

/-- An ack under the number of a ping shows that the pinged member has handled this ping. -/
theorem Issues.echoes
    (issues : history.Issues drawn node number errand)
    (pinged : errand.pinged? = some target)
    (acked : history.Acked time node number) :
    ∃ heard handled, history.name heard = target ∧ handled < time ∧
      history.Echoes node heard number drawn handled := by
  rcases behind_ack acked with
    ⟨heard, sent, handled, other, before, echoes, again, named⟩ |
      ⟨via, ping, other, asked, received, forwarded, -, -, asks, -⟩
  · rcases issues.unique again with ⟨rfl, rfl⟩
    rw [pinged] at named
    exact ⟨heard, handled, (Option.some.inj named).symm, before, echoes⟩
  · rcases asks.drawn with ⟨check, again⟩
    cases (issues.unique again).2
    cases pinged

/-- An ack under the number of a request was passed on by a relay that was asked. -/
theorem Issues.asks
    (issues : history.Issues drawn node number (.request check target))
    (acked : history.Acked time node number) :
    ∃ via ping received forwarded, received < forwarded ∧ forwarded < time ∧
      history.Asks node via number ping target drawn received ∧
      history.Acked forwarded via ping := by
  rcases behind_ack acked with
    ⟨heard, sent, handled, other, before, echoes, again, named⟩ |
      ⟨via, ping, other, asked, received, forwarded, since, before, asks, passed⟩
  · cases (issues.unique again).2
    cases named
  · rcases asks.drawn with ⟨check', again⟩
    rcases issues.unique again with ⟨rfl, same⟩
    cases same
    exact ⟨via, ping, received, forwarded, since, before, asks, passed⟩

end Acks

/-! ## Checks that have reached their target -/

/--
Since a check began, its target has handled a ping and answered it: a ping of the prober, or
of a relay that the prober asked for the check.
-/
def Reached
    (history : History Node)
    (prober : Node)
    (check : Nat)
    (target : MemberName)
    (began concluded : Nat) :
    Prop :=
  ∃ heard via number sent handled,
    history.name heard = target ∧ began ≤ sent ∧ handled < concluded ∧
    history.Echoes via heard number sent handled ∧
    (via = prober ∨ ∃ asked request, began < asked ∧ asked < sent ∧ via ≠ heard ∧
      (∃ now, history.events[asked]? = some (.act prober (.askRelays check) now)) ∧
      request ∈ history.sent asked prober ∧ request.target = history.name via ∧
      ∃ relayed, request.Requests (history.name prober) relayed target)

theorem Reached.succ
    {prober : Node}
    {check : Nat}
    {target : MemberName}
    {began concluded : Nat}
    (reached : history.Reached prober check target began concluded) :
    history.Reached prober check target began (concluded + 1) := by
  rcases reached with ⟨heard, via, number, sent, handled, named, since, before, rest⟩
  exact ⟨heard, via, number, sent, handled, named, since, Nat.lt_succ_of_lt before, rest⟩

/-- An ack that a check notes shows that the check has reached its target. -/
theorem reached_of_ack
    {time : Nat}
    {node : Node}
    {number check : Nat}
    {found : Check}
    (acked : history.Acked time node number)
    (awaited : (history.participant time node).waiting[number]? = some check)
    (known : (history.participant time node).checks[check]? = some found) :
    ∃ began, history.Issues began node check (.check found.target) ∧
      history.Reached node check found.target began (time + 1) := by
  rcases (history.accounted time node).checks check found known with ⟨began, -, begins⟩
  refine ⟨began, begins, ?_⟩
  rcases (history.accounted time node).waiting number check awaited with
    ⟨asked, -, target, ⟨rfl, -⟩ | indirect⟩
  · -- The ack bears the number of the check, which was drawn for the ping of the target.
    rcases begins.echoes rfl acked with ⟨heard, handled, named, before, echoes⟩
    exact ⟨heard, node, _, began, handled, named, Nat.le_refl _, Nat.lt_succ_of_lt before, echoes,
      Or.inl rfl⟩
  · -- The ack bears the number of the request to the relays.
    rcases indirect.asks acked with
      ⟨via, ping, received, forwarded, since, before, asks, passed⟩
    -- The check was under way when the relays were asked, so it began before.
    rcases indirect.gives with ⟨asking, state, acts, held, rfl⟩
    rcases (history.accounted asked node).checks check state held with ⟨first, earlier, began'⟩
    rcases begins.unique began' with ⟨rfl, same⟩
    rw [Errand.check.inj same]
    -- The ack that the relay passed on can only answer its own ping of the target.
    rcases asks.relayed.echoes rfl passed with ⟨heard, handled, named, late, echoes⟩
    rcases asks.request with ⟨request, put, destination, requests⟩
    have apart : via ≠ heard := by
      rintro rfl
      exact requests.1 (destination.trans named)
    refine ⟨heard, via, ping, received, handled, named,
      Nat.le_of_lt (Nat.lt_trans earlier asks.ordered),
      Nat.lt_succ_of_lt (Nat.lt_trans late before), echoes, Or.inr ?_⟩
    exact ⟨asked, request, earlier, asks.ordered, apart, ⟨asking, acts⟩, put, destination, _,
      requests⟩

/-- Whenever a check counts as answered, it has reached its target. -/
theorem reached_of_answered
    {time : Nat}
    {node : Node}
    {check : Nat}
    {found : Check}
    (known : (history.participant time node).checks[check]? = some found)
    (answered : found.answered = true) :
    ∃ began, history.Issues began node check (.check found.target) ∧
      history.Reached node check found.target began time := by
  induction time generalizing found with
  | zero =>
    have checks : (history.participant 0 node).checks = ∅ := rfl
    simp [checks] at known
  | succ time step =>
    have earlier : ∀ before : Check,
        (history.participant time node).checks[check]? = some before →
        before.target = found.target → before.answered = true →
          ∃ began, history.Issues began node check (.check found.target) ∧
            history.Reached node check found.target began (time + 1) := by
      intro before held same done
      rcases step held done with ⟨began, begins, reached⟩
      rw [same] at begins reached
      exact ⟨began, begins, reached.succ⟩
    cases history.turn time node with
    | idle books =>
      exact earlier found (books.checks.held known) rfl answered
    | begins happens issued books =>
      rcases books.checks check found known with kept | booked
      · exact earlier found kept rfl answered
      · cases booked
        cases answered
    | asks happens held issued books =>
      rcases books.checks check found known with kept | booked
      · exact earlier found kept rfl answered
      · cases booked
        exact earlier _ held rfl answered
    | relays happens request issued books =>
      exact earlier found (books.checks.held known) rfl answered
    | answers happens request books =>
      exact earlier found (books.checks.held known) rfl answered
    | notes happens ack awaited held books =>
      rcases books.checks check found known with kept | booked
      · exact earlier found kept rfl answered
      · cases booked
        have reached := reached_of_ack ⟨_, _, happens, ack⟩ awaited held
        exact reached
    | forwards happens ack held books =>
      exact earlier found (books.checks.held known) rfl answered

theorem Begins.issues
    {time : Nat}
    {node : Node}
    {target : MemberName}
    {check : Nat}
    (begins : history.Begins time node target check) :
    history.Issues time node check (.check target) := by
  rcases begins with ⟨⟨now, happens⟩, rfl⟩
  refine ⟨rfl, ?_, ⟨now, happens⟩⟩
  have performed : history.participant (time + 1) node =
      (Participant.beginCheck target (history.participant time node)).state := by
    rw [participant, history.state_succ_of_event happens, nodes_after]
    simp [outcome, Deed.perform, Act.outcome, participant]
  rw [performed]
  exact (Participant.issues_beginCheck _ target).issued

/--
A check that succeeds is no false positive: since it began, its target has handled and answered
a ping, sent by the node that checks or by a relay that the node asked for this check.
-/
theorem reached_of_successful_check
    (history : History Node)
    {prober : Node}
    {target : MemberName}
    {check began concluded : Nat}
    (begins : history.Begins began prober target check)
    (succeeds : history.Succeeds concluded prober check) :
    history.Reached prober check target began concluded := by
  rcases Participant.exists_answered_of_concludeCheck succeeds.2 with ⟨found, known, answered⟩
  rcases reached_of_answered known answered with ⟨first, drawn, reached⟩
  rcases drawn.unique begins.issues with ⟨rfl, same⟩
  rw [← Errand.check.inj same]
  exact reached

end History

/-- A node of the default profile can encode whatever it fits into a datagram. -/
theorem admits_fitted
    {carrier : Carrier}
    (bare : Codec.admits { signer := { mac := Hmac.mac [0] } } (carrier.wrap []))
    (entries : List GossipEntry) :
    Codec.admits { signer := { mac := Hmac.mac [0] } }
      (Codec.fitted { signer := { mac := Hmac.mac [0] } } carrier 1400 entries) :=
  Codec.admits_fitted _ (Nat.le_of_ble_eq_true rfl) (Nat.le_of_ble_eq_true rfl) bare entries

/-- The nodes of the smallest cluster with a relay in it. -/
inductive Trio where
  | asking
  | relaying
  | heard
  deriving DecidableEq

namespace Trio

def label : Trio → MemberName
  | .asking => { text := "10.0.0.1:7946" }
  | .relaying => { text := "10.0.0.2:7946" }
  | .heard => { text := "10.0.0.3:7946" }

/-- Each node starts with default settings; one of them has the relay as its seed. -/
def profile (node : Trio) : Profile where
  settings := {}
  codec := { signer := { mac := Hmac.mac [0] } }
  name := node.label
  metadata := []
  seeds := if node = .asking then [Trio.relaying.label] else []
  startedAt := 0
  tape := default

theorem label_injective : Function.Injective Trio.label := by
  intro first second same
  cases first <;> cases second <;> first | rfl | exact absurd same (by decide)

/-- The asking node has found the relay online. -/
def introduced : Cluster Trio :=
  (founded Trio.profile).after (.act .asking (.recordProbe Trio.relaying.label true) 0)

theorem leads_introduced :
    Leads Trio.profile [.act .asking (.recordProbe Trio.relaying.label true) 0] introduced :=
  (leads_nil Trio.profile).act _ _

theorem name_introduced (node : Trio) : introduced.name node = node.label :=
  (leads_introduced.standing label_injective node).2

/-- The row of the asking node, which has just started. -/
def started : Member where
  name := Trio.asking.label
  status := .online
  clock := 1
  statusTime := 0
  metadata := { clock := 1, payload := some [] }

/-- The row of the relay at the asking node. -/
def found : Member where
  name := Trio.relaying.label
  status := .online
  clock := 2
  statusTime := 0
  metadata := .unknown

theorem nodes_introduced :
    introduced.nodes .asking =
      { Trio.asking.profile.participant with table := .ofTwo started found 2 ∅ } := by
  have different : Trio.relaying.label ≠ Trio.asking.label := by decide
  have table : Trio.asking.profile.participant.table =
      .ofTwo started (.unobserved Trio.relaying.label 0) 1 ∅ :=
    Table.start_singleton different [] 0
  have known : Trio.asking.profile.participant.table.find? Trio.relaying.label =
      some (.unobserved Trio.relaying.label 0) := by
    rw [table]
    exact Table.find?_ofTwo different
  have accepted : (Member.unobserved Trio.relaying.label 0).updated .strict 0 .online 2 none =
      found := by
    decide
  have applied : (Trio.asking.profile.participant.table.tick.apply 0 Trio.relaying.label .online
      2 none).table = .ofTwo started found 2 ∅ := by
    rw [table, ← accepted]
    exact Table.update_ofTwo different .strict 0 .online 2 none
  have stamp : Trio.asking.profile.participant.table.tick.clock = 2 := by
    rw [table]
    rfl
  rw [introduced, nodes_act_self]
  show ((Participant.recordProbe 0 Trio.relaying.label true).outcome
    Trio.asking.profile.participant).1 = _
  rw [Participant.outcome_recordProbe known rfl, stamp, applied]

/-- The relay is the only member that can be drawn. -/
theorem sample_introduced (tape : Tape) :
    ((Table.ofTwo started found 2 ∅).sample .available 3 [Trio.heard.label, Trio.asking.label]
      tape).1 = [Trio.relaying.label] := by
  have candidates : ((Table.ofTwo started found 2 ∅).withStatus .available).filter
      (fun name => !([Trio.heard.label, Trio.asking.label] : List MemberName).contains name) =
        [Trio.relaying.label] := by
    decide
  rw [Table.sample, candidates]
  simp [Tape.shuffle, Tape.pick, Tape.below, Tape.next, Nat.mod_one]

theorem canDetour_introduced : CanDetour introduced .asking .relaying .heard := by
  have apart : Trio.asking ≠ .relaying ∧ Trio.asking ≠ .heard ∧ Trio.relaying ≠ .heard := by
    decide
  have relaying : introduced.nodes .relaying = Trio.relaying.profile.participant :=
    nodes_act_other apart.1 _
  have heard : introduced.nodes .heard = Trio.heard.profile.participant :=
    nodes_act_other apart.2.1 _
  refine ⟨apart, ?_, ?_, ?_, ?_, ?_, ?_⟩
  · rw [name_introduced, name_introduced, nodes_introduced]
    have drawn := sample_introduced Trio.asking.profile.participant.tape
    exact List.mem_of_mem_head? (congrArg List.head? drawn)
  · rw [relaying]
    exact Std.ExtHashMap.getElem?_empty
  · rw [askedRelay, name_introduced, name_introduced, nodes_introduced]
    show Trio.asking.profile.codec.admits
      { source := Trio.asking.label
        payload := .pingRequest (Trio.asking.profile.participant.nextRequest + 1) Trio.heard.label }
    decide +kernel
  · rw [relayedPing, name_introduced, relaying]
    apply admits_fitted
    rw [Profile.name_participant]
    decide +kernel
  · rw [relayedReply, heard, relaying, name_introduced]
    apply admits_fitted
    rw [Participant.name_mergeEntries (Table.sound_start _ _ _ _), Profile.name_participant]
    decide +kernel
  · rw [passedReply, noting, requestNote, relaying, nodes_introduced]
    apply admits_fitted
    show Trio.relaying.profile.codec.admits ((Carrier.ack Trio.relaying.profile.participant.name
      (Trio.asking.profile.participant.nextRequest + 1)).wrap [])
    rw [Profile.name_participant]
    decide +kernel

end Trio

/--
In the pair, one node checks the other one with success, and its own ping reaches the other one.  In
the trio only the ping of the relay does.
-/
theorem reached_of_successful_checks :
    (∃ (history : History Side) (check : Nat), history.profiles = Side.profile ∧
      history.Begins 0 .left Side.right.label check ∧ history.Succeeds 3 .left check ∧
      history.Reached .left check Side.right.label 0 3) ∧
    ∃ (history : History Trio) (check : Nat), history.profiles = Trio.profile ∧
      history.Begins 1 .asking Trio.heard.label check ∧ history.Succeeds 7 .asking check ∧
      (∀ time flight now, 1 ≤ time → history.events[time]? = some (.deliver flight .heard now) →
        flight.packet.source = Trio.relaying.label) ∧
      history.Reached .asking check Trio.heard.label 1 7 := by
  constructor
  · have pinged : Side.left.profile.codec.admits
        (Side.left.profile.participant.firstPing Side.right.profile.participant.name).packet := by
      apply admits_fitted
      rw [Profile.name_participant]
      decide +kernel
    have replied : Side.right.profile.codec.admits
        (firstReply Side.profile .left .right).packet := by
      apply admits_fitted
      rw [Participant.name_mergeEntries (Table.sound_start _ _ _ _), Profile.name_participant]
      decide +kernel
    rcases exists_successful_check Side.profile Side.label_injective Side.left.ne_opposite pinged
      replied with ⟨history, check, same, begins, succeeds⟩
    exact ⟨history, check, same, begins, succeeds,
      history.reached_of_successful_check begins succeeds⟩
  · rcases Trio.canDetour_introduced.exists_relayed_check Trio.label_injective
      Trio.leads_introduced with ⟨history, check, same, begins, succeeds, heard⟩
    rw [Trio.name_introduced] at begins heard
    exact ⟨history, check, same, begins, succeeds, heard,
      history.reached_of_successful_check begins succeeds⟩

end Cluster

end ClusterMembership
