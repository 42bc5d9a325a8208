import ClusterMembership.Participant.Dissemination
import ClusterMembership.Participant.Probe
import ClusterMembership.Participant.Reception
import ClusterMembership.Proofs.Participant.Backing

/-!
# The ledger of requests

A participant numbers its requests, and keeps a ledger of them: the numbers it awaits an ack
for, the checks under way, and the pings it sent for somebody else.  One counter serves all of
them.

`Participant.Books` bounds what is in the ledger afterwards by what was in it before and by a
booking.  Entries may always go: a check is concluded, an ack is passed on, a sweep forgets
old pings.  `Act.Records` says what an act books, and what it sends.
-/

namespace ClusterMembership

/-! ## What is sent under a request number -/

namespace Outgoing

/-- The packet has no request number: it is gossip, or a receipt of gossip. -/
def IsNews (flight : Outgoing) : Prop :=
  flight.packet.request? = none

/-- The packet is a ping of a member under a number. -/
def Pings (source : MemberName) (number : Nat) (target : MemberName) (flight : Outgoing) : Prop :=
  flight.target = target ∧ flight.packet.source = source ∧
    ∃ gossip : List GossipEntry, flight.packet.payload = .ping number gossip

/-- The packet asks somebody else to ping a member. -/
def Requests (source : MemberName) (number : Nat) (target : MemberName) (flight : Outgoing) :
    Prop :=
  flight.target ≠ target ∧ flight.packet = { source, payload := .pingRequest number target }

/-- The packet is an ack of a request. -/
def Acks (number : Nat) (requester : MemberName) (flight : Outgoing) : Prop :=
  flight.target = requester ∧
    ∃ gossip : List GossipEntry, flight.packet.payload = .ack number gossip

section Kinds

variable {source target requester : MemberName} {number : Nat} {flight : Outgoing}

theorem Pings.kind (pings : flight.Pings source number target) : flight.packet.kind = .ping := by
  rcases pings.2.2 with ⟨gossip, said⟩
  rw [Packet.kind, said]

theorem Requests.kind (requests : flight.Requests source number target) :
    flight.packet.kind = .pingRequest := by
  rw [requests.2]
  rfl

theorem Acks.kind (acks : flight.Acks number requester) : flight.packet.kind = .ack := by
  rcases acks.2 with ⟨gossip, said⟩
  rw [Packet.kind, said]

end Kinds

end Outgoing

/-! ## Bookings -/

/-- What a map holds afterwards it held before, one added entry aside. -/
def AddsAtMost
    {α : Type}
    (added : Option (Nat × α))
    (before after : Std.ExtHashMap Nat α) :
    Prop :=
  ∀ (number : Nat) (value : α), after[number]? = some value →
    before[number]? = some value ∨ added = some (number, value)

namespace AddsAtMost

variable
    {α : Type}
    {added : Option (Nat × α)}
    {first second third : Std.ExtHashMap Nat α}

theorem refl (entries : Std.ExtHashMap Nat α) : AddsAtMost added entries entries :=
  fun _ _ => Or.inl

theorem insert (entries : Std.ExtHashMap Nat α) (key : Nat) (inserted : α) :
    AddsAtMost (some (key, inserted)) entries (entries.insert key inserted) := by
  intro number value found
  rw [Std.ExtHashMap.getElem?_insert] at found
  split at found
  · next same =>
    rw [beq_iff_eq] at same
    cases found
    exact Or.inr (by rw [same])
  · exact Or.inl found

theorem erase (entries : Std.ExtHashMap Nat α) (key : Nat) :
    AddsAtMost added entries (entries.erase key) := by
  intro number value found
  rw [Std.ExtHashMap.getElem?_erase] at found
  split at found
  · cases found
  · exact Or.inl found

theorem filter (entries : Std.ExtHashMap Nat α) (keeps : Nat → α → Bool) :
    AddsAtMost added entries (entries.filter keeps) := by
  intro number value found
  rw [Std.ExtHashMap.getElem?_filter] at found
  rcases Option.pfilter_eq_some_iff.1 found with ⟨kept, -⟩
  exact Or.inl kept

/-- Without an added entry, what is held was held. -/
theorem held
    (idle : AddsAtMost none first second)
    {number : Nat}
    {value : α}
    (found : second[number]? = some value) :
    first[number]? = some value :=
  (idle number value found).resolve_right nofun

theorem after (idle : AddsAtMost none first second) (later : AddsAtMost added second third) :
    AddsAtMost added first third := by
  intro number value found
  rcases later number value found with earlier | new
  · exact Or.inl (idle.held earlier)
  · exact Or.inr new

theorem before (earlier : AddsAtMost added first second) (idle : AddsAtMost none second third) :
    AddsAtMost added first third :=
  fun number value found => earlier number value (idle.held found)

end AddsAtMost

/-- What one act may add to the ledger of a participant. -/
structure Booking where
  /-- A number to await an ack for, with its check. -/
  waiting : Option (Nat × Nat) := none
  /-- The state of a check. -/
  check : Option (Nat × Check) := none
  /-- A ping sent for somebody else. -/
  relay : Option (Nat × Relay) := none

namespace Participant

/-- Whatever is in the ledger afterwards was there before, or is booked. -/
structure Books (booking : Booking) (before after : Participant) : Prop where
  numbers : before.nextRequest ≤ after.nextRequest
  waiting : AddsAtMost booking.waiting before.waiting after.waiting
  checks : AddsAtMost booking.check before.checks after.checks
  relays : AddsAtMost booking.relay before.relays after.relays

namespace Books

variable {booking : Booking} {first second third : Participant}

/-- What touches no part of the ledger needs no booking. -/
theorem of_same
    (numbers : second.nextRequest = first.nextRequest)
    (waiting : second.waiting = first.waiting)
    (checks : second.checks = first.checks)
    (relays : second.relays = first.relays) :
    Books booking first second := by
  constructor
  · exact Nat.le_of_eq numbers.symm
  · rw [waiting]
    exact .refl _
  · rw [checks]
    exact .refl _
  · rw [relays]
    exact .refl _

/-- Where nothing is booked first, the booking is what comes after. -/
theorem after (idle : Books {} first second) (later : Books booking second third) :
    Books booking first third :=
  ⟨Nat.le_trans idle.numbers later.numbers, idle.waiting.after later.waiting,
    idle.checks.after later.checks, idle.relays.after later.relays⟩

/-- Where nothing is booked last, the booking is what came before. -/
theorem before (earlier : Books booking first second) (idle : Books {} second third) :
    Books booking first third :=
  ⟨Nat.le_trans earlier.numbers idle.numbers, earlier.waiting.before idle.waiting,
    earlier.checks.before idle.checks, earlier.relays.before idle.relays⟩

end Books

end Participant

/-! ## Acts that keep the ledger -/

namespace Act

open Participant

variable
    {α β : Type}
    {booking : Booking}
    {sends : Outgoing → Prop}
    {state : Participant}

/-- An act that adds no more than a booking to the ledger, and sends certain packets only. -/
structure Records
    (booking : Booking)
    (sends : Outgoing → Prop)
    (act : Act α)
    (state : Participant) :
    Prop where
  books : Books booking state (act state).state
  sent : ∀ flight ∈ (act state).sent, sends flight

namespace Records

theorem of_silent
    {act : Act α}
    (books : Books booking state (act state).state)
    (silent : (act state).sent = []) :
    Records booking sends act state := by
  refine ⟨books, ?_⟩
  rw [silent]
  intro flight member
  cases member

theorem pure (answer : α) : Records booking sends (Pure.pure answer) state :=
  of_silent (.of_same rfl rfl rfl rfl) rfl

/-- An act that books nothing, and then any other. -/
theorem bind
    {first : Act α}
    {next : α → Act β}
    (idle : Records {} sends first state)
    (later : Records booking sends (next (first state).answer) (first state).state) :
    Records booking sends (first >>= next) state := by
  refine ⟨idle.books.after later.books, ?_⟩
  intro flight member
  rcases List.mem_append.1 member with early | late
  · exact idle.sent flight early
  · exact later.sent flight late

/-- Any act, and then one that books nothing. -/
theorem andThen
    {first : Act α}
    {next : α → Act β}
    (earlier : Records booking sends first state)
    (idle : Records {} sends (next (first state).answer) (first state).state) :
    Records booking sends (first >>= next) state := by
  refine ⟨earlier.books.before idle.books, ?_⟩
  intro flight member
  rcases List.mem_append.1 member with early | late
  · exact earlier.sent flight early
  · exact idle.sent flight late

/-- Reading the state first changes nothing. -/
theorem read
    {next : Participant → Act β}
    (later : Records booking sends (next state) state) :
    Records booking sends (Act.state >>= next) state :=
  ⟨later.books, later.sent⟩

theorem modify
    {change : Participant → Participant}
    (books : Books booking state (change state)) :
    Records booking sends (Act.modify change) state :=
  of_silent books rfl

/-- The ledger is no part of the table. -/
theorem onTable (change : Table → Table.Outcome α) :
    Records booking sends (Act.onTable change) state :=
  of_silent (.of_same rfl rfl rfl rfl) rfl

theorem send
    {target : MemberName}
    {packet : Packet}
    (allowed : sends { target, packet }) :
    Records booking sends (Act.send target packet) state := by
  refine ⟨.of_same rfl rfl rfl rfl, ?_⟩
  intro flight member
  by_cases admitted : state.codec.admits packet
  · simp only [Act.send, admitted, if_true, List.mem_singleton] at member
    rw [member]
    exact allowed
  · simp [Act.send, admitted] at member

theorem each
    {action : α → Act Unit}
    {values : List α}
    (every : ∀ value ∈ values, ∀ mid : Participant, Records {} sends (action value) mid) :
    Records {} sends (Act.each action values) state := by
  induction values generalizing state with
  | nil => exact pure ()
  | cons value rest step =>
    refine bind (every value List.mem_cons_self state) (step ?_)
    intro other member
    exact every other (List.mem_cons_of_mem value member)

end Records

/-- An act that uses up a request number besides. -/
structure Issues
    (booking : Booking)
    (sends : Outgoing → Prop)
    (act : Act α)
    (state : Participant) :
    Prop extends Records booking sends act state where
  issued : state.nextRequest < (act state).state.nextRequest

namespace Issues

/-- The number is drawn first. -/
theorem of_freshRequest
    {next : Nat → Act β}
    (later : Records booking sends (next state.nextRequest)
      { state with nextRequest := state.nextRequest + 1 }) :
    Issues booking sends (freshRequest >>= next) state := by
  have fresh : Records {} sends freshRequest state :=
    .of_silent ⟨Nat.le_succ _, .refl _, .refl _, .refl _⟩ rfl
  exact ⟨fresh.bind later, later.books.numbers⟩

theorem bind
    {first : Act α}
    {next : α → Act β}
    (idle : Records {} sends first state)
    (later : Issues booking sends (next (first state).answer) (first state).state) :
    Issues booking sends (first >>= next) state :=
  ⟨idle.bind later.toRecords, Nat.lt_of_le_of_lt idle.books.numbers later.issued⟩

theorem andThen
    {first : Act α}
    {next : α → Act β}
    (earlier : Issues booking sends first state)
    (idle : Records {} sends (next (first state).answer) (first state).state) :
    Issues booking sends (first >>= next) state :=
  ⟨earlier.toRecords.andThen idle, Nat.lt_of_lt_of_le earlier.issued idle.books.numbers⟩

theorem read
    {next : Participant → Act β}
    (later : Issues booking sends (next state) state) :
    Issues booking sends (Act.state >>= next) state :=
  ⟨later.toRecords.read, later.issued⟩

end Issues

end Act

namespace Participant

open Act

variable {sends : Outgoing → Prop} {state : Participant}

/-- However few entries fit, the carrier is sent to its target. -/
theorem records_sendFitted
    (target : MemberName)
    (carrier : Carrier)
    (entries : List GossipEntry)
    (allowed : ∀ part, sends { target, packet := carrier.wrap part }) :
    Records {} sends (sendFitted target carrier entries) state := by
  refine .read (.send ?_)
  rcases state.codec.exists_fitted_eq_wrap carrier state.settings.maxPacketSize entries with
    ⟨part, -, fitted⟩
  rw [fitted]
  exact allowed part

theorem records_sendPing
    {source : MemberName}
    (named : state.name = source)
    (target : MemberName)
    (number : Nat) :
    Records {} (Outgoing.Pings source number target) (sendPing target number) state :=
  .read (records_sendFitted _ _ _ fun part => ⟨rfl, named, part, rfl⟩)

theorem records_sendAck (target : MemberName) (number : Nat) :
    Records {} (Outgoing.Acks number target) (sendAck target number) state :=
  .read (records_sendFitted _ _ _ fun part => ⟨rfl, part, rfl⟩)

/-! ## Checks -/

/-- A check that begins awaits an ack of its ping. -/
theorem issues_beginCheck (state : Participant) (target : MemberName) :
    Issues
      { waiting := some (state.nextRequest, state.nextRequest)
        check := some (state.nextRequest, { target }) }
      (Outgoing.Pings state.name state.nextRequest target) (beginCheck target) state := by
  refine .of_freshRequest (.andThen (.modify ?_) ?_)
  · exact ⟨Nat.le_refl _, .insert _ _ _, .insert _ _ _, .refl _⟩
  · exact .bind (records_sendPing (by rfl) target _) (.pure _)

/-- Nobody is drawn to ping itself. -/
theorem ne_target_of_drawRelays
    {target relay : MemberName}
    (drawn : relay ∈ (drawRelays target state).answer) :
    relay ≠ target := by
  rintro rfl
  have candidate := (Tape.shuffle_perm _ _).subset (List.mem_of_mem_take drawn)
  have permitted := (List.mem_filter.1 candidate).2
  simp at permitted

/-- A check that asks relays awaits an ack of its request, and asks nobody to ping itself. -/
theorem issues_askRelays
    {check : Nat}
    {found : Check}
    (known : state.checks[check]? = some found)
    (drawn : (drawRelays found.target state).answer ≠ []) :
    Issues
      { waiting := some (state.nextRequest, check)
        check := some (check, { found with relayed := some state.nextRequest }) }
      (Outgoing.Requests state.name state.nextRequest found.target) (askRelays check) state := by
  refine .read ?_
  rw [known]
  refine .bind (.of_silent (.of_same rfl rfl rfl rfl) rfl) ?_
  rw [if_neg (by simpa using drawn)]
  refine .of_freshRequest (.andThen (.modify ?_) ?_)
  · exact ⟨Nat.le_refl _, .insert _ _ _, .insert _ _ _, .refl _⟩
  · refine .bind (.each ?_) (.pure true)
    intro relay member mid
    exact .send ⟨ne_target_of_drawRelays member, rfl⟩

/-- Where there is no check, or nobody to ask, nothing comes of it. -/
theorem records_askRelays_of_nobody
    {check : Nat}
    (nobody : ∀ found, state.checks[check]? = some found →
      (drawRelays found.target state).answer = []) :
    Records {} sends (askRelays check) state := by
  refine .read ?_
  cases known : state.checks[check]? with
  | none => exact .pure false
  | some found =>
    refine .bind (.of_silent (.of_same rfl rfl rfl rfl) rfl) ?_
    rw [nobody found known]
    exact .pure false

/-- A check that is given up or concluded leaves the ledger. -/
theorem records_abandonCheck (check : Nat) : Records {} sends (abandonCheck check) state :=
  .modify ⟨Nat.le_refl _, .refl _, .erase _ _, .refl _⟩

theorem records_concludeCheck (check : Nat) : Records {} sends (concludeCheck check) state := by
  refine .read ?_
  cases state.checks[check]? with
  | none => exact .pure false
  | some found =>
    refine .bind (.modify ⟨Nat.le_refl _, ?_, .erase _ _, .refl _⟩) (.pure _)
    cases found.relayed with
    | none => exact .erase _ _
    | some relayed => exact .after (.erase _ _) (.erase _ _)

/-- A check is concluded with success only if an ack was noted for it. -/
theorem exists_answered_of_concludeCheck
    {check : Nat}
    (successful : (concludeCheck check state).answer = true) :
    ∃ found : Check, state.checks[check]? = some found ∧ found.answered = true := by
  cases known : state.checks[check]? with
  | none => simp [concludeCheck, Act.state, bind, pure, known] at successful
  | some found =>
    refine ⟨found, rfl, ?_⟩
    simpa [concludeCheck, Act.state, Act.modify, bind, pure, known] using successful

/-! ## Requests of others -/

/-- A relay keeps for whom it pings. -/
theorem issues_relayPing
    (now : Instant)
    (requester : MemberName)
    (request : Nat)
    (target : MemberName) :
    Issues { relay := some (state.nextRequest, { requester, request, startedAt := now }) }
      (Outgoing.Pings state.name state.nextRequest target)
      (relayPing now requester request target) state := by
  refine .of_freshRequest (.andThen (.modify ?_) ?_)
  · exact ⟨Nat.le_refl _, .refl _, .refl _, .insert _ _ _⟩
  · exact records_sendPing (by rfl) target _

theorem records_mergeEntries (now : Instant) (source : MemberName) (entries : List GossipEntry) :
    Records {} sends (mergeEntries now source entries) state :=
  .bind (.onTable _) (.pure ())

/-- Packets under the name of the participant itself come to nothing. -/
theorem records_receive_of_own
    {packet : Packet}
    (own : packet.source = state.name)
    (now : Instant) :
    Records {} sends (receive now packet) state := by
  refine .read ?_
  rw [if_pos own]
  exact .pure none

theorem receive_of_foreign
    {packet : Packet}
    (foreign : packet.source ≠ state.name)
    (now : Instant) :
    receive now packet state = receiveFrom now packet.source packet.payload state := by
  simp [receive, Act.state, bind, foreign]

theorem records_receiveFrom_ping
    (state : Participant)
    (now : Instant)
    (source : MemberName)
    (request : Nat)
    (gossip : List GossipEntry) :
    Records {} (Outgoing.Acks request source)
      (receiveFrom now source (.ping request gossip)) state :=
  .bind (records_mergeEntries now source gossip)
    (.bind (records_sendAck source request) (.pure none))

theorem records_receiveFrom_pingRequest
    (state : Participant)
    (now : Instant)
    (source : MemberName)
    (request : Nat) :
    Records {} (Outgoing.Acks request source)
      (receiveFrom now source (.pingRequest request state.name)) state := by
  refine .read ?_
  rw [if_pos rfl]
  exact .bind (records_sendAck source request) (.pure none)

theorem issues_receiveFrom_pingRequest
    {target : MemberName}
    (other : target ≠ state.name)
    (now : Instant)
    (source : MemberName)
    (request : Nat) :
    Issues
      { relay := some (state.nextRequest, { requester := source, request, startedAt := now }) }
      (Outgoing.Pings state.name state.nextRequest target)
      (receiveFrom now source (.pingRequest request target)) state := by
  refine .read ?_
  rw [if_neg other]
  exact .andThen (issues_relayPing now source request target) (.pure none)

/-! ## Received acks -/

section Acks

variable {request : Nat}

/-- An ack that is awaited is noted in its check, if the check is still under way. -/
theorem records_receiveFrom_ack
    {check : Nat}
    {booking : Booking}
    (awaited : state.waiting[request]? = some check)
    (booked : ∀ found, state.checks[check]? = some found →
      booking.check = some (check, { found with answered := true }))
    (now : Instant)
    (source : MemberName)
    (gossip : List GossipEntry) :
    Records booking sends (receiveFrom now source (.ack request gossip)) state := by
  refine .bind (records_mergeEntries now source gossip) (.read ?_)
  have still : (mergeEntries now source gossip state).state.waiting[request]? = some check :=
    awaited
  rw [still]
  refine .read ?_
  cases known : state.checks[check]? with
  | none =>
    have unknown : (mergeEntries now source gossip state).state.checks[check]? = none := known
    rw [unknown]
    exact .pure none
  | some found =>
    have held : (mergeEntries now source gossip state).state.checks[check]? = some found := known
    rw [held]
    dsimp only
    split
    · exact .pure none
    · refine .andThen (.modify ?_) (.pure _)
      refine ⟨Nat.le_refl _, .refl _, ?_, .refl _⟩
      rw [booked found known]
      exact .insert _ _ _

/-- An ack of a ping for somebody else is passed on under the number of the request. -/
theorem records_receiveFrom_ack_of_relayed
    {relay : Relay}
    (unawaited : state.waiting[request]? = none)
    (known : state.relays[request]? = some relay)
    (now : Instant)
    (source : MemberName)
    (gossip : List GossipEntry) :
    Records {} (Outgoing.Acks relay.request relay.requester)
      (receiveFrom now source (.ack request gossip)) state := by
  refine .bind (records_mergeEntries now source gossip) (.read ?_)
  have still : (mergeEntries now source gossip state).state.waiting[request]? = none := unawaited
  have held : (mergeEntries now source gossip state).state.relays[request]? = some relay := known
  rw [still]
  refine .bind (.read ?_) (.pure none)
  rw [held]
  refine .bind (.modify ?_) (records_sendFitted _ _ _ fun part => ⟨rfl, part, rfl⟩)
  exact ⟨Nat.le_refl _, .refl _, .refl _, .erase _ _⟩

/-- An ack that nobody waits for comes to nothing. -/
theorem records_receiveFrom_ack_of_unknown
    (unawaited : state.waiting[request]? = none)
    (unknown : state.relays[request]? = none)
    (now : Instant)
    (source : MemberName)
    (gossip : List GossipEntry) :
    Records {} sends (receiveFrom now source (.ack request gossip)) state := by
  refine .bind (records_mergeEntries now source gossip) (.read ?_)
  have still : (mergeEntries now source gossip state).state.waiting[request]? = none := unawaited
  have none : (mergeEntries now source gossip state).state.relays[request]? = none := unknown
  rw [still]
  refine .bind (.read ?_) (.pure _)
  rw [none]
  exact .pure ()

end Acks

/-! ## News -/

/-- Gossip is sent in packets without a request number. -/
theorem records_disseminate (targets : List MemberName) (entries : List GossipEntry) :
    Records {} Outgoing.IsNews (disseminate targets entries) state := by
  rw [disseminate]
  split
  · exact .pure _
  · refine .read ?_
    dsimp only
    cases packed :
        state.codec.batches (.gossip state.name) state.settings.maxPacketSize entries with
    | error cause => exact .pure _
    | ok packets =>
      refine .bind (.each ?_) (.pure _)
      intro packet member mid
      rcases Codec.exists_eq_wrap_of_mem_batches packed member with ⟨part, -, rfl⟩
      exact .each fun target _ last => .send rfl

theorem records_receiveFrom_gossip
    (now : Instant)
    (source : MemberName)
    (entries : List GossipEntry) :
    Records {} Outgoing.IsNews (receiveFrom now source (.gossip entries)) state :=
  .bind (records_mergeEntries now source entries) (.read (.bind (.send rfl) (.pure none)))

theorem records_receiveFrom_gossipAck
    (now : Instant)
    (source : MemberName)
    (acks : List EntryAck) :
    Records {} sends (receiveFrom now source (.gossipAck acks)) state :=
  .bind (.modify (.of_same rfl rfl rfl rfl)) (.pure none)

theorem records_gossipTo (target : MemberName) :
    Records {} Outgoing.IsNews (gossipTo target) state := by
  refine .read (.bind (records_disseminate _ _) ?_)
  split <;> exact .pure _

theorem records_gossipToAll (targets : List MemberName) :
    Records {} Outgoing.IsNews (gossipToAll targets) state := by
  induction targets generalizing state with
  | nil => exact .pure 0
  | cons target others step => exact .bind (records_gossipTo target) (.bind step (.pure _))

theorem records_syncTargets : Records {} sends syncTargets state :=
  .bind (.onTable _) (.modify (.of_same rfl rfl rfl rfl))

theorem records_nextProbe : Records {} sends nextProbe state :=
  .bind records_syncTargets (.of_silent (.of_same rfl rfl rfl rfl) rfl)

theorem records_gossipRound : Records {} Outgoing.IsNews gossipRound state := by
  refine .bind records_syncTargets (.bind ?_ (records_gossipToAll _))
  exact .of_silent (.of_same rfl rfl rfl rfl) rfl

theorem records_leave (now : Instant) :
    Records {} Outgoing.IsNews (Participant.leave now) state :=
  .bind (.onTable _) (.read (records_disseminate _ _))

theorem records_recordProbe (now : Instant) (target : MemberName) (answered : Bool) :
    Records {} sends (recordProbe now target answered) state := by
  refine .read ?_
  cases state.table.find? target with
  | none => exact .pure false
  | some member =>
    dsimp only
    cases probedStatus? answered member.status with
    | none => exact .pure true
    | some status => exact .bind (.onTable _) (.pure true)

/-- A sweep forgets pings for others, and no more of the ledger. -/
theorem records_sweep (now : Instant) : Records {} sends (sweep now) state := by
  have forgotten : ∀ mid : Participant, Records {} sends (dropStaleRelays now) mid := by
    intro mid
    exact .modify ⟨Nat.le_refl _, .refl _, .refl _, .filter _ _⟩
  refine .read (.bind (.onTable _) ?_)
  dsimp only
  split
  · refine .bind (.modify (.of_same rfl rfl rfl rfl)) ?_
    exact .bind (forgotten _) (.pure _)
  · exact .bind (forgotten _) (.pure _)

end Participant

end ClusterMembership
