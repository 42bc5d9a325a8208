import ClusterMembership.Proofs.Cluster.Checking
import ClusterMembership.Proofs.Cluster.Exchange
import Mathlib.Order.Monotone.Basic

/-!
# Acks on behalf of others

A participant that is asked to ping a member for somebody else draws a number for the ping, and
notes under it who asked and with which number.  Any ack under the number is passed on, whoever it
is from, and then the note is gone.  So nothing has to be known of the packets that arrive.

All is in two facts.  No number is drawn twice, `Diary.Draws.unique`, so no two requests are noted
under one, and none is noted under that of an own check, `Diary.apart`.  And a note that is there
was there ever since its number was drawn, `Diary.held_before`: once it is gone, it is gone for
good.
-/

namespace ClusterMembership

/-- What may happen to a participant: any packet arrives, or it does something by itself. -/
inductive Happening where
  | arrives (packet : Packet)
  | acts (deed : Deed)

namespace Happening

/-- The participant that a happening leaves, and the packets it sends. -/
def perform (now : Instant) (state : Participant) : Happening → Participant × List Outgoing
  | .arrives packet => (Participant.receive now packet).outcome state
  | .acts deed => deed.perform now state

/-- The packet acknowledges the request that arrives, which is one to the participant itself. -/
def AnsweredBy (own : MemberName) (flight : Outgoing) : Happening → Prop
  | .arrives packet => ∃ number, flight.Acks number packet.source ∧
      ((∃ gossip, packet.payload = .ping number gossip) ∨ packet.payload = .pingRequest number own)
  | .acts _ => False

end Happening

theorem Outgoing.IsNews.kind_ne_ack {flight : Outgoing} (news : flight.IsNews) :
    flight.packet.kind ≠ .ack := by
  intro kind
  cases said : flight.packet.payload <;>
    simp [Outgoing.IsNews, Packet.request?, Packet.kind, said] at news kind

namespace Participant

variable
    {state : Participant}
    {now : Instant}
    {source : MemberName}
    {number : Nat}
    {gossip : List GossipEntry}

/-! ## One happening -/

/-- An act that sends no packet whatever has sent nothing. -/
theorem sent_eq_nil
    {α : Type}
    {booking : Booking}
    {act : Act α}
    (records : act.Records booking (fun _ => False) state) :
    (act state).sent = [] :=
  List.eq_nil_iff_forall_not_mem.2 records.sent

/-- Whoever is asked for a ping of somebody else notes that, under the number of the ping. -/
theorem state_receiveFrom_pingRequest
    {target : MemberName}
    (other : target ≠ state.name)
    (now : Instant)
    (source : MemberName)
    (request : Nat) :
    (receiveFrom now source (.pingRequest request target) state).state =
      { state with
          nextRequest := state.nextRequest + 1
          relays := state.relays.insert state.nextRequest
            { requester := source, request, startedAt := now } } := by
  have chosen : receiveFrom now source (.pingRequest request target) state =
      (if target = state.name then (do sendAck source request; return none)
        else (do relayPing now source request target; return none) : Act (Option Nat)) state :=
    rfl
  rw [chosen, if_neg other]
  rfl

/-- The ack that is passed on for a relay. -/
def passedOn (state : Participant) (relay : Relay) (gossip : List GossipEntry) : Outgoing where
  target := relay.requester
  packet := state.codec.fitted (.ack state.name relay.request) state.settings.maxPacketSize gossip

theorem acks_passedOn (state : Participant) (relay : Relay) (gossip : List GossipEntry) :
    (state.passedOn relay gossip).Acks relay.request relay.requester :=
  ⟨rfl, _, congrArg Packet.payload (Codec.wrap_entries_fitted _ _ _ _).symm⟩

/-- What comes along with an ack does not bear on how it is passed on. -/
theorem passedOn_mergeEntries
    (sound : state.table.Sound)
    (now : Instant)
    (source : MemberName)
    (entries : List GossipEntry)
    (relay : Relay)
    (gossip : List GossipEntry) :
    (mergeEntries now source entries state).state.passedOn relay gossip =
      state.passedOn relay gossip := by
  rw [passedOn, name_mergeEntries sound]
  rfl

/-- An ack of a ping for somebody else is passed on, and the note of the ping is gone. -/
theorem receiveFrom_ack_of_relayed
    {relay : Relay}
    (unawaited : state.waiting[number]? = none)
    (known : state.relays[number]? = some relay)
    (now : Instant)
    (source : MemberName)
    (gossip : List GossipEntry) :
    let merged := (mergeEntries now source gossip state).state
    let handled := receiveFrom now source (.ack number gossip) state
    handled.state.relays[number]? = none ∧
      handled.sent =
        if merged.codec.admits (merged.passedOn relay gossip).packet then
          [merged.passedOn relay gossip]
        else [] := by
  intro merged handled
  let left : Participant := { merged with relays := merged.relays.erase number }
  let passed := sendFitted relay.requester (.ack merged.name relay.request) gossip left
  have still : merged.waiting[number]? = none := unawaited
  have held : merged.relays[number]? = some relay := known
  have silent : (mergeEntries now source gossip state).sent = [] := rfl
  have same : handled.state = passed.state ∧ handled.sent = passed.sent := by
    simp only [handled, receiveFrom, forwardAck, bind, pure, Act.state, Act.modify]
    rw [still]
    dsimp only
    rw [held]
    exact ⟨rfl, by simp [silent, passed, left, merged]⟩
  rw [same.1, same.2]
  exact ⟨Std.ExtHashMap.getElem?_erase_self, rfl⟩

/-- What a happening comes to, as far as pings for others are concerned. -/
inductive Handles
    (now : Instant)
    (happening : Happening)
    (before after : Participant)
    (sent : List Outgoing) :
    Prop where
  /-- The participant is asked to ping somebody else, and notes who asked. -/
  | takesOn {relay : Relay} {target : MemberName}
      (happens : happening = .arrives
        { source := relay.requester, payload := .pingRequest relay.request target })
      (foreign : relay.requester ≠ before.name)
      (other : target ≠ before.name)
      (started : relay.startedAt = now)
      (issued : before.nextRequest < after.nextRequest)
      (books : before.Books { relay := some (before.nextRequest, relay) } after)
      (pings : ∀ flight ∈ sent, flight.packet.kind = .ping)
  /-- An ack of such a ping is passed on to who asked. -/
  | passesOn {source : MemberName} {number : Nat} {gossip : List GossipEntry} {relay : Relay}
      (happens : happening = .arrives { source, payload := .ack number gossip })
      (unawaited : before.waiting[number]? = none)
      (known : before.relays[number]? = some relay)
      (books : before.Books {} after)
      (gone : after.relays[number]? = none)
      (acks : ∀ flight ∈ sent, flight.Acks relay.request relay.requester)
      (few : sent.length ≤ 1)
  /-- Any other ack is kept. -/
  | keeps {source : MemberName} {number : Nat} {gossip : List GossipEntry}
      {check : Option (Nat × Check)}
      (happens : happening = .arrives { source, payload := .ack number gossip })
      (books : before.Books { check } after)
      (silent : sent = [])
  /-- The participant draws a number for a check of its own. -/
  | checks {check : Nat} {noted : Option (Nat × Check)}
      (happens : ∃ deed, happening = .acts deed)
      (issued : before.nextRequest < after.nextRequest)
      (books : before.Books
        { waiting := some (before.nextRequest, check), check := noted } after)
      (others : ∀ flight ∈ sent, flight.packet.kind ≠ .ack)
  /-- Anything else, and no ack arrives. -/
  | aside
      (happens : ∀ source number gossip,
        happening ≠ .arrives { source, payload := .ack number gossip })
      (books : before.Books {} after)
      (answers : ∀ flight ∈ sent, flight.packet.kind = .ack →
        happening.AnsweredBy before.name flight)

namespace Handles

theorem of_perform (deed : Deed) :
    Handles now (.acts deed) state (deed.perform now state).1 (deed.perform now state).2 := by
  have turn : Cluster.Turn (some (.act () deed now)) () state
      (deed.perform now state).1 (deed.perform now state).2 := .of_perform deed now
  cases turn with
  | idle books news =>
    exact .aside (fun _ _ _ same => nomatch same) books
      fun flight among kind => absurd kind (news flight among).kind_ne_ack
  | begins happens issued books pings =>
    refine .checks ⟨deed, rfl⟩ issued books fun flight among => ?_
    rw [(pings flight among).kind]
    exact nofun
  | asks happens known issued books requests =>
    refine .checks ⟨deed, rfl⟩ issued books fun flight among => ?_
    rw [(requests flight among).kind]
    exact nofun
  | relays happens => cases happens
  | answers happens => cases happens
  | notes happens => cases happens
  | forwards happens => cases happens

/-- What becomes of an ack depends on what the participant awaits, and for whom it pinged. -/
theorem of_receiveFrom_ack
    (state : Participant)
    (now : Instant)
    (source : MemberName)
    (number : Nat)
    (gossip : List GossipEntry) :
    let handled := receiveFrom now source (.ack number gossip) state
    Handles now (.arrives { source, payload := .ack number gossip }) state handled.state
      handled.sent := by
  cases awaited : state.waiting[number]? with
  | some check =>
    have records : Act.Records
        { check :=
            (state.checks[check]?).map fun found => (check, { found with answered := true }) }
        (fun _ => False) (receiveFrom now source (.ack number gossip)) state := by
      apply records_receiveFrom_ack awaited
      intro found known
      rw [known]
      rfl
    exact .keeps rfl records.books (sent_eq_nil records)
  | none =>
    cases known : state.relays[number]? with
    | none =>
      have records : Act.Records { check := none } (fun _ => False)
          (receiveFrom now source (.ack number gossip)) state :=
        records_receiveFrom_ack_of_unknown awaited known now source gossip
      exact .keeps rfl records.books (sent_eq_nil records)
    | some relay =>
      have records := records_receiveFrom_ack_of_relayed awaited known now source gossip
      rcases receiveFrom_ack_of_relayed awaited known now source gossip with ⟨gone, sent⟩
      refine .passesOn rfl awaited known records.books gone records.sent ?_
      rw [sent]
      split <;> simp

theorem of_receive_own {packet : Packet} (own : packet.source = state.name) :
    Handles now (.arrives packet) state (receive now packet state).state
      (receive now packet state).sent := by
  have records : Act.Records { check := none } (fun _ => False) (receive now packet) state :=
    records_receive_of_own own now
  have silent := sent_eq_nil records
  by_cases ack : ∃ source number gossip, packet = { source, payload := .ack number gossip }
  · rcases ack with ⟨source, number, gossip, same⟩
    exact .keeps (congrArg Happening.arrives same) records.books silent
  · refine .aside (fun source number gossip same => ?_) records.books fun flight among => ?_
    · cases same
      exact ack ⟨source, number, gossip, rfl⟩
    · rw [silent] at among
      cases among

theorem of_receive (state : Participant) (now : Instant) (packet : Packet) :
    Handles now (.arrives packet) state (receive now packet state).state
      (receive now packet state).sent := by
  by_cases own : packet.source = state.name
  · exact of_receive_own own
  rw [receive_of_foreign own]
  rcases packet with ⟨source, payload⟩
  cases payload with
  | ping request gossip =>
    have records := records_receiveFrom_ping state now source request gossip
    refine .aside (fun _ _ _ same => nomatch same) records.books fun flight among _ => ?_
    exact ⟨request, records.sent flight among, .inl ⟨gossip, rfl⟩⟩
  | pingRequest request target =>
    by_cases self : target = state.name
    · subst self
      have records := records_receiveFrom_pingRequest state now source request
      refine .aside (fun _ _ _ same => nomatch same) records.books fun flight among _ => ?_
      exact ⟨request, records.sent flight among, .inr rfl⟩
    · have issues := issues_receiveFrom_pingRequest self now source request
      exact .takesOn rfl own self rfl issues.issued issues.books
        fun flight among => (issues.sent flight among).kind
  | ack number gossip => exact of_receiveFrom_ack state now source number gossip
  | gossip entries =>
    have records : Act.Records {} Outgoing.IsNews
        (receiveFrom now source (.gossip entries)) state :=
      records_receiveFrom_gossip now source entries
    exact .aside (fun _ _ _ same => nomatch same) records.books
      fun flight among kind => absurd kind (records.sent flight among).kind_ne_ack
  | gossipAck acks =>
    have records : Act.Records {} (fun _ => False)
        (receiveFrom now source (.gossipAck acks)) state :=
      records_receiveFrom_gossipAck now source acks
    exact .aside (fun _ _ _ same => nomatch same) records.books
      fun flight among _ => (records.sent flight among).elim

theorem of_happening (state : Participant) (now : Instant) (happening : Happening) :
    Handles now happening state (happening.perform now state).1
      (happening.perform now state).2 := by
  cases happening with
  | arrives packet => exact of_receive state now packet
  | acts deed => exact of_perform deed

end Handles

/-- A sweep keeps the notes of young pings only. -/
theorem relays_sweep (state : Participant) (now : Instant) :
    (sweep now state).state.relays = state.relays.filter fun _ relay =>
      now - relay.startedAt < relayLifetime state.settings := by
  by_cases moved : 0 < (state.table.expire now now state.timeouts).answer
  · simp only [sweep, bind, Act.state, Act.onTable, gt_iff_lt, moved]
    rfl
  · simp only [sweep, bind, Act.state, Act.onTable, gt_iff_lt, moved]
    rfl

end Participant

/-! ## A participant among others -/

/-- A participant starts, and then one thing happens to it after the other. -/
structure Diary where
  profile : Profile
  happenings : List (Instant × Happening)

namespace Diary

variable
    (diary : Diary)
    {time earlier later number : Nat}
    {now : Instant}
    {happening : Happening}
    {flight : Outgoing}
    {relay : Relay}

/-- The participant before what happens at a time. -/
def participant (time : Nat) : Participant :=
  (diary.happenings.take time).foldl (fun state entry => (entry.2.perform entry.1 state).1)
    diary.profile.participant

/-- What the participant sends at a time. -/
def sent (time : Nat) : List Outgoing :=
  match diary.happenings[time]? with
  | some (now, happening) => (happening.perform now (diary.participant time)).2
  | none => []

/-- At this time the participant is asked to ping somebody else, by whom the relay tells. -/
def TakesOn (time : Nat) (relay : Relay) : Prop :=
  ∃ target, diary.happenings[time]? = some (relay.startedAt, .arrives
      { source := relay.requester, payload := .pingRequest relay.request target }) ∧
    relay.requester ≠ diary.profile.name ∧ target ≠ diary.profile.name

/-- At this time an ack is sent that does not acknowledge a request to the participant. -/
def PassesOn (time : Nat) (flight : Outgoing) : Prop :=
  flight ∈ diary.sent time ∧ flight.packet.kind = .ack ∧
    ∀ now happening, diary.happenings[time]? = some (now, happening) →
      ¬happening.AnsweredBy diary.profile.name flight

/-- At this time somebody acknowledges a ping under a number. -/
def AckArrives (time number : Nat) (source : MemberName) : Prop :=
  ∃ now gossip,
    diary.happenings[time]? = some (now, .arrives { source, payload := .ack number gossip })

/-- At this time the participant forgets what is too old. -/
def Sweeps (time : Nat) (now : Instant) : Prop :=
  diary.happenings[time]? = some (now, .acts .sweep)

/-- At this time a number is used up. -/
def Draws (time number : Nat) : Prop :=
  (diary.participant time).nextRequest = number ∧
    number < (diary.participant (time + 1)).nextRequest

theorem participant_succ (time : Nat) :
    diary.participant (time + 1) =
      diary.happenings[time]?.toList.foldl (fun state entry => (entry.2.perform entry.1 state).1)
        (diary.participant time) := by
  rw [participant, List.take_add_one, List.foldl_append]
  rfl

theorem participant_of_none (nothing : diary.happenings[time]? = none) :
    diary.participant (time + 1) = diary.participant time ∧ diary.sent time = [] := by
  rw [participant_succ, sent, nothing]
  exact ⟨rfl, rfl⟩

variable {diary}

theorem handles (happens : diary.happenings[time]? = some (now, happening)) :
    Participant.Handles now happening (diary.participant time) (diary.participant (time + 1))
      (diary.sent time) := by
  rw [participant_succ, sent, happens]
  exact .of_happening _ _ _

theorem sound_participant (diary : Diary) (time : Nat) :
    (diary.participant time).table.Sound ∧
      (diary.participant time).name = diary.profile.name := by
  induction time with
  | zero => exact ⟨Table.sound_start _ _ _ _, diary.profile.name_participant⟩
  | succ time step =>
    rw [participant_succ]
    rcases diary.happenings[time]? with _ | ⟨now, packet | deed⟩
    · exact step
    · have grown := (Participant.expands_receive step.1 now packet).table
      exact ⟨grown.sound, grown.advances.own.trans step.2⟩
    · rcases deed.sound_perform step.1 now with ⟨sound, named⟩
      exact ⟨sound, named.trans step.2⟩

theorem name_participant (diary : Diary) (time : Nat) :
    (diary.participant time).name = diary.profile.name :=
  (diary.sound_participant time).2

theorem numbers (diary : Diary) (time : Nat) :
    (diary.participant time).nextRequest ≤ (diary.participant (time + 1)).nextRequest := by
  rcases happens : diary.happenings[time]? with _ | ⟨now, happening⟩
  · exact Nat.le_of_eq (congrArg _ (diary.participant_of_none happens).1.symm)
  · cases handles happens with
    | takesOn _ _ _ _ issued => exact Nat.le_of_lt issued
    | passesOn _ _ _ books => exact books.numbers
    | keeps _ books => exact books.numbers
    | checks _ issued => exact Nat.le_of_lt issued
    | aside _ books => exact books.numbers

theorem nextRequest_le (ordered : earlier ≤ later) :
    (diary.participant earlier).nextRequest ≤ (diary.participant later).nextRequest :=
  monotone_nat_of_le_succ diary.numbers ordered

/-- No number is used up twice. -/
theorem Draws.unique (first : diary.Draws earlier number) (second : diary.Draws later number) :
    earlier = later := by
  rcases Nat.lt_trichotomy earlier later with before | same | behind
  · have used := Nat.lt_of_lt_of_le first.2 (nextRequest_le before)
    exact absurd second.1.symm (Nat.ne_of_lt used)
  · exact same
  · have used := Nat.lt_of_lt_of_le second.2 (nextRequest_le behind)
    exact absurd first.1.symm (Nat.ne_of_lt used)

/-! ## What the numbers are drawn for -/

/-- What is awaited was awaited before, or is awaited for a check that draws the number. -/
theorem awaited_before
    {check : Nat}
    (awaited : (diary.participant (time + 1)).waiting[number]? = some check) :
    (diary.participant time).waiting[number]? = some check ∨
      diary.Draws time number ∧ ∃ now deed, diary.happenings[time]? = some (now, .acts deed) := by
  rcases happens : diary.happenings[time]? with _ | ⟨now, happening⟩
  · rw [(diary.participant_of_none happens).1] at awaited
    exact .inl awaited
  · cases handles happens with
    | takesOn _ _ _ _ _ books => exact .inl (books.waiting.held awaited)
    | passesOn _ _ _ books => exact .inl (books.waiting.held awaited)
    | keeps _ books => exact .inl (books.waiting.held awaited)
    | checks happens issued books =>
      rcases happens with ⟨deed, rfl⟩
      rcases books.waiting number check awaited with before | added
      · exact .inl before
      · cases added
        exact .inr ⟨⟨rfl, issued⟩, now, deed, rfl⟩
    | aside _ books => exact .inl (books.waiting.held awaited)

/-- What is noted was noted before, or is noted for a request that draws the number. -/
theorem noted_before (noted : (diary.participant (time + 1)).relays[number]? = some relay) :
    (diary.participant time).relays[number]? = some relay ∨
      diary.Draws time number ∧ diary.TakesOn time relay := by
  rcases happens : diary.happenings[time]? with _ | ⟨now, happening⟩
  · rw [(diary.participant_of_none happens).1] at noted
    exact .inl noted
  · cases handles happens with
    | @takesOn asked target arrives foreign other started issued books =>
      rcases books.relays number relay noted with before | added
      · exact .inl before
      · cases added
        rw [diary.name_participant] at foreign other
        refine .inr ⟨⟨rfl, issued⟩, target, ?_, foreign, other⟩
        rw [started, ← arrives]
        exact happens
    | passesOn _ _ _ books => exact .inl (books.relays.held noted)
    | keeps _ books => exact .inl (books.relays.held noted)
    | checks _ _ books => exact .inl (books.relays.held noted)
    | aside _ books => exact .inl (books.relays.held noted)

theorem waiting_start (diary : Diary) : (diary.participant 0).waiting = ∅ :=
  rfl

theorem relays_start (diary : Diary) : (diary.participant 0).relays = ∅ :=
  rfl

/-- A number that is awaited was drawn for a check of the participant itself. -/
theorem exists_draw_of_awaited
    {check : Nat}
    (awaited : (diary.participant time).waiting[number]? = some check) :
    ∃ drawn < time, diary.Draws drawn number ∧
      ∃ now deed, diary.happenings[drawn]? = some (now, .acts deed) := by
  induction time with
  | zero =>
    rw [waiting_start, Std.ExtHashMap.getElem?_empty] at awaited
    cases awaited
  | succ time step =>
    rcases awaited_before awaited with before | draws
    · rcases step before with ⟨drawn, early, draws⟩
      exact ⟨drawn, Nat.lt_succ_of_lt early, draws⟩
    · exact ⟨time, Nat.lt_succ_self time, draws⟩

/-- A number that is noted was drawn for the request that the note tells of. -/
theorem exists_draw_of_noted
    (noted : (diary.participant time).relays[number]? = some relay) :
    ∃ drawn < time, diary.Draws drawn number ∧ diary.TakesOn drawn relay := by
  induction time with
  | zero =>
    rw [relays_start, Std.ExtHashMap.getElem?_empty] at noted
    cases noted
  | succ time step =>
    rcases noted_before noted with before | draws
    · rcases step before with ⟨drawn, early, draws⟩
      exact ⟨drawn, Nat.lt_succ_of_lt early, draws⟩
    · exact ⟨time, Nat.lt_succ_self time, draws⟩

/-- The two parts of the ledger have no number in common, and have numbers that were drawn. -/
theorem apart (diary : Diary) (time number : Nat) :
    (diary.participant time).waiting[number]? = none ∨
      (diary.participant time).relays[number]? = none := by
  cases awaited : (diary.participant time).waiting[number]? with
  | none => exact .inl rfl
  | some check =>
    cases noted : (diary.participant time).relays[number]? with
    | none => exact .inr rfl
    | some relay =>
      rcases exists_draw_of_awaited awaited with ⟨drawn, -, draws, now, deed, acts⟩
      rcases exists_draw_of_noted noted with ⟨asked, -, drawsToo, target, arrives, -⟩
      cases draws.unique drawsToo
      cases acts.symm.trans arrives

theorem Draws.bounds (draws : diary.Draws earlier number) (ordered : earlier < later) :
    (diary.participant 0).nextRequest ≤ number ∧
      number < (diary.participant later).nextRequest :=
  ⟨draws.1 ▸ nextRequest_le (Nat.zero_le earlier),
    Nat.lt_of_lt_of_le draws.2 (nextRequest_le ordered)⟩

/-- The ledger has only numbers that were drawn. -/
theorem drawn_of_mem
    (member : (diary.participant time).waiting[number]? ≠ none ∨
      (diary.participant time).relays[number]? ≠ none) :
    (diary.participant 0).nextRequest ≤ number ∧ number < (diary.participant time).nextRequest := by
  rcases member with awaited | noted
  · rcases Option.ne_none_iff_exists'.1 awaited with ⟨check, found⟩
    rcases exists_draw_of_awaited found with ⟨drawn, early, draws, -⟩
    exact draws.bounds early
  · rcases Option.ne_none_iff_exists'.1 noted with ⟨relay, found⟩
    rcases exists_draw_of_noted found with ⟨drawn, early, draws, -⟩
    exact draws.bounds early

/-! ## What is passed on -/

/-- What is noted under a number that was drawn long ago was noted all the time. -/
theorem held_before
    (noted : (diary.participant later).relays[number]? = some relay)
    (ordered : earlier ≤ later)
    (drawn : number < (diary.participant earlier).nextRequest) :
    (diary.participant earlier).relays[number]? = some relay := by
  induction ordered with
  | refl => exact noted
  | @step later ordered step =>
    rcases noted_before noted with before | ⟨draws, -⟩
    · exact step before
    · have used := Nat.lt_of_lt_of_le drawn (nextRequest_le ordered)
      exact absurd draws.1.symm (Nat.ne_of_lt used)

/-- What an ack is passed on for is noted under its number, and no longer afterwards. -/
theorem PassesOn.exists_note (passes : diary.PassesOn time flight) :
    ∃ (number : Nat) (relay : Relay), (diary.participant time).relays[number]? = some relay ∧
      (diary.participant (time + 1)).relays[number]? = none ∧
      flight.Acks relay.request relay.requester ∧ diary.sent time = [flight] := by
  rcases passes with ⟨among, kind, unasked⟩
  rcases happens : diary.happenings[time]? with _ | ⟨now, happening⟩
  · rw [(diary.participant_of_none happens).2] at among
    cases among
  · cases handles happens with
    | takesOn _ _ _ _ _ _ pings =>
      rw [pings flight among] at kind
      cases kind
    | @passesOn _ number _ relay _ _ known _ gone acks few =>
      rcases List.length_eq_one_iff.1 (Nat.le_antisymm few (List.length_pos_of_mem among)) with
        ⟨only, whole⟩
      rw [whole, List.mem_singleton] at among
      subst among
      exact ⟨number, relay, known, gone, acks _ (whole ▸ List.mem_cons_self), whole⟩
    | keeps _ _ silent =>
      rw [silent] at among
      cases among
    | checks _ _ _ others => exact absurd kind (others flight among)
    | aside _ _ answers =>
      have answered := answers flight among kind
      rw [diary.name_participant] at answered
      exact absurd answered (unasked now happening happens)

/-- A sweep leaves no note of an old ping. -/
theorem young_of_swept
    (sweeps : diary.Sweeps time now)
    (noted : (diary.participant (time + 1)).relays[number]? = some relay) :
    now - relay.startedAt < Participant.relayLifetime (diary.participant time).settings := by
  have left : diary.participant (time + 1) =
      (Participant.sweep now (diary.participant time)).state := by
    rw [participant_succ, show diary.happenings[time]? = _ from sweeps]
    rfl
  rw [left, Participant.relays_sweep, Std.ExtHashMap.getElem?_filter] at noted
  rcases Option.pfilter_eq_some_iff.1 noted with ⟨kept, young⟩
  simpa using young

/-- An ack that is awaited, or that nothing is noted for, is not passed on. -/
theorem AckArrives.silent
    {source : MemberName}
    (arrives : diary.AckArrives time number source)
    (kept : (diary.participant time).waiting[number]? ≠ none ∨
      (diary.participant time).relays[number]? = none) :
    diary.sent time = [] := by
  rcases arrives with ⟨now, gossip, arrives⟩
  cases handles arrives with
  | takesOn happens => cases happens
  | passesOn happens unawaited known =>
    cases happens
    rcases kept with awaited | unknown
    · exact absurd unawaited awaited
    · rw [known] at unknown
      cases unknown
  | keeps _ _ silent => exact silent
  | checks happens =>
    rcases happens with ⟨deed, same⟩
    cases same
  | aside happens => exact absurd rfl (happens _ _ _)

/-- An ack of a ping for somebody else is passed on, with what came along, if it can be sent. -/
theorem AckArrives.passes
    {source : MemberName}
    (arrives : diary.AckArrives time number source)
    (foreign : source ≠ diary.profile.name)
    (noted : (diary.participant time).relays[number]? = some relay) :
    ∃ gossip, diary.sent time =
      if (diary.participant time).codec.admits
          ((diary.participant time).passedOn relay gossip).packet then
        [(diary.participant time).passedOn relay gossip]
      else [] := by
  rcases arrives with ⟨now, gossip, arrives⟩
  have unawaited := (diary.apart time number).resolve_right (by simp [noted])
  have passed := (Participant.receiveFrom_ack_of_relayed unawaited noted now source gossip).2
  rw [Participant.passedOn_mergeEntries (diary.sound_participant time).1] at passed
  rw [← diary.name_participant time] at foreign
  refine ⟨gossip, ?_⟩
  have received : diary.sent time =
      (Participant.receive now { source, payload := .ack number gossip }
        (diary.participant time)).sent := by
    rw [Diary.sent, arrives]
    rfl
  rw [received, Participant.receive_of_foreign foreign, passed]
  rfl

/-- A request that is taken on draws a number, and is noted under it. -/
theorem TakesOn.participant_succ (takesOn : diary.TakesOn time relay) :
    diary.participant (time + 1) =
      { diary.participant time with
          nextRequest := (diary.participant time).nextRequest + 1
          relays := (diary.participant time).relays.insert (diary.participant time).nextRequest
            relay } := by
  rcases takesOn with ⟨target, arrives, foreign, other⟩
  rw [← diary.name_participant time] at foreign other
  have received : diary.participant (time + 1) =
      (Participant.receive relay.startedAt
        { source := relay.requester, payload := .pingRequest relay.request target }
        (diary.participant time)).state := by
    rw [Diary.participant_succ, arrives]
    rfl
  rw [received, Participant.receive_of_foreign foreign,
    Participant.state_receiveFrom_pingRequest other]

theorem TakesOn.noted (takesOn : diary.TakesOn time relay) :
    (diary.participant (time + 1)).relays[(diary.participant time).nextRequest]? = some relay := by
  rw [takesOn.participant_succ]
  exact Std.ExtHashMap.getElem?_insert_self

/-- An ack that is passed on at a time goes back to a request at an earlier one. -/
structure Returns
    (diary : Diary)
    (asked time : Nat)
    (flight : Outgoing)
    (number : Nat)
    (relay : Relay) :
    Prop where
  early : asked < time
  draws : diary.Draws asked number
  takesOn : diary.TakesOn asked relay
  noted : (diary.participant time).relays[number]? = some relay
  gone : (diary.participant (time + 1)).relays[number]? = none
  acks : flight.Acks relay.request relay.requester
  whole : diary.sent time = [flight]

namespace Returns

variable {asked other : Nat} {second : Outgoing} {last : Relay}

/-- Once an ack was passed on for a request, nothing is noted for the request any more. -/
theorem not_lt
    (returns : diary.Returns asked time flight number relay)
    (again : diary.Returns asked later second other last) :
    ¬time < later := by
  intro before
  have same : number = other := returns.draws.1.symm.trans again.draws.1
  have drawn := (returns.draws.bounds (Nat.lt_succ_of_lt returns.early)).2
  have still := held_before again.noted before (same ▸ drawn)
  rw [← same, returns.gone] at still
  cases still

/-- For one request at most one ack is passed on. -/
theorem once
    (returns : diary.Returns asked time flight number relay)
    (again : diary.Returns asked later second other last) :
    time = later := by
  rcases Nat.lt_trichotomy time later with before | same | behind
  · exact absurd before (returns.not_lt again)
  · exact same
  · exact absurd behind (again.not_lt returns)

/-- No sweep found the ping too old meanwhile. -/
theorem young
    (returns : diary.Returns asked time flight number relay)
    {swept : Nat}
    (after : asked < swept)
    (before : swept < time)
    (sweeps : diary.Sweeps swept now) :
    now - relay.startedAt < Participant.relayLifetime (diary.participant swept).settings := by
  have drawn := (returns.draws.bounds (Nat.lt_succ_of_lt after)).2
  exact young_of_swept sweeps (held_before returns.noted before drawn)

end Returns

/-- The acks that are passed on at a time go back to one request. -/
theorem exists_returns (diary : Diary) (time : Nat) :
    ∃ asked, ∀ flight, diary.PassesOn time flight →
      ∃ number relay, diary.Returns asked time flight number relay := by
  by_cases passes : ∃ flight, diary.PassesOn time flight
  · rcases passes with ⟨flight, passes⟩
    rcases passes.exists_note with ⟨number, relay, noted, gone, acks, whole⟩
    rcases exists_draw_of_noted noted with ⟨asked, early, draws, takesOn⟩
    refine ⟨asked, fun other passesToo => ⟨number, relay, ?_⟩⟩
    have same : other = flight := by
      have among := passesToo.1
      rw [whole, List.mem_singleton] at among
      exact among
    rw [same]
    exact ⟨early, draws, takesOn, noted, gone, acks, whole⟩
  · exact ⟨0, fun flight passesToo => absurd ⟨flight, passesToo⟩ passes⟩

/-- Once a sweep finds a ping too old, no ack of it is passed on. -/
theorem forgotten_of_swept
    {swept : Nat}
    (sweeps : diary.Sweeps swept now)
    (noted : (diary.participant swept).relays[number]? = some relay)
    (old : Participant.relayLifetime (diary.participant swept).settings ≤ now - relay.startedAt)
    (after : swept < time) :
    (diary.participant time).relays[number]? = none := by
  rw [Option.eq_none_iff_forall_ne_some]
  intro held found
  rcases exists_draw_of_noted noted with ⟨asked, early, draws, -⟩
  have drawn := (draws.bounds (Nat.lt_succ_of_lt early)).2
  have left := held_before found after drawn
  have before := held_before left (Nat.le_succ swept) (draws.bounds early).2
  rw [noted] at before
  cases before
  exact absurd (young_of_swept sweeps left) (Nat.not_lt.2 old)

end Diary

open Diary Participant in
/--
Acks on behalf of others reach who asked, and at most once.  Let anything happen to a participant:
packets arrive that say anything, twice or under numbers that others use too, and in between it
does whatever it does by itself.  Then at any time:

No number is both awaited for an own check and noted for somebody else, and no number is either
that was not drawn before.

Every ack that is sent, but for those that answer a request to the participant itself, goes back
to a request to ping somebody else that arrived earlier.  It is the only packet sent at the time,
it goes to who asked, under the number of that request, and there is no second one for the
request.  No sweep in between found the ping as old as both waiting times of a probe together.

A request to ping somebody else is noted under a number that is drawn for it, and an ack by another
member under a noted number is passed on, if a packet of its size can be sent.

An ack under a number that is awaited for an own check makes the participant send nothing.

What a sweep finds that old is not noted any more from then on, and an ack under its number makes
the participant send nothing.
-/
theorem acks_for_others_are_passed_on_once (diary : Diary) :
    (∀ time number : Nat, (diary.participant time).waiting[number]? = none ∨
      (diary.participant time).relays[number]? = none) ∧
    (∀ time number : Nat,
      (diary.participant time).waiting[number]? ≠ none ∨
        (diary.participant time).relays[number]? ≠ none →
      (diary.participant 0).nextRequest ≤ number ∧
        number < (diary.participant time).nextRequest) ∧
    (∃ origin : Nat → Nat,
      (∀ time flight, diary.PassesOn time flight →
        diary.sent time = [flight] ∧ origin time < time ∧
        ∃ relay, diary.TakesOn (origin time) relay ∧
          flight.Acks relay.request relay.requester ∧
          ∀ swept now, origin time < swept → swept < time → diary.Sweeps swept now →
            now - relay.startedAt < relayLifetime (diary.participant swept).settings) ∧
      ∀ time later flight other, diary.PassesOn time flight → diary.PassesOn later other →
        origin time = origin later → time = later) ∧
    (∀ time relay, diary.TakesOn time relay →
      (diary.participant (time + 1)).relays[(diary.participant time).nextRequest]? =
        some relay) ∧
    (∀ time number source relay, diary.AckArrives time number source →
      source ≠ diary.profile.name → (diary.participant time).relays[number]? = some relay →
      ∃ flight : Outgoing, flight.Acks relay.request relay.requester ∧
        diary.sent time =
          if (diary.participant time).codec.admits flight.packet then [flight] else []) ∧
    (∀ time number source, diary.AckArrives time number source →
      (diary.participant time).waiting[number]? ≠ none → diary.sent time = []) ∧
    ∀ swept now number relay, diary.Sweeps swept now →
      (diary.participant swept).relays[number]? = some relay →
      relayLifetime (diary.participant swept).settings ≤ now - relay.startedAt →
      ∀ time, swept < time → (diary.participant time).relays[number]? = none ∧
        ∀ source, diary.AckArrives time number source → diary.sent time = [] := by
  refine ⟨diary.apart, fun time number => drawn_of_mem, ?origins, fun time relay => TakesOn.noted,
    ?passed, fun time number source arrives awaited => arrives.silent (.inl awaited), ?forgotten⟩
  case origins =>
    rcases Classical.skolem.1 diary.exists_returns with ⟨origin, returned⟩
    refine ⟨origin, fun time flight passes => ?returns, fun time later flight other => ?once⟩
    case returns =>
      rcases returned time flight passes with ⟨number, relay, returns⟩
      exact ⟨returns.whole, returns.early, relay, returns.takesOn, returns.acks,
        fun swept now after before sweeps => returns.young after before sweeps⟩
    case once =>
      intro passes again same
      rcases returned time flight passes with ⟨number, relay, returns⟩
      rcases returned later other again with ⟨second, last, returnsToo⟩
      rw [← same] at returnsToo
      exact returns.once returnsToo
  case passed =>
    intro time number source relay arrives foreign noted
    rcases arrives.passes foreign noted with ⟨gossip, sent⟩
    exact ⟨_, acks_passedOn _ relay gossip, sent⟩
  case forgotten =>
    intro swept now number relay sweeps noted old time after
    have gone := forgotten_of_swept sweeps noted old after
    exact ⟨gone, fun source arrives => arrives.silent (.inr gone)⟩

namespace Diary

open Cluster (Side)

/-- A name that neither node of the pair has. -/
def outsider : MemberName := { text := "10.0.0.3:7946" }

/-- The node that the outsider asks about acknowledges a ping. -/
def peerAck (number : Nat) : Packet where
  source := Side.right.label
  payload := .ack number []

/-- A node is asked for a ping of its peer, and the peer acknowledges the ping twice. -/
def acknowledgedTwice : Diary where
  profile := Side.left.profile
  happenings :=
    [(0, .arrives { source := outsider, payload := .pingRequest 7 Side.right.label }),
      (1, .arrives (peerAck Side.left.profile.participant.nextRequest)),
      (2, .arrives (peerAck Side.left.profile.participant.nextRequest))]

theorem takesOn_acknowledgedTwice :
    acknowledgedTwice.TakesOn 0 { requester := outsider, request := 7, startedAt := 0 } :=
  ⟨Side.right.label, rfl, by decide, by decide⟩

/-- The first of the two acks is passed on. -/
theorem exists_passesOn_acknowledgedTwice :
    ∃ flight, acknowledgedTwice.PassesOn 1 flight ∧ flight.Acks 7 outsider := by
  have arrives : acknowledgedTwice.AckArrives 1 Side.left.profile.participant.nextRequest
      Side.right.label := ⟨1, [], rfl⟩
  have foreign : Side.right.label ≠ Side.left.profile.name := by decide
  rcases arrives.passes foreign takesOn_acknowledgedTwice.noted with ⟨gossip, sent⟩
  have admitted : (acknowledgedTwice.participant 1).codec.admits
      ((acknowledgedTwice.participant 1).passedOn
        { requester := outsider, request := 7, startedAt := 0 } gossip).packet := by
    have bare : Side.left.profile.codec.admits
        ((Carrier.ack Side.left.profile.name 7).wrap []) := by
      decide +kernel
    have bounded : Codec.budget Side.left.profile.settings.maxPacketSize ≤ Frame.maxPayload :=
      Nat.le_of_ble_eq_true rfl
    rw [Participant.passedOn, name_participant, takesOn_acknowledgedTwice.participant_succ]
    exact Codec.admits_fitted _ bounded bounded bare gossip
  rw [if_pos admitted] at sent
  have acks := Participant.acks_passedOn (acknowledgedTwice.participant 1)
    { requester := outsider, request := 7, startedAt := 0 } gossip
  refine ⟨_, ⟨sent ▸ List.mem_singleton_self _, acks.kind, fun now happening happens => ?_⟩, acks⟩
  -- what happens is that an ack arrives, which no ack answers
  cases happens
  rintro ⟨number, -, ⟨_, asked⟩ | asked⟩ <;> cases asked

end Diary

open Diary in
/-- Of an ack that arrives twice, only the first one is passed on. -/
theorem acks_for_others_are_passed_on_once_twice :
    (∃ flight, acknowledgedTwice.PassesOn 1 flight ∧ flight.Acks 7 outsider) ∧
      ∀ flight, ¬acknowledgedTwice.PassesOn 2 flight := by
  rcases acks_for_others_are_passed_on_once acknowledgedTwice with
    ⟨-, -, ⟨origin, returns, once⟩, -⟩
  refine ⟨exists_passesOn_acknowledgedTwice, fun again passesAgain => ?_⟩
  rcases exists_passesOn_acknowledgedTwice with ⟨flight, passes, -⟩
  rcases returns 1 flight passes with ⟨-, early, -⟩
  rcases returns 2 again passesAgain with ⟨-, late, relay, ⟨target, asked, -⟩, -⟩
  have first : origin 1 = 0 := Nat.lt_one_iff.1 early
  have apart : origin 2 ≠ 0 := fun same =>
    absurd (once 1 2 flight again passes passesAgain (first.trans same.symm)) (by decide)
  -- only the time of the first ack is left, and no request arrives then
  have second : origin 2 = 1 := by omega
  rw [second] at asked
  simp [acknowledgedTwice, peerAck] at asked

end ClusterMembership
