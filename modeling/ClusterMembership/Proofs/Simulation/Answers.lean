import ClusterMembership.Proofs.Frame.Acceptance
import ClusterMembership.Proofs.Simulation.Checks
import ClusterMembership.Proofs.Wire.Packing

/-!
# What checks return

A check returns whether an ack has arrived under one of its numbers, and it returns in time.  It
leaves no number behind under which an ack is awaited, and takes none from another check.
-/

namespace ClusterMembership

namespace Simulation

namespace Watch

variable {watch : Watch} {begun check : Nat}

/-! ## What a check returns -/

/-- What is known of a check when it returns. -/
theorem Returns.found
    {ended : Nat}
    {answer : Bool}
    (returns : watch.Returns ended check answer) :
    ∃ found, (watch.docket ended).checks[check]? = some found ∧ found.answered = answer ∧
      (answer = false → (watch.docket ended).deadlines check = [watch.time (ended + 1)]) ∧
      ∀ number : Nat, (watch.docket (ended + 1)).waiting[number]? =
        if (watch.docket ended).waiting[number]? = some check then none
          else (watch.docket ended).waiting[number]? := by
  obtain ⟨runs, gone, result, results, -, rfl⟩ := returns
  cases watch.fate ended check with
  | idle before => exact absurd runs (not_runs before)
  | begins before => exact absurd runs (not_runs before)
  | waits before after => exact absurd ⟨_, after⟩ gone
  | asks before after => exact absurd ⟨_, after⟩ gone
  | returns before after silent due also named outcome waiting =>
    obtain ⟨rfl, -⟩ := List.cons.inj (results.symm.trans also)
    exact ⟨_, before, outcome.symm, fun unanswered => due (outcome.symm.trans unanswered), waiting⟩

/-- A check asks relays before it returns. -/
theorem Begins.asks_before
    {ended asked relayed : Nat}
    {answer : Bool}
    (begins : watch.Begins begun check)
    (returns : watch.Returns ended check answer)
    (asks : watch.Asks asked check relayed) :
    asked < ended := by
  refine Nat.lt_of_not_le fun later => returns.2.1 ?_
  have after := begins.before_of_runs returns.1
  exact begins.runs_of_le (Nat.lt_succ_of_lt after) (Nat.succ_le_succ later) asks.runs.2

/-- A check returns what arrived for it while it was under way. -/
theorem Begins.answer_iff
    {ended : Nat}
    {answer : Bool}
    (begins : watch.Begins begun check)
    (returns : watch.Returns ended check answer) :
    answer = true ↔ watch.Acked begun ended check ∨
      ∃ asked relayed, watch.Asks asked check relayed ∧ watch.Acked asked ended relayed := by
  obtain ⟨found, known, rfl, -⟩ := returns.found
  cases begins.phase (begins.before_of_runs returns.1) returns.1 with
  | direct alsoKnown direct deadline answered alone =>
    obtain rfl := Option.some.inj (known.symm.trans alsoKnown)
    rw [answered]
    refine ⟨Or.inl, ?_⟩
    rintro (acked | ⟨asked, relayed, asks, -⟩)
    · exact acked
    · exact absurd asks (alone asked relayed (begins.asks_before returns asks))
  | @relayed found asked relayed alsoKnown drew before asks late deadline answered once =>
    obtain rfl := Option.some.inj (known.symm.trans alsoKnown)
    rw [answered]
    refine or_congr_right ⟨fun acked => ⟨asked, relayed, asks, acked⟩, ?_⟩
    rintro ⟨other, number, again, acked⟩
    obtain ⟨rfl, rfl⟩ := once other number (begins.asks_before returns again) again
    exact acked

/-- A check does not give up before its time is up. -/
theorem Begins.late_of_unanswered
    {ended : Nat}
    (begins : watch.Begins begun check)
    (returns : watch.Returns ended check false) :
    watch.time (begun + 1) + watch.settings.pingTimeout ≤ watch.time (ended + 1) ∧
      ∀ asked relayed, watch.Asks asked check relayed →
        watch.time (ended + 1) = watch.time (asked + 1) + watch.settings.pingRequestTimeout := by
  obtain ⟨found, known, -, due, -⟩ := returns.found
  have due := due rfl
  cases begins.phase (begins.before_of_runs returns.1) returns.1 with
  | direct _ direct deadline answered alone =>
    refine ⟨Nat.le_of_eq (List.singleton_inj.1 (deadline.symm.trans due)), ?_⟩
    intro asked relayed asks
    exact absurd asks (alone asked relayed (begins.asks_before returns asks))
  | @relayed _ asked relayed _ drew before asks late deadline answered once =>
    have ends := List.singleton_inj.1 (deadline.symm.trans due)
    refine ⟨?_, ?_⟩
    · rw [← ends, late]
      exact Nat.le_add_right _ _
    · intro other number again
      obtain ⟨rfl, -⟩ := once other number (begins.asks_before returns again) again
      exact ends.symm

theorem lt_of_time_lt
    {first last : Nat}
    (earlier : watch.time (first + 1) < watch.time (last + 1)) :
    first < last :=
  Nat.lt_of_not_le fun later =>
    Nat.not_le.2 earlier (watch.time_mono (Nat.succ_le_succ later))

theorem Begins.answer_of_direct
    {ended move : Nat}
    {answer : Bool}
    (begins : watch.Begins begun check)
    (returns : watch.Returns ended check answer)
    (after : begun < move)
    (arrives : watch.ack? move = some check)
    (early : watch.time (move + 1) < watch.time (begun + 1) + watch.settings.pingTimeout) :
    answer = true := by
  cases answer with
  | true => rfl
  | false =>
    have late := (begins.late_of_unanswered returns).1
    have before : move < ended := lt_of_time_lt (Nat.lt_of_lt_of_le early late)
    exact (begins.answer_iff returns).2 (Or.inl ⟨move, after, before, arrives⟩)

theorem Begins.answer_of_asked
    {ended asked relayed move : Nat}
    {answer : Bool}
    (begins : watch.Begins begun check)
    (returns : watch.Returns ended check answer)
    (asks : watch.Asks asked check relayed)
    (arrives : begun < move ∧ watch.ack? move = some check ∨
      asked < move ∧ watch.ack? move = some relayed)
    (early : watch.time (move + 1) <
      watch.time (asked + 1) + watch.settings.pingRequestTimeout) :
    answer = true := by
  cases answer with
  | true => rfl
  | false =>
    have late := (begins.late_of_unanswered returns).2 asked relayed asks
    have before : move < ended := lt_of_time_lt (Nat.lt_of_lt_of_eq early late.symm)
    refine (begins.answer_iff returns).2 ?_
    rcases arrives with ⟨after, arrives⟩ | ⟨after, arrives⟩
    · exact Or.inl ⟨move, after, before, arrives⟩
    · exact Or.inr ⟨asked, relayed, asks, move, after, before, arrives⟩

/-- A number for relays is awaited for its check as long as this is under way. -/
theorem Begins.awaited_of_asks
    {asked relayed count : Nat}
    (begins : watch.Begins begun check)
    (asks : watch.Asks asked check relayed)
    (after : asked < count)
    (runs : watch.Runs count check) :
    (watch.docket count).waiting[relayed]? = some check := by
  have started := begins.before_of_runs asks.runs.1
  cases begins.phase (Nat.lt_trans started after) runs with
  | direct known direct deadline answered alone => exact absurd asks (alone asked relayed after)
  | relayed known drew before also late deadline answered once =>
    obtain ⟨-, rfl⟩ := once asked relayed after asks
    exact ((watch.holds count).tidy.awaited_iff known _).2 (Or.inr drew)

/-- An ack answers its check. -/
theorem answered_of_ack
    {move : Nat}
    (runs : watch.Runs move check)
    (arrives : watch.ack? move = some check) :
    ∃ found, (watch.docket (move + 1)).checks[check]? = some found ∧ found.answered = true := by
  cases watch.fate move check with
  | idle before => exact absurd runs (not_runs before)
  | begins before => exact absurd runs (not_runs before)
  | waits before after deadline relayed answered =>
    exact ⟨_, after, answered.2 (Or.inr ⟨check, arrives, Or.inl rfl⟩)⟩
  | asks before after direct unanswered silent => exact nomatch silent.symm.trans arrives
  | returns before after silent => exact nomatch silent.symm.trans arrives

/-! ## When a check returns -/

/-- A check that is under way no longer has returned. -/
theorem exists_returns
    {move : Nat}
    (runs : watch.Runs move check)
    (gone : ¬watch.Runs (move + 1) check) :
    ∃ answer, watch.Returns move check answer := by
  cases watch.fate move check with
  | idle before => exact absurd runs (not_runs before)
  | begins before => exact absurd runs (not_runs before)
  | waits before after => exact absurd ⟨_, after⟩ gone
  | asks before after => exact absurd ⟨_, after⟩ gone
  | @returns found result known after silent due results named outcome waiting =>
    exact ⟨result.answered, runs, gone, result, results, named, rfl⟩

theorem exists_last_run
    {first last : Nat}
    (order : first ≤ last)
    (runs : watch.Runs first check)
    (gone : ¬watch.Runs last check) :
    ∃ move, move < last ∧ watch.Runs move check ∧ ¬watch.Runs (move + 1) check := by
  induction order with
  | refl => exact absurd runs gone
  | @step last order step =>
    by_cases still : watch.Runs last check
    · exact ⟨last, Nat.lt_succ_self last, still, gone⟩
    · obtain ⟨move, before, found⟩ := step still
      exact ⟨move, Nat.lt_succ_of_lt before, found⟩

/-- A check has returned when the time of both its waits is up. -/
theorem Begins.returns
    {count : Nat}
    (begins : watch.Begins begun check)
    (late : watch.time (begun + 1) + watch.settings.pingTimeout +
      watch.settings.pingRequestTimeout < watch.time count) :
    ∃ ended answer, ended < count ∧ watch.Returns ended check answer := by
  have direct : watch.time (begun + 1) + watch.settings.pingTimeout < watch.time count :=
    Nat.lt_of_le_of_lt (Nat.le_add_right _ _) late
  have order : begun + 1 ≤ count := by
    refine Nat.le_of_not_le fun earlier => Nat.not_le.2 direct ?_
    exact Nat.le_trans (watch.time_mono earlier) (Nat.le_add_right _ _)
  have gone : ¬watch.Runs count check := by
    intro runs
    cases begins.phase order runs with
    | direct known _ deadline answered alone =>
      exact Nat.not_le.2 direct
        (watch.time_le_deadline (deadline ▸ List.mem_singleton_self _))
    | relayed known drew before asks waited deadline answered once =>
      rw [waited] at deadline
      exact Nat.not_le.2 late
        (watch.time_le_deadline (deadline ▸ List.mem_singleton_self _))
  obtain ⟨ended, before, runs, ends⟩ := exists_last_run order begins.2 gone
  obtain ⟨answer, returns⟩ := exists_returns runs ends
  exact ⟨ended, answer, before, returns⟩

/-- A check that was answered returns when the world comes to one of its waits. -/
theorem exists_returns_of_alarm
    {move : Nat}
    {event : Event}
    {rest : List Event}
    {found : Check}
    (proceeds : watch.moves move = .proceed)
    (agenda : (watch.world move).agenda = event :: rest)
    (alarm : event.due = .deadline watch.station check ∨ event.due = .answered watch.station check)
    (known : (watch.docket move).checks[check]? = some found)
    (answered : found.answered = true) :
    ∃ answer, watch.Returns move check answer := by
  obtain ⟨state, present, same⟩ := Option.map_eq_some_iff.1 (watch.holds move).found
  rw [← same] at known
  let reached := (watch.world move).reach event rest
  have here : reached.stations[watch.station]? = some state := present
  have onDocket : reached.docket? watch.station =
      some (reached.docketWith watch.station state.participant state.results) := by
    rw [World.docket?, here]
    rfl
  have happens : watch.world (move + 1) = reached.conclude watch.station check found.target := by
    have found : state.participant.checks[check]? = some found := known
    show (watch.moves move).perform (watch.world move) = _
    rw [proceeds, Move.perform, agenda]
    show reached.occur event.due = _
    rw [World.occur_alarm here alarm, found, Option.elim_some, World.expireCheck, answered,
      Bool.true_or, if_pos rfl]
  obtain ⟨numbers, result, -, -, -, last⟩ :=
    (World.concludes_conclude onDocket known found.target).docket
  rw [← happens] at last
  refine exists_returns ⟨found, same ▸ known⟩ (not_runs ?_)
  rw [watch.docket_eq last, Std.ExtHashMap.getElem?_erase_self]

theorem waiting_eq_empty
    {count : Nat}
    (idle : ∀ check, ¬watch.Runs count check) :
    (watch.docket count).waiting = ∅ := by
  refine Std.ExtHashMap.ext_getElem? fun number => ?_
  cases held : (watch.docket count).waiting[number]? with
  | none => simp
  | some check =>
    obtain ⟨found, known, -⟩ := ((watch.holds count).tidy.awaited number check).1 held
    exact absurd ⟨found, known⟩ (idle check)

/-! ## The theorem -/

/--
Whatever a station and its world do, as long as no check is given up: a check that is asked for
begins, and when the time of both its waits is up, it has returned.

A check returns true if an ack under its number arrives before the time of its first wait is up, or
if it has asked relays and an ack under its number, or under the number it has drawn for the
relays, arrives before the time of its second wait is up.  It returns false if no such ack arrives
while it is under way.

When a check returns, an ack is awaited no longer under its numbers, and for every other check
under the same numbers as before.  When no check is under way, no ack is awaited.
-/
theorem checks_miss_no_ack (watch : Watch) :
    (∀ move target, watch.moves move = .check watch.station target →
      watch.Begins move (watch.docket move).numbers) ∧
    (∀ begun check, watch.Begins begun check →
      (∀ count,
        watch.time (begun + 1) + watch.settings.pingTimeout +
            watch.settings.pingRequestTimeout < watch.time count →
          ∃ ended answer, ended < count ∧ watch.Returns ended check answer) ∧
      ∀ ended answer, watch.Returns ended check answer →
        (∀ move, begun < move → watch.ack? move = some check →
          watch.time (move + 1) < watch.time (begun + 1) + watch.settings.pingTimeout →
            answer = true) ∧
        (∀ asked relayed move, watch.Asks asked check relayed →
          begun < move ∧ watch.ack? move = some check ∨
            asked < move ∧ watch.ack? move = some relayed →
          watch.time (move + 1) < watch.time (asked + 1) + watch.settings.pingRequestTimeout →
            answer = true) ∧
        (¬watch.Acked begun ended check →
          (∀ asked relayed, watch.Asks asked check relayed → ¬watch.Acked asked ended relayed) →
            answer = false) ∧
        (watch.docket (ended + 1)).waiting[check]? = none ∧
        (∀ asked relayed, watch.Asks asked check relayed →
          (watch.docket (ended + 1)).waiting[relayed]? = none) ∧
        ∀ number other : Nat, other ≠ check →
          ((watch.docket (ended + 1)).waiting[number]? = some other ↔
            (watch.docket ended).waiting[number]? = some other)) ∧
    ∀ count, (∀ check, ¬watch.Runs count check) → (watch.docket count).waiting = ∅ := by
  refine ⟨fun move target => begins_of_check, fun begun check begins => ?_,
    fun count => waiting_eq_empty⟩
  refine ⟨fun count => begins.returns, fun ended answer returns => ?_⟩
  obtain ⟨found, known, -, -, waiting⟩ := returns.found
  have awaited := (watch.holds ended).tidy.awaited_iff known
  refine ⟨fun move => begins.answer_of_direct returns,
    fun asked relayed move => begins.answer_of_asked returns, ?_, ?_, ?_, ?_⟩
  · intro noDirect noRelayed
    rw [Bool.eq_false_iff, Ne, begins.answer_iff returns]
    rintro (acked | ⟨asked, relayed, asks, acked⟩)
    · exact noDirect acked
    · exact noRelayed asked relayed asks acked
  · rw [waiting, if_pos ((awaited check).2 (Or.inl rfl))]
  · intro asked relayed asks
    have before := begins.asks_before returns asks
    rw [waiting, if_pos (begins.awaited_of_asks asks before returns.1)]
  · intro number other different
    rw [waiting]
    split
    · rename_i own
      simp [own, Ne.symm different]
    · rfl

end Watch

/-! ### A check that is answered -/

namespace World

/-- Nobody is on the network, and nobody answers. -/
structure Alone (world : World) : Prop where
  unbound : ∀ target : MemberName, world.network.bound[target]? = none
  unanswered : world.script = []

theorem Alone.transmit
    {world : World}
    (alone : Alone world)
    (station : Nat)
    (outgoing : Outgoing) :
    ∃ sent, world.transmit station outgoing = { world with sent } := by
  have unanswered := alone.unanswered
  have unbound := alone.unbound outgoing.target
  unfold World.transmit
  dsimp only
  split
  · exact ⟨_, rfl⟩
  · split
    · exact ⟨_, rfl⟩
    · refine ⟨{ time := world.now, station, outgoing } :: world.sent, ?_⟩
      simp [followScript, unanswered, carry, unbound]

/-- What a station sends where nobody is changes only what is recorded as sent. -/
theorem Alone.transmits
    {world : World}
    (alone : Alone world)
    (station : Nat)
    (outgoings : List Outgoing) :
    ∃ sent, outgoings.foldl (fun world outgoing => world.transmit station outgoing) world =
      { world with sent } := by
  induction outgoings generalizing world with
  | nil => exact ⟨_, rfl⟩
  | cons outgoing outgoings step =>
    obtain ⟨sent, same⟩ := alone.transmit station outgoing
    rw [List.foldl_cons, same]
    exact step ⟨alone.unbound, alone.unanswered⟩

theorem Alone.performThen
    {α : Type}
    {world : World}
    {station : Nat}
    {state : Station}
    (present : world.stations[station]? = some state)
    (act : Act α)
    (next : α → World → World)
    (alone : Alone (next (act state.participant).answer
      (world.acted station (act state.participant)))) :
    ∃ sent, (world.performThen station act next).2 =
      { next (act state.participant).answer (world.acted station (act state.participant)) with
        sent } := by
  rw [World.performThen, present]
  exact alone.transmits station (act state.participant).sent

/-- A datagram that answers a check puts this on the agenda, and nothing else. -/
theorem Alone.deliver
    {world : World}
    {station check : Nat}
    {state : Station}
    {datagram : Bytes}
    (alone : Alone world)
    (present : world.stations[station]? = some state)
    (answer : (Participant.receiveDatagram world.now datagram state.participant).answer =
      some check) :
    (world.deliver station datagram).now = world.now ∧
      (world.deliver station datagram).agenda =
        enter { time := world.now, due := .answered station check } world.agenda := by
  have delivered := Alone.performThen present
    (Participant.receiveDatagram world.now datagram) (noteAnswer station)
  rw [answer] at delivered
  obtain ⟨sent, same⟩ := delivered ⟨alone.unbound, alone.unanswered⟩
  rw [deliver_eq, same]
  exact ⟨rfl, rfl⟩

end World

namespace Watch

/-- A station that has just started, and knows nobody. -/
def newcomer : Station where
  participant :=
    .start {} { signer := { mac := Hmac.mac [0x6b] } } (.start { text := "a" } [] [] 0) default
  listener := .create Broadcast.defaultCapacity
  endpoint := 0

/-- The ack of a peer of the newcomer. -/
def newcomerAck : Packet :=
  { source := { text := "b" }, payload := .ack newcomer.participant.nextRequest [] }

/-- The ack as it is signed. -/
def signedAck : Bytes :=
  newcomer.participant.codec.signer.frame ⟨List.replicate 16 0, rfl⟩ newcomerAck.write

theorem decode_signedAck : newcomer.participant.codec.decode signedAck = .ok newcomerAck := by
  have packable : newcomerAck.Packable := by decide
  have fits : newcomerAck.write.length ≤ Frame.maxPayload := by
    rw [Packet.length_write]
    decide
  have read : Packet.read newcomerAck.write = .ok newcomerAck :=
    Wire.codes_reader.runWhole_write packable
  rw [Codec.decode, signedAck, Signer.verify_frame fits]
  dsimp only
  rw [read]

/-- The newcomer checks the peer, is handed its ack, and goes on. -/
def answeredNewcomer : Watch where
  start := { stations := #[newcomer], tape := default }
  station := 0
  moves := fun
    | 0 => .check 0 { text := "b" }
    | 1 => .deliver 0 signedAck
    | _ => .proceed
  state := newcomer
  present := rfl
  ordered := ⟨.nil, nofun⟩
  idle := ⟨rfl, rfl⟩
  quiet := nofun
  kept
    | 0, _, stops, _ => nomatch stops
    | 1, _, stops, _ => nomatch stops
    | _ + 2, _, stops, _ => nomatch stops

/-- The newcomer's state when it has begun to check the peer. -/
def checkingNewcomer : Participant :=
  (Participant.beginCheck { text := "b" } newcomer.participant).state

theorem ackOf?_signedAck :
    checkingNewcomer.ackOf? signedAck = some newcomer.participant.nextRequest := by
  have decoded : checkingNewcomer.codec.decode signedAck = .ok newcomerAck := decode_signedAck
  rw [Participant.ackOf?, decoded]
  rfl

/-- The ack answers the check. -/
theorem receives_signedAck :
    (Participant.receiveDatagram 0 signedAck checkingNewcomer).answer =
      some newcomer.participant.nextRequest := by
  have awaited : checkingNewcomer.waiting[newcomer.participant.nextRequest]? =
      some newcomer.participant.nextRequest :=
    Std.ExtHashMap.getElem?_insert_self
  have known : checkingNewcomer.checks[newcomer.participant.nextRequest]? =
      some { target := { text := "b" } } :=
    Std.ExtHashMap.getElem?_insert_self
  cases Participant.receives 0 signedAck checkingNewcomer with
  | aside answer same vain => exact nomatch vain _ _ _ ackOf?_signedAck awaited known
  | notes ack also found first answer =>
    rw [ackOf?_signedAck, Option.some.injEq] at ack
    subst ack
    rw [answer, ← Option.some.inj (awaited.symm.trans also)]

/-- The newcomer awaits an ack. -/
theorem world_checking : ∃ sent, answeredNewcomer.world 1 =
    { (answeredNewcomer.start.acted 0
        (Participant.beginCheck { text := "b" } newcomer.participant)).schedule 300
          (.deadline 0 newcomer.participant.nextRequest) with sent } :=
  World.Alone.performThen rfl _ _ ⟨fun _ => Std.ExtHashMap.getElem?_empty, rfl⟩

theorem agenda_checking : (answeredNewcomer.world 1).now = 0 ∧
    (answeredNewcomer.world 1).agenda =
      [{ time := 300, due := .deadline 0 newcomer.participant.nextRequest }] := by
  obtain ⟨sent, first⟩ := world_checking
  rw [first]
  exact ⟨rfl, rfl⟩

theorem station_checking : ∃ state, (answeredNewcomer.world 1).stations[0]? = some state ∧
    state.participant = checkingNewcomer := by
  obtain ⟨sent, first⟩ := world_checking
  have start : answeredNewcomer.start.stations[0]? = some newcomer := rfl
  rw [first]
  simp only [World.schedule, World.acted, World.modifyStation, Array.getElem?_modify, if_true,
    start, Option.map_some]
  exact ⟨_, rfl, rfl⟩

theorem agenda_answered : (answeredNewcomer.world 2).now = (answeredNewcomer.world 1).now ∧
    (answeredNewcomer.world 2).agenda =
      [{ time := 0, due := .answered 0 newcomer.participant.nextRequest },
        { time := 300, due := .deadline 0 newcomer.participant.nextRequest }] := by
  obtain ⟨sent, first⟩ := world_checking
  obtain ⟨state, present, checking⟩ := station_checking
  obtain ⟨now, agenda⟩ := agenda_checking
  have alone : World.Alone (answeredNewcomer.world 1) := by
    rw [first]
    exact ⟨fun _ => Std.ExtHashMap.getElem?_empty, rfl⟩
  have answer : (Participant.receiveDatagram (answeredNewcomer.world 1).now signedAck
      state.participant).answer = some newcomer.participant.nextRequest := by
    rw [now, checking]
    exact receives_signedAck
  have delivered := alone.deliver present answer
  rw [now, agenda] at delivered
  rw [now]
  exact delivered

theorem ack?_checking :
    answeredNewcomer.ack? 1 = some newcomer.participant.nextRequest := by
  obtain ⟨state, present, checking⟩ := station_checking
  have delivers : answeredNewcomer.moves 1 = .deliver 0 signedAck := rfl
  have here : answeredNewcomer.station = 0 := rfl
  rw [Watch.ack?, delivers, Move.ack?, here, if_pos rfl, World.ackOf?, present,
    Option.bind_some, checking, ackOf?_signedAck]

/-- The ack of the peer arrives in time, so the check of the newcomer returns true. -/
theorem checks_miss_no_ack_answered :
    let watch := answeredNewcomer
    let check := newcomer.participant.nextRequest
    watch.Begins 0 check ∧ watch.ack? 1 = some check ∧
      watch.time 2 < watch.time 1 + watch.settings.pingTimeout ∧
      watch.Returns 2 check true ∧ (watch.docket 3).waiting[check]? = none := by
  intro watch check
  obtain ⟨begins, returned, -⟩ := checks_miss_no_ack watch
  have begins : watch.Begins 0 check := begins 0 { text := "b" } rfl
  obtain ⟨now, agenda⟩ := agenda_answered
  have early : watch.time 2 < watch.time 1 + watch.settings.pingTimeout := by
    rw [time, time, now]
    exact Nat.lt_add_of_pos_right (by decide)
  obtain ⟨found, known, answered⟩ := answered_of_ack begins.2 ack?_checking
  obtain ⟨answer, returns⟩ := exists_returns_of_alarm rfl agenda (Or.inr rfl) known answered
  obtain ⟨direct, -, -, gone, -⟩ := (returned 0 check begins).2 2 answer returns
  have true : answer = true := direct 1 (by decide) ack?_checking early
  exact ⟨begins, ack?_checking, early, true ▸ returns, gone⟩

end Watch

end Simulation

end ClusterMembership
