import ClusterMembership.Proofs.Participant.Awaiting
import ClusterMembership.Simulation.Node

/-!
# The docket of a station

A station has checks under way, the numbers under which it awaits an ack for them, and their waits
on the agenda of its world.  All this together is the docket of the station.  Much of what happens
in a world leaves the docket of a station as it is: sending a packet, what the loops do, and
whatever happens at other stations.
-/

namespace ClusterMembership

namespace Simulation

/-! ## Agendas -/

namespace Due

/-- What is due ends a wait of a check at a station. -/
def concerns (station : Nat) : Due → Bool
  | .deadline other _ => other = station
  | .answered other _ => other = station
  | _ => false

/-- What is due is that the time for an ack is up, in one check at a station. -/
def isDeadline (station check : Nat) : Due → Bool
  | .deadline other number => other = station && number = check
  | _ => false

/-- What is due is that one check at a station was answered. -/
def isAnswer (station check : Nat) : Due → Bool
  | .answered other number => other = station && number = check
  | _ => false

variable {station check : Nat} {due : Due}

theorem isDeadline_of_not_concerns (aside : due.concerns station = false) :
    due.isDeadline station check = false := by
  cases due <;> simp_all [concerns, isDeadline]

theorem isAnswer_of_not_concerns (aside : due.concerns station = false) :
    due.isAnswer station check = false := by
  cases due <;> simp_all [concerns, isAnswer]

theorem exists_of_concerns (due : Due) (mine : due.concerns station = true) :
    ∃ check, due = .deadline station check ∨ due = .answered station check := by
  cases due with
  | deadline other check =>
    obtain rfl : other = station := of_decide_eq_true mine
    exact ⟨check, Or.inl rfl⟩
  | answered other check =>
    obtain rfl : other = station := of_decide_eq_true mine
    exact ⟨check, Or.inr rfl⟩
  | _ => cases mine

theorem not_concerns_deadline {other : Nat} (elsewhere : other ≠ station) (check : Nat) :
    (Due.deadline other check).concerns station = false :=
  decide_eq_false elsewhere

theorem not_concerns_answered {other : Nat} (elsewhere : other ≠ station) (check : Nat) :
    (Due.answered other check).concerns station = false :=
  decide_eq_false elsewhere

end Due

/-- The times at which things of a kind are due. -/
def times (kind : Due → Bool) (agenda : List Event) : List Instant :=
  (agenda.filter fun event => kind event.due).map Event.time

namespace World

section Enter

variable {kind : Due → Bool} {event : Event} {agenda : List Event}

theorem mem_enter {other : Event} :
    other ∈ enter event agenda ↔ other = event ∨ other ∈ agenda := by
  induction agenda with
  | nil => simp [enter]
  | cons first rest step =>
    rw [enter]
    split
    · simp [step, or_left_comm]
    · simp

theorem pairwise_enter (sorted : agenda.Pairwise fun left right => left.time ≤ right.time) :
    (enter event agenda).Pairwise fun left right => left.time ≤ right.time := by
  induction agenda with
  | nil => simp [enter]
  | cons first rest step =>
    rw [List.pairwise_cons] at sorted
    rw [enter]
    split
    · rename_i early
      refine List.pairwise_cons.2 ⟨fun other among => ?_, step sorted.2⟩
      rcases mem_enter.1 among with rfl | among
      · exact early
      · exact sorted.1 other among
    · rename_i late
      refine List.pairwise_cons.2 ⟨fun other among => ?_, List.pairwise_cons.2 sorted⟩
      have before : event.time ≤ first.time := Nat.le_of_not_le late
      rcases List.mem_cons.1 among with rfl | among
      · exact before
      · exact Nat.le_trans before (sorted.1 other among)

theorem times_enter_of_not (other : kind event.due = false) :
    times kind (enter event agenda) = times kind agenda := by
  induction agenda with
  | nil => simp [enter, times, other]
  | cons first rest step =>
    unfold times at step ⊢
    rw [enter]
    split
    · rw [List.filter_cons, List.filter_cons]
      split <;> simp [step]
    · simp [List.filter_cons, other]

theorem times_enter_of_nil (same : kind event.due = true) (none : times kind agenda = []) :
    times kind (enter event agenda) = [event.time] := by
  induction agenda with
  | nil => simp [enter, times, same]
  | cons first rest step =>
    unfold times at step none ⊢
    rw [List.filter_cons] at none
    split at none
    · cases none
    · rename_i other
      rw [enter]
      split
      · rw [List.filter_cons, if_neg other]
        exact step none
      · simpa [List.filter_cons, same, other] using none

end Enter

/-- An agenda in order, with nothing on it that should have happened before. -/
structure Ordered (world : World) : Prop where
  sorted : world.agenda.Pairwise fun left right => left.time ≤ right.time
  due : ∀ event ∈ world.agenda, world.now ≤ event.time

theorem Ordered.schedule {world : World} (ordered : world.Ordered) (delay : Nat) (due : Due) :
    (world.schedule delay due).Ordered := by
  refine ⟨pairwise_enter ordered.sorted, fun event among => ?_⟩
  rcases mem_enter.1 among with rfl | among
  · exact Nat.le_add_right _ _
  · exact ordered.due event among

end World

/-! ## Dockets -/

/-- The checks of a station, and when their waits end. -/
structure Docket where
  settings : ProtocolSettings
  /-- The request numbers an ack is awaited for. -/
  waiting : Std.ExtHashMap Nat Nat
  /-- The checks under way. -/
  checks : Std.ExtHashMap Nat Check
  /-- The next request number. -/
  numbers : Nat
  /-- The checks that ended. -/
  results : List CheckResult
  /-- When the time for an ack of a check is up. -/
  deadlines : Nat → List Instant
  /-- When a check goes on because it was answered. -/
  answers : Nat → List Instant

namespace World

/-- The docket that a station would have with a participant and results. -/
def docketWith
    (world : World)
    (station : Nat)
    (participant : Participant)
    (results : List CheckResult) :
    Docket where
  settings := participant.settings
  waiting := participant.waiting
  checks := participant.checks
  numbers := participant.nextRequest
  results := results
  deadlines check := times (Due.isDeadline station check) world.agenda
  answers check := times (Due.isAnswer station check) world.agenda

/-- The docket of a station. -/
def docket? (world : World) (station : Nat) : Option Docket :=
  world.stations[station]?.map fun state =>
    world.docketWith station state.participant state.results

/--
A station keeps its docket, apart from request numbers that may be used for something else than
checks.
-/
structure Quiet (station : Nat) (before after : World) : Prop where
  now : after.now = before.now
  ordered : before.Ordered → after.Ordered
  docket : ∀ docket, before.docket? station = some docket →
    ∃ numbers, docket.numbers ≤ numbers ∧ after.docket? station = some { docket with numbers }

namespace Quiet

variable {station : Nat} {first second third : World}

theorem refl (world : World) : Quiet station world world :=
  ⟨rfl, id, fun docket found => ⟨docket.numbers, Nat.le_refl _, found⟩⟩

theorem trans (before : Quiet station first second) (after : Quiet station second third) :
    Quiet station first third := by
  refine ⟨after.now.trans before.now, fun ordered => after.ordered (before.ordered ordered), ?_⟩
  intro docket found
  obtain ⟨numbers, more, middle⟩ := before.docket docket found
  obtain ⟨others, evenMore, last⟩ := after.docket _ middle
  exact ⟨others, Nat.le_trans more evenMore, last⟩

/-- What is neither the clock, nor the agenda, nor a station does not matter. -/
theorem of_same
    (now : second.now = first.now)
    (agenda : second.agenda = first.agenda)
    (stations : second.stations = first.stations) :
    Quiet station first second := by
  refine ⟨now, fun ordered => ⟨agenda ▸ ordered.sorted, ?_⟩, fun docket found => ?_⟩
  · rw [agenda, now]
    exact ordered.due
  · refine ⟨docket.numbers, Nat.le_refl _, ?_⟩
    have same : second.docket? station = first.docket? station := by
      simp only [docket?, docketWith, agenda, stations]
    exact same.trans found

end Quiet

section Quiet

variable {station : Nat}

theorem quiet_schedule
    {due : Due}
    (aside : due.concerns station = false)
    (world : World)
    (delay : Nat) :
    Quiet station world (world.schedule delay due) := by
  refine ⟨rfl, fun ordered => ordered.schedule delay due, fun docket found => ?_⟩
  refine ⟨docket.numbers, Nat.le_refl _, ?_⟩
  let event : Event := { time := world.now + delay, due }
  have deadlines : ∀ check, times (Due.isDeadline station check) (enter event world.agenda) =
      times (Due.isDeadline station check) world.agenda :=
    fun check => times_enter_of_not (Due.isDeadline_of_not_concerns aside)
  have answers : ∀ check, times (Due.isAnswer station check) (enter event world.agenda) =
      times (Due.isAnswer station check) world.agenda :=
    fun check => times_enter_of_not (Due.isAnswer_of_not_concerns aside)
  have same : (world.schedule delay due).docket? station = world.docket? station := by
    simp only [docket?, docketWith, schedule]
    simp only [event] at deadlines answers
    simp only [deadlines, answers]
  exact same.trans found

/-- A station may change otherwise. -/
theorem quiet_modifyStation
    (change : Station → Station)
    (spares : ∀ state : Station, state.participant.SameChecks (change state).participant ∧
      (change state).results = state.results)
    (world : World)
    (other : Nat) :
    Quiet station world (world.modifyStation other change) := by
  refine ⟨rfl, fun ordered => ⟨ordered.sorted, ordered.due⟩, fun docket found => ?_⟩
  obtain ⟨state, present, rfl⟩ := Option.map_eq_some_iff.1 found
  obtain ⟨same, results⟩ := spares state
  by_cases here : other = station
  · refine ⟨(change state).participant.nextRequest, same.numbers, ?_⟩
    simp [docket?, docketWith, modifyStation, Array.getElem?_modify, here, present, same.settings,
      same.waiting, same.checks, results]
  · refine ⟨state.participant.nextRequest, Nat.le_refl _, ?_⟩
    simp [docket?, docketWith, modifyStation, Array.getElem?_modify, here, present]

/-- What another station does to itself does not matter. -/
theorem quiet_modifyStation_other
    {other : Nat}
    (elsewhere : other ≠ station)
    (world : World)
    (change : Station → Station) :
    Quiet station world (world.modifyStation other change) := by
  refine ⟨rfl, fun ordered => ⟨ordered.sorted, ordered.due⟩, fun docket found => ?_⟩
  obtain ⟨state, present, rfl⟩ := Option.map_eq_some_iff.1 found
  refine ⟨state.participant.nextRequest, Nat.le_refl _, ?_⟩
  simp [docket?, docketWith, modifyStation, Array.getElem?_modify, elsewhere, present]

theorem quiet_callAttention (world : World) (other : Nat) :
    Quiet station world (world.callAttention other) := by
  unfold callAttention
  split
  · exact .refl world
  · exact quiet_schedule rfl world 0

theorem quiet_carry (world : World) (sender : Station) (outgoing : Outgoing) :
    Quiet station world (world.carry sender outgoing) := by
  unfold carry
  split
  · exact .refl world
  · dsimp only
    have salted : Quiet station world world.freshSalt.2 := .of_same rfl rfl rfl
    split
    · exact salted
    · split
      · exact salted
      · split
        · exact .of_same rfl rfl rfl
        · refine .trans ?_ (quiet_callAttention _ _)
          exact .of_same rfl rfl rfl

theorem quiet_followScript (world : World) (other : Nat) (outgoing : Outgoing) :
    Quiet station world (world.followScript other outgoing) := by
  unfold followScript
  generalize world.script = script
  induction script generalizing world with
  | nil => exact .refl world
  | cons answer script step =>
    rw [List.foldl_cons]
    refine .trans ?_ (step _)
    split
    · exact quiet_schedule rfl world _
    · exact .refl world

theorem quiet_transmit (world : World) (other : Nat) (outgoing : Outgoing) :
    Quiet station world (world.transmit other outgoing) := by
  unfold transmit
  dsimp only
  split
  · exact .of_same rfl rfl rfl
  · split
    · exact .of_same rfl rfl rfl
    · refine .trans ?_ (quiet_carry _ _ _)
      refine .trans ?_ (quiet_followScript _ _ _)
      exact .of_same rfl rfl rfl

theorem quiet_transmits (world : World) (other : Nat) (outgoings : List Outgoing) :
    Quiet station world
      (outgoings.foldl (fun world outgoing => world.transmit other outgoing) world) := by
  induction outgoings generalizing world with
  | nil => exact .refl world
  | cons outgoing outgoings step => exact .trans (quiet_transmit world other outgoing) (step _)

/-! ### Acts -/

variable {α : Type} {other : Nat} {world : World} {state : Station}

/-- The world when the participant of a station has acted, before anything follows from it. -/
def acted (world : World) (other : Nat) (effect : Effect α) : World :=
  world.modifyStation other fun state =>
    { state with
      participant := effect.state
      listener := state.listener.tell effect.changes }

/-- Behind what follows from an answer, there are only packets on their way. -/
theorem performThen_of_present
    (present : world.stations[other]? = some state)
    (act : Act α)
    (next : α → World → World) :
    let effect := act state.participant
    (world.performThen other act next).1 = some effect.answer ∧
      Quiet station (next effect.answer (world.acted other effect))
        (world.performThen other act next).2 := by
  intro effect
  have done : world.performThen other act next =
      (some effect.answer,
        effect.sent.foldl (fun world outgoing => world.transmit other outgoing)
          (next effect.answer (world.acted other effect))) := by
    simp only [performThen, present]
    rfl
  rw [done]
  exact ⟨rfl, quiet_transmits _ _ _⟩

theorem performThen_of_absent
    (absent : world.stations[other]? = none)
    (act : Act α)
    (next : α → World → World) :
    world.performThen other act next = (none, world) := by
  simp only [performThen, absent]

/-- An act elsewhere does not matter, unless what follows from it does. -/
theorem quiet_performThen_other
    (elsewhere : other ≠ station)
    (act : Act α)
    {next : α → World → World}
    (follows : ∀ answer mid, Quiet station mid (next answer mid))
    (world : World) :
    Quiet station world (world.performThen other act next).2 := by
  cases present : world.stations[other]? with
  | none =>
    rw [performThen_of_absent present]
    exact .refl world
  | some state =>
    refine .trans ?_ (performThen_of_present present act next).2
    exact .trans (quiet_modifyStation_other elsewhere _ _) (follows _ _)

/-- An act that spares checks is one that does not matter. -/
theorem quiet_perform
    {act : Act α}
    (spares : act.Spares)
    (world : World)
    (other : Nat) :
    Quiet station world (world.perform other act).2 := by
  cases present : world.stations[other]? with
  | none =>
    rw [perform, performThen_of_absent present]
    exact .refl world
  | some state =>
    refine .trans ?_ (performThen_of_present present act _).2
    refine ⟨rfl, fun ordered => ⟨ordered.sorted, ordered.due⟩, fun docket found => ?_⟩
    obtain ⟨here, known, rfl⟩ := Option.map_eq_some_iff.1 found
    by_cases same : other = station
    · subst same
      rw [present, Option.some.injEq] at known
      subst known
      have kept := spares state.participant
      refine ⟨_, kept.numbers, ?_⟩
      simp [docket?, docketWith, acted, modifyStation, Array.getElem?_modify, present,
        kept.settings, kept.waiting, kept.checks]
    · refine ⟨here.participant.nextRequest, Nat.le_refl _, ?_⟩
      simp [docket?, docketWith, acted, modifyStation, Array.getElem?_modify, same, known]

theorem quiet_startLoops (world : World) (other : Nat) (loops : Loops) :
    Quiet station world (world.startLoops other loops) := by
  have scheduled : ∀ (runs : Bool) (due : Due) (mid : World), due.concerns station = false →
      Quiet station mid (if runs then mid.schedule 0 due else mid) := by
    intro runs due mid aside
    cases runs with
    | true => exact quiet_schedule aside mid 0
    | false => exact .refl mid
  unfold startLoops
  split
  · exact .refl world
  · rename_i state present
    have changed : Quiet station world
        (world.modifyStation other fun state => { state with loops }) :=
      quiet_modifyStation (fun state => { state with loops }) (fun _ => ⟨.refl _, rfl⟩) world other
    have handler := changed.trans (scheduled loops.handler (.attend other state.term) _ rfl)
    have detection := handler.trans (scheduled loops.detection (.detect other state.term) _ rfl)
    exact detection.trans (scheduled loops.dissemination (.push other state.term) _ rfl)

/-- Loops may stop that have begun no probe that is still under way. -/
theorem quiet_stopLoops
    (world : World)
    (other : Nat)
    (kept : ∀ state, other = station → world.stations[other]? = some state →
      state.inFlight = []) :
    Quiet station world (world.stopLoops other) := by
  let change : Station → Station := fun state =>
    { state with
      loops := {}
      term := state.term + 1
      probes := state.probes.filter (fun check => !state.inFlight.contains check)
      inFlight := [] }
  unfold stopLoops
  split
  · exact .refl world
  · rename_i state present
    by_cases here : other = station
    · rw [kept state here present]
      refine .trans ?_ (quiet_modifyStation change (fun _ => ⟨.refl _, rfl⟩) _ other)
      exact quiet_perform (.pure ()) world other
    · refine .trans ?_ (quiet_modifyStation_other here _ change)
      exact quiet_performThen_other here _ (fun _ mid => .refl mid) world

theorem quiet_addStation
    (world : World)
    (endpoint : Nat)
    (settings : ProtocolSettings)
    (codec : Codec)
    (table : Table) :
    Quiet station world (world.addStation endpoint settings codec table).2 := by
  refine ⟨rfl, fun ordered => ⟨ordered.sorted, ordered.due⟩, fun docket found => ?_⟩
  obtain ⟨state, present, rfl⟩ := Option.map_eq_some_iff.1 found
  have inside := (Array.getElem?_eq_some_iff.1 present).1
  refine ⟨state.participant.nextRequest, Nat.le_refl _, ?_⟩
  simp [docket?, docketWith, addStation, Array.getElem?_push, Nat.ne_of_lt inside, present]

/-! ### Checks elsewhere -/

theorem quiet_deliver_other (elsewhere : other ≠ station) (world : World) (datagram : Bytes) :
    Quiet station world (world.deliver other datagram) := by
  refine quiet_performThen_other elsewhere _ (fun answer mid => ?_) world
  split
  · exact quiet_schedule (Due.not_concerns_answered elsewhere _) mid 0
  · exact .refl mid

theorem quiet_beginCheck_other (elsewhere : other ≠ station) (world : World) (target : MemberName) :
    Quiet station world (world.beginCheck other target).2 :=
  quiet_performThen_other elsewhere _
    (fun _ mid => quiet_schedule (Due.not_concerns_deadline elsewhere _) mid _) world

theorem quiet_conclude_other
    (elsewhere : other ≠ station)
    (world : World)
    (check : Nat)
    (target : MemberName) :
    Quiet station world (world.conclude other check target) := by
  have concluded : Quiet station world (world.perform other (Participant.concludeCheck check)).2 :=
    quiet_performThen_other elsewhere _ (fun _ mid => .refl mid) world
  refine concluded.trans ?_
  unfold conclude
  dsimp only
  split
  · exact .trans (quiet_perform (Participant.spares_recordProbe _ _ _) _ _)
      (quiet_modifyStation_other elsewhere _ _)
  · exact quiet_modifyStation_other elsewhere _ _

theorem quiet_expireCheck_other
    (elsewhere : other ≠ station)
    (world : World)
    (number : Nat)
    (check : Check) :
    Quiet station world (world.expireCheck other number check) := by
  unfold expireCheck
  split
  · exact quiet_conclude_other elsewhere world number check.target
  · have asked : Quiet station world
        (world.performThen other (Participant.askRelays number) fun asked world =>
          if asked then
            world.schedule (world.settingsOf other).pingRequestTimeout (.deadline other number)
          else
            world).2 := by
      refine quiet_performThen_other elsewhere _ (fun answer mid => ?_) world
      split
      · exact quiet_schedule (Due.not_concerns_deadline elsewhere _) mid _
      · exact .refl mid
    dsimp only
    split
    · exact asked
    · exact asked.trans (quiet_conclude_other elsewhere _ number check.target)

/-! ### Probes -/

theorem quiet_beginProbe_other (elsewhere : other ≠ station) (world : World) :
    Quiet station world (world.beginProbe other).2 := by
  have drawn : Quiet station world (world.perform other Participant.nextProbe).2 :=
    quiet_perform Participant.spares_nextProbe world other
  unfold beginProbe
  split
  · rename_i target mid performed
    rw [performed] at drawn
    refine drawn.trans (.trans (quiet_beginCheck_other elsewhere mid target) ?_)
    exact quiet_modifyStation
      (fun state => { state with probes := (mid.beginCheck other target).1.toList ++ state.probes })
      (fun _ => ⟨.refl _, rfl⟩) _ other
  · rename_i answer mid performed
    rw [performed] at drawn
    exact drawn

end Quiet

end World

end Simulation

end ClusterMembership
