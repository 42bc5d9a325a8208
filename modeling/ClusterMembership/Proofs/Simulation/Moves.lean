import ClusterMembership.Proofs.Simulation.Steps

/-!
# Moves of a world

Whatever a world does next, the docket of a station takes a step.  What is due happens in order of
time, so a wait ends at its deadline and not before.
-/

namespace ClusterMembership

namespace Simulation

namespace World

/-! ## Going on -/

/-- A world in order, in which a station has a tidy docket. -/
structure Holds (world : World) (station : Nat) (docket : Docket) : Prop where
  ordered : world.Ordered
  found : world.docket? station = some docket
  tidy : docket.Tidy

/-- A world goes on, and something happens to the docket of a station. -/
def Goes (station : Nat) (ack : Option Nat) (before after : World) : Prop :=
  ∀ docket, before.Holds station docket →
    before.now ≤ after.now ∧ after.Ordered ∧
      ∃ next, after.docket? station = some next ∧ docket.Step after.now ack next

section Goes

variable {station : Nat} {ack : Option Nat} {first second third : World}

theorem goes_of_absent (absent : first.stations[station]? = none) :
    Goes station ack first second := by
  intro docket holds
  have found := holds.found
  rw [docket?, absent] at found
  cases found

theorem Holds.docket_eq
    {docket : Docket}
    {state : Station}
    (holds : first.Holds station docket)
    (present : first.stations[station]? = some state) :
    docket = first.docketWith station state.participant state.results := by
  have found := holds.found
  rw [docket?, present] at found
  exact (Option.some.inj found).symm

theorem Quiet.goes (quiet : Quiet station first second) : Goes station none first second := by
  intro docket holds
  obtain ⟨numbers, more, next⟩ := quiet.docket docket holds.found
  exact ⟨Nat.le_of_eq quiet.now.symm, quiet.ordered holds.ordered, _, next, .of_more more⟩

theorem Quiet.andGoes
    (before : Quiet station first second)
    (after : Goes station ack second third) :
    Goes station ack first third := by
  intro docket holds
  obtain ⟨numbers, more, middle⟩ := before.docket docket holds.found
  have still := holds.tidy.step (.of_more more : docket.Step 0 none _)
  obtain ⟨later, ordered, next, last, step⟩ :=
    after _ ⟨before.ordered holds.ordered, middle, still⟩
  exact ⟨Nat.le_trans (Nat.le_of_eq before.now.symm) later, ordered, next, last, step.before more⟩

theorem Goes.andQuiet
    (before : Goes station ack first second)
    (after : Quiet station second third) :
    Goes station ack first third := by
  intro docket holds
  obtain ⟨later, ordered, next, middle, step⟩ := before docket holds
  obtain ⟨numbers, more, last⟩ := after.docket next middle
  exact ⟨Nat.le_trans later (Nat.le_of_eq after.now.symm), after.ordered ordered, _, last,
    after.now ▸ step.after more⟩

end Goes

/-! ## What a station does about its checks -/

section Here

variable {α : Type} {station check : Nat} {world : World} {state : Station} {docket : Docket}

theorem docket?_acted (present : world.stations[station]? = some state) (effect : Effect α) :
    (world.acted station effect).docket? station =
      some (world.docketWith station effect.state state.results) := by
  simp [docket?, docketWith, acted, modifyStation, Array.getElem?_modify, present]

/-- A deadline is put on the agenda, and otherwise the docket remains. -/
theorem docket?_schedule_deadline
    (found : world.docket? station = some docket)
    (none : docket.deadlines check = [])
    (delay : Nat) :
    ∃ deadlines, (world.schedule delay (.deadline station check)).docket? station =
        some { docket with deadlines } ∧
      deadlines check = [world.now + delay] ∧
      ∀ other, other ≠ check → deadlines other = docket.deadlines other := by
  obtain ⟨state, present, rfl⟩ := Option.map_eq_some_iff.1 found
  let event : Event := { time := world.now + delay, due := .deadline station check }
  refine ⟨fun other => times (Due.isDeadline station other) (enter event world.agenda), ?_,
    times_enter_of_nil (by simp [event, Due.isDeadline]) none, fun other different =>
    times_enter_of_not (by simp [event, Due.isDeadline, Ne.symm different])⟩
  have answers : ∀ other, times (Due.isAnswer station other) (enter event world.agenda) =
      times (Due.isAnswer station other) world.agenda :=
    fun other => times_enter_of_not rfl
  have scheduled : (world.schedule delay (.deadline station check)).agenda =
      enter event world.agenda := rfl
  have stations : (world.schedule delay (.deadline station check)).stations = world.stations := rfl
  simp only [docket?, docketWith, scheduled, stations, present, Option.map_some, answers]

/-- An answer is put on the agenda, and otherwise the docket remains. -/
theorem docket?_schedule_answered
    (found : world.docket? station = some docket)
    (none : docket.answers check = [])
    (delay : Nat) :
    ∃ answers, (world.schedule delay (.answered station check)).docket? station =
        some { docket with answers } ∧
      answers check = [world.now + delay] ∧
      ∀ other, other ≠ check → answers other = docket.answers other := by
  obtain ⟨state, present, rfl⟩ := Option.map_eq_some_iff.1 found
  let event : Event := { time := world.now + delay, due := .answered station check }
  refine ⟨fun other => times (Due.isAnswer station other) (enter event world.agenda), ?_,
    times_enter_of_nil (by simp [event, Due.isAnswer]) none, fun other different =>
    times_enter_of_not (by simp [event, Due.isAnswer, Ne.symm different])⟩
  have deadlines : ∀ other, times (Due.isDeadline station other) (enter event world.agenda) =
      times (Due.isDeadline station other) world.agenda :=
    fun other => times_enter_of_not rfl
  have scheduled : (world.schedule delay (.answered station check)).agenda =
      enter event world.agenda := rfl
  have stations : (world.schedule delay (.answered station check)).stations = world.stations := rfl
  simp only [docket?, docketWith, scheduled, stations, present, Option.map_some, deadlines]

/-- The number of the ack that a datagram would bring to a station. -/
def ackOf? (world : World) (station : Nat) (datagram : Bytes) : Option Nat :=
  world.stations[station]?.bind fun state => state.participant.ackOf? datagram

/-- A check that a datagram has answered goes on at once. -/
def noteAnswer (station : Nat) (answered : Option Nat) (world : World) : World :=
  answered.elim world fun check => world.schedule 0 (.answered station check)

theorem deliver_eq (world : World) (station : Nat) (datagram : Bytes) :
    world.deliver station datagram =
      (world.performThen station (Participant.receiveDatagram world.now datagram)
        (noteAnswer station)).2 := by
  unfold deliver
  congr 2
  funext answered world
  cases answered <;> rfl

theorem goes_deliver (world : World) (station : Nat) (datagram : Bytes) :
    Goes station (world.ackOf? station datagram) world (world.deliver station datagram) := by
  cases present : world.stations[station]? with
  | none => exact goes_of_absent present
  | some state =>
    let effect := Participant.receiveDatagram world.now datagram state.participant
    have arrives : world.ackOf? station datagram = state.participant.ackOf? datagram := by
      simp [ackOf?, present]
    have after : Quiet station (noteAnswer station effect.answer (world.acted station effect))
        (world.deliver station datagram) := by
      rw [deliver_eq]
      exact (performThen_of_present present _ (noteAnswer station)).2
    refine Goes.andQuiet ?_ after
    intro docket holds
    obtain rfl := holds.docket_eq present
    have received : state.participant.Receives datagram effect :=
      Participant.receives world.now datagram state.participant
    have acted := docket?_acted present effect
    have ordered : (world.acted station effect).Ordered := ⟨holds.ordered.sorted, holds.ordered.due⟩
    rw [arrives]
    cases received with
    | aside answer same vain =>
      rw [answer]
      exact ⟨Nat.le_refl _, ordered, _, acted, .spares same.settings same.waiting same.checks
        same.numbers rfl (fun _ _ _ => ⟨rfl, rfl⟩) (fun _ none => none) vain⟩
    | notes ack awaited known first answer settings numbers waiting checks =>
      rename_i number check found
      rw [answer]
      have idle := (holds.tidy.keeps check found known).unanswered first
      obtain ⟨answers, scheduled, now, others⟩ := docket?_schedule_answered acted idle 0
      exact ⟨Nat.le_refl _, ordered.schedule _ _, _, scheduled, .notes ack awaited known first
        numbers settings waiting checks rfl rfl now
        fun other different => ⟨rfl, others other different⟩⟩

theorem goes_beginCheck (world : World) (station : Nat) (target : MemberName) :
    Goes station none world (world.beginCheck station target).2 := by
  cases present : world.stations[station]? with
  | none =>
    exact goes_of_absent present
  | some state =>
    let effect := Participant.beginCheck target state.participant
    refine Goes.andQuiet ?_ (performThen_of_present present _ _).2
    intro docket holds
    obtain rfl := holds.docket_eq present
    have acted := docket?_acted present effect
    have settings : (world.acted station effect).settingsOf station =
        state.participant.settings := by
      simp [settingsOf, World.acted, modifyStation, Array.getElem?_modify, present]
      rfl
    have middle : (world.acted station effect).Ordered :=
      ⟨holds.ordered.sorted, holds.ordered.due⟩
    have unused := holds.tidy.unused state.participant.nextRequest (Nat.le_refl _)
    obtain ⟨deadlines, scheduled, now, others⟩ :=
      docket?_schedule_deadline acted unused.1 state.participant.settings.pingTimeout
    rw [settings]
    exact ⟨Nat.le_refl _, middle.schedule _ _, _, scheduled, .begins rfl (Nat.le_refl _)
      (Nat.lt_succ_self _) rfl rfl rfl rfl now unused.2
      fun other different => ⟨others other different, rfl⟩⟩

/-- A check that is asked for is under way, and has the next number. -/
theorem checks_beginCheck (found : world.docket? station = some docket) (target : MemberName) :
    ∃ next, (world.beginCheck station target).2.docket? station = some next ∧
      next.checks = docket.checks.insert docket.numbers { target } := by
  obtain ⟨state, present, rfl⟩ := Option.map_eq_some_iff.1 found
  let effect := Participant.beginCheck target state.participant
  let next : Nat → World → World := fun check world =>
    world.schedule (world.settingsOf station).pingTimeout (.deadline station check)
  let middle := next effect.answer (world.acted station effect)
  have waits : middle.docket? station =
      some (middle.docketWith station effect.state state.results) := by
    simp [middle, next, docket?, schedule, acted, modifyStation, Array.getElem?_modify, present]
  have quiet : Quiet station middle (world.beginCheck station target).2 :=
    (performThen_of_present present (Participant.beginCheck target) next).2
  obtain ⟨numbers, -, last⟩ := quiet.docket _ waits
  exact ⟨_, last, rfl⟩

theorem goes_beginProbe (world : World) (station : Nat) :
    Goes station none world (world.beginProbe station).2 := by
  have drawn : Quiet station world (world.perform station Participant.nextProbe).2 :=
    quiet_perform Participant.spares_nextProbe world station
  unfold beginProbe
  split
  · rename_i target mid performed
    rw [performed] at drawn
    refine drawn.andGoes ((goes_beginCheck mid station target).andQuiet ?_)
    exact quiet_modifyStation
      (fun state =>
        { state with probes := (mid.beginCheck station target).1.toList ++ state.probes })
      (fun _ => ⟨.refl _, rfl⟩) _ station
  · rename_i answer mid performed
    rw [performed] at drawn
    exact drawn.goes

/-- A station adds a result, and otherwise keeps its docket. -/
theorem docket?_addResult
    {change : Station → Station}
    {result : CheckResult}
    (found : world.docket? station = some docket)
    (kept : ∀ state, (change state).participant = state.participant ∧
      (change state).results = result :: state.results) :
    (world.modifyStation station change).docket? station =
      some { docket with results := result :: docket.results } := by
  obtain ⟨state, present, rfl⟩ := Option.map_eq_some_iff.1 found
  simp [docket?, docketWith, modifyStation, Array.getElem?_modify, present, kept]

/-- A check leaves the docket, and adds its result. -/
structure Concludes
    (station check : Nat)
    (found : Check)
    (docket : Docket)
    (before after : World) :
    Prop where
  now : after.now = before.now
  ordered : before.Ordered → after.Ordered
  docket : ∃ (numbers : Nat) (result : CheckResult), docket.numbers ≤ numbers ∧
    result.check = check ∧ result.answered = found.answered ∧
    after.docket? station =
      some
        { docket with
          numbers
          waiting :=
            match found.relayed with
            | some relayed => (docket.waiting.erase check).erase relayed
            | none => docket.waiting.erase check
          checks := docket.checks.erase check
          results := result :: docket.results }

theorem concludes_conclude
    {found : Check}
    (onDocket : world.docket? station = some docket)
    (known : docket.checks[check]? = some found)
    (target : MemberName) :
    Concludes station check found docket world (world.conclude station check target) := by
  obtain ⟨state, present, rfl⟩ := Option.map_eq_some_iff.1 onDocket
  let effect := Participant.concludeCheck check state.participant
  let mid := (world.perform station (Participant.concludeCheck check)).2
  let answered := ((world.perform station (Participant.concludeCheck check)).1).getD false
  let isProbe := (mid.stations[station]?.map fun state => state.probes.contains check).getD false
  let recorded : Option Bool × World :=
    if isProbe then
      mid.perform station (Participant.recordProbe mid.now target answered)
    else
      (some false, mid)
  let result : CheckResult := { check, target, answered, recorded := recorded.1.getD false }
  have concluded : world.conclude station check target =
      recorded.2.modifyStation station fun state =>
        { state with
          probes := state.probes.filter (· ≠ check)
          inFlight := state.inFlight.filter (· ≠ check)
          results := result :: state.results } := rfl
  obtain ⟨answer, left⟩ : effect.answer = found.answered ∧ _ :=
    Participant.state_concludeCheck known
  obtain ⟨first, concludes⟩ :
      (world.perform station (Participant.concludeCheck check)).1 = some effect.answer ∧
        Quiet station (world.acted station effect) mid :=
    performThen_of_present present (Participant.concludeCheck check) fun _ world => world
  have said : answered = found.answered := by
    simp only [answered, first, answer, Option.getD_some]
  have records : Quiet station mid recorded.2 := by
    simp only [recorded]
    split
    · exact quiet_perform (Participant.spares_recordProbe _ _ _) mid station
    · exact .refl mid
  have quiet := concludes.trans records
  obtain ⟨numbers, more, onDocket⟩ := quiet.docket _ (docket?_acted present effect)
  have same : effect.state = _ := left
  rw [same] at more onDocket
  rw [concluded]
  refine ⟨quiet.now, fun ordered => ?_, numbers, result, more, rfl, said,
    docket?_addResult onDocket fun state => ⟨rfl, rfl⟩⟩
  have before : (world.acted station effect).Ordered := ⟨ordered.sorted, ordered.due⟩
  have after := quiet.ordered before
  exact ⟨after.sorted, after.due⟩

/-- A check asks relays, and waits once more. -/
structure Prolongs
    (station check : Nat)
    (found : Check)
    (docket : Docket)
    (before after : World) :
    Prop where
  unanswered : found.answered = false
  direct : found.relayed = none
  now : after.now = before.now
  ordered : before.Ordered → after.Ordered
  docket : ∃ (numbers : Nat) (deadlines : Nat → List Instant), docket.numbers < numbers ∧
    deadlines check = [before.now + docket.settings.pingRequestTimeout] ∧
    (∀ other, other ≠ check → deadlines other = docket.deadlines other) ∧
    after.docket? station =
      some
        { docket with
          numbers
          waiting := docket.waiting.insert docket.numbers check
          checks := docket.checks.insert check { found with relayed := some docket.numbers }
          deadlines }

/-- A check waits for the ack of its relays, if there are any. -/
def awaitRelays (station check : Nat) (asked : Bool) (world : World) : World :=
  if asked then
    world.schedule (world.settingsOf station).pingRequestTimeout (.deadline station check)
  else
    world

/-- When relays were asked, the check waits once more. -/
theorem prolongs_askRelays
    {found : Check}
    (present : world.stations[station]? = some state)
    (known : state.participant.checks[check]? = some found)
    (waits : found.answered = false ∧ found.relayed = none)
    (none : times (Due.isDeadline station check) world.agenda = [])
    (asked : (Participant.askRelays check state.participant).answer = true) :
    Prolongs station check found
      (world.docketWith station state.participant state.results) world
      (world.performThen station (Participant.askRelays check) (awaitRelays station check)).2 := by
  let effect := Participant.askRelays check state.participant
  have quiet : Quiet station (awaitRelays station check effect.answer (world.acted station effect))
      (world.performThen station (Participant.askRelays check) (awaitRelays station check)).2 :=
    (performThen_of_present present _ _).2
  have acted := docket?_acted present effect
  rcases Participant.askRelays_cases known with
    ⟨answer, -⟩ | ⟨answer, settings, numbers, waiting, checks⟩
  · cases asked.symm.trans answer
  · have timeout : (world.acted station effect).settingsOf station = effect.state.settings := by
      simp [settingsOf, World.acted, modifyStation, Array.getElem?_modify, present]
    obtain ⟨deadlines, scheduled, deadline, others⟩ :=
      docket?_schedule_deadline acted none effect.state.settings.pingRequestTimeout
    have follows : awaitRelays station check effect.answer (world.acted station effect) =
        (world.acted station effect).schedule effect.state.settings.pingRequestTimeout
          (.deadline station check) := by
      rw [awaitRelays, if_pos asked, timeout]
    rw [follows] at quiet
    obtain ⟨drawn, more, last⟩ := quiet.docket _ scheduled
    have settings : effect.state.settings = state.participant.settings := settings
    have waiting : effect.state.waiting = _ := waiting
    have checks : effect.state.checks = _ := checks
    have numbers : effect.state.nextRequest = state.participant.nextRequest + 1 := numbers
    have ordered (before : world.Ordered) : (world.acted station effect).Ordered :=
      ⟨before.sorted, before.due⟩
    refine ⟨waits.1, waits.2, quiet.now,
      fun before => quiet.ordered ((ordered before).schedule _ _), drawn, deadlines, ?_, ?_, others,
      ?_⟩
    · exact Nat.lt_of_lt_of_le (Nat.lt_of_lt_of_eq (Nat.lt_succ_self _) numbers.symm) more
    · rw [deadline, settings]
      rfl
    · simpa only [docketWith, settings, waiting, checks] using last

/-- When there was nobody to ask, the check returns. -/
theorem concludes_askRelays
    {found : Check}
    (present : world.stations[station]? = some state)
    (known : state.participant.checks[check]? = some found)
    (unasked : (Participant.askRelays check state.participant).answer = false)
    (target : MemberName) :
    Concludes station check found
      (world.docketWith station state.participant state.results) world
      ((world.performThen station (Participant.askRelays check)
        (awaitRelays station check)).2.conclude station check target) := by
  let effect := Participant.askRelays check state.participant
  have quiet : Quiet station (awaitRelays station check effect.answer (world.acted station effect))
      (world.performThen station (Participant.askRelays check) (awaitRelays station check)).2 :=
    (performThen_of_present present _ _).2
  rcases Participant.askRelays_cases known with ⟨answer, same⟩ | ⟨answer, -⟩
  · have unasked : effect.answer = false := unasked
    rw [awaitRelays, unasked, if_neg Bool.false_ne_true] at quiet
    obtain ⟨drawn, more, onDocket⟩ := quiet.docket _ (docket?_acted present effect)
    have still : effect.state.checks[check]? = some found := same.checks ▸ known
    have concludes := concludes_conclude onDocket still target
    obtain ⟨numbers, result, further, named, outcome, last⟩ := concludes.docket
    have ordered (before : world.Ordered) : (world.acted station effect).Ordered :=
      ⟨before.sorted, before.due⟩
    refine ⟨concludes.now.trans quiet.now,
      fun before => concludes.ordered (quiet.ordered (ordered before)), numbers, result, ?_, named,
      outcome, ?_⟩
    · exact Nat.le_trans same.numbers (Nat.le_trans more further)
    · have waiting : effect.state.waiting = state.participant.waiting := same.waiting
      have checks : effect.state.checks = state.participant.checks := same.checks
      have settings : effect.state.settings = state.participant.settings := same.settings
      simpa only [docketWith, waiting, checks, settings] using last
  · cases unasked.symm.trans answer

/-- When its time is up, a check that has no ack asks relays, unless there is nobody to ask. -/
theorem expireCheck_cases
    {found : Check}
    (onDocket : world.docket? station = some docket)
    (known : docket.checks[check]? = some found)
    (due : found.answered = false → docket.deadlines check = []) :
    Concludes station check found docket world (world.expireCheck station check found) ∨
      Prolongs station check found docket world (world.expireCheck station check found) := by
  by_cases ended : (found.answered || found.relayed.isSome) = true
  · left
    rw [expireCheck, if_pos ended]
    exact concludes_conclude onDocket known found.target
  · have waits : found.answered = false ∧ found.relayed = none := by
      simpa using ended
    obtain ⟨state, present, rfl⟩ := Option.map_eq_some_iff.1 onDocket
    let asked :=
      world.performThen station (Participant.askRelays check) (awaitRelays station check)
    obtain ⟨answered, -⟩ : asked.1 = some (Participant.askRelays check state.participant).answer ∧
        Quiet station _ asked.2 := performThen_of_present present _ _
    have goesOn : world.expireCheck station check found =
        if asked.1.getD false then asked.2 else asked.2.conclude station check found.target := by
      rw [expireCheck, if_neg ended]
      rfl
    rw [goesOn, answered, Option.getD_some]
    split
    · rename_i asked
      exact Or.inr (prolongs_askRelays present known waits (due waits.1) asked)
    · rename_i unasked
      exact Or.inl (concludes_askRelays present known (Bool.eq_false_iff.2 unasked) found.target)

/-! ## What is due first -/

/-- The world when the first thing on its agenda happens. -/
def reach (world : World) (event : Event) (rest : List Event) : World :=
  { world with now := event.time, agenda := rest }

theorem Ordered.reach
    {event : Event}
    {rest : List Event}
    (ordered : world.Ordered)
    (agenda : world.agenda = event :: rest) :
    world.now ≤ event.time ∧ (world.reach event rest).Ordered := by
  have sorted := ordered.sorted
  rw [agenda, List.pairwise_cons] at sorted
  refine ⟨ordered.due event (agenda ▸ List.mem_cons_self), sorted.2, sorted.1⟩

theorem times_cons (kind : Due → Bool) (event : Event) (rest : List Event) :
    times kind (event :: rest) =
      if kind event.due then event.time :: times kind rest else times kind rest := by
  unfold times
  rw [List.filter_cons]
  split <;> rfl

theorem times_eq_nil_of_cons
    {kind : Due → Bool}
    {event : Event}
    {rest : List Event}
    (none : times kind (event :: rest) = []) :
    times kind rest = [] := by
  rw [times_cons] at none
  split at none
  · cases none
  · exact none

/-- What is left of a docket when a wait of a check ends. -/
structure Rings (check : Nat) (time : Instant) (docket next : Docket) : Prop where
  others : docket.SameOthers check next
  deadlines : ∀ other, docket.deadlines other = [] → next.deadlines other = []
  answers : ∀ other, docket.answers other = [] → next.answers other = []
  /-- A check without an ack does not go on before its deadline. -/
  due : ∀ found, docket.Keeps check found → found.answered = false →
    docket.deadlines check = [time] ∧ next.deadlines check = []

theorem rings
    {event : Event}
    {rest : List Event}
    (agenda : world.agenda = event :: rest)
    (alarm : event.due = .deadline station check ∨ event.due = .answered station check)
    (participant : Participant)
    (results : List CheckResult) :
    Rings check event.time (world.docketWith station participant results)
      ((world.reach event rest).docketWith station participant results) where
  others other different := by
    rcases alarm with due | due <;>
      simp [docketWith, reach, agenda, times_cons, due, Due.isDeadline, Due.isAnswer,
        Ne.symm different]
  deadlines other none := by
    simp only [docketWith, agenda] at none
    exact times_eq_nil_of_cons none
  answers other none := by
    simp only [docketWith, agenda] at none
    exact times_eq_nil_of_cons none
  due found keeps unanswered := by
    obtain ⟨time, single⟩ := keeps.deadline
    have idle := keeps.unanswered unanswered
    rcases alarm with due | due
    · simp only [docketWith, agenda, times_cons, due, Due.isDeadline, decide_true, Bool.and_self,
        if_true, List.cons.injEq] at single
      simp [docketWith, reach, agenda, times_cons, due, Due.isDeadline, single.2]
    · simp [docketWith, agenda, times_cons, due, Due.isAnswer] at idle

/-- When a wait ends of a check that is under way, the check goes on. -/
theorem occur_alarm
    {due : Due}
    (present : world.stations[station]? = some state)
    (alarm : due = .deadline station check ∨ due = .answered station check) :
    world.occur due =
      state.participant.checks[check]?.elim world (world.expireCheck station check) := by
  rcases alarm with rfl | rfl <;> simp only [occur, present, Option.bind_some] <;>
    cases state.participant.checks[check]? <;> rfl

/-- A wait of a check ends. -/
theorem goes_alarm
    {event : Event}
    {rest : List Event}
    (agenda : world.agenda = event :: rest)
    (alarm : event.due = .deadline station check ∨ event.due = .answered station check) :
    Goes station none world ((world.reach event rest).occur event.due) := by
  intro docket holds
  obtain ⟨state, present, rfl⟩ := Option.map_eq_some_iff.1 holds.found
  have here : (world.reach event rest).stations[station]? = some state := present
  obtain ⟨later, ordered⟩ := holds.ordered.reach agenda
  let before := world.docketWith station state.participant state.results
  let after := (world.reach event rest).docketWith station state.participant state.results
  have rings : Rings check event.time before after := rings agenda alarm _ _
  have onDocket : (world.reach event rest).docket? station = some after := by
    rw [docket?, here]
    rfl
  rw [occur_alarm here alarm]
  cases known : state.participant.checks[check]? with
  | none =>
    refine ⟨later, ordered, after, onDocket, .spares rfl rfl rfl (Nat.le_refl _) rfl ?_ ?_ ?_⟩
    · intro other found running
      refine rings.others other ?_
      rintro rfl
      cases known.symm.trans running
    · exact fun other none => ⟨rings.deadlines other none.1, rings.answers other none.2⟩
    · intro number other running arrives
      cases arrives
  | some found =>
    have keeps := holds.tidy.keeps check found known
    have due := rings.due found keeps
    rcases expireCheck_cases onDocket known fun unanswered => (due unanswered).2 with
      concludes | prolongs
    · obtain ⟨numbers, result, more, named, outcome, last⟩ := concludes.docket
      refine ⟨Nat.le_trans later (Nat.le_of_eq concludes.now.symm), concludes.ordered ordered, _,
        last, ?_⟩
      rw [Option.elim_some, concludes.now]
      exact .returns rfl known (fun unanswered => (due unanswered).1) more rfl rfl rfl rfl named
        outcome rings.others
    · obtain ⟨numbers, waits, more, deadline, same, last⟩ := prolongs.docket
      refine ⟨Nat.le_trans later (Nat.le_of_eq prolongs.now.symm), prolongs.ordered ordered, _,
        last, ?_⟩
      rw [Option.elim_some, prolongs.now]
      have idle := keeps.unanswered prolongs.unanswered
      have others : before.SameOthers check { after with deadlines := waits } :=
        fun other different =>
          ⟨(same other different).trans (rings.others other different).1,
            (rings.others other different).2⟩
      exact .asks rfl known prolongs.unanswered prolongs.direct (Nat.le_refl _) more rfl rfl rfl rfl
        (due prolongs.unanswered).1 deadline ((rings.answers check idle).trans idle.symm) others

end Here

/-! ## Moves -/

/-- The datagram that a station takes from its endpoint, if it attends to it. -/
def taken? (world : World) (station term : Nat) : Option Bytes :=
  world.stations[station]?.bind fun state =>
    if state.term = term ∧ state.loops.handler then
      match (world.network.receive state.endpoint).1 with
      | .datagram datagram => some datagram.bytes
      | _ => none
    else
      none

/-- The datagram that is handed to the participant of a station when something happens. -/
def handedBy? (world : World) (station : Nat) : Due → Option Bytes
  | .delivery other datagram => if other = station then some datagram else none
  | .attend other term => if other = station then world.taken? station term else none
  | _ => none

/-- The number of the ack that arrives at a station when something happens. -/
def ackBy? (world : World) (station : Nat) (due : Due) : Option Nat :=
  (world.handedBy? station due).bind (world.ackOf? station)

section Occur

variable {station : Nat}

theorem ackBy?_of_not_taken
    {world : World}
    {other term : Nat}
    (none : world.taken? other term = none) :
    world.ackBy? station (.attend other term) = Option.none := by
  rw [ackBy?, handedBy?]
  split
  · rename_i here
    rw [← here, none]
    rfl
  · rfl

/-- A station that attends to its endpoint handles the datagram it finds there. -/
theorem goes_attend (world : World) (other : Nat) (state : Station) :
    world.stations[other]? = some state → state.loops.handler = true →
      Goes station (world.ackBy? station (.attend other state.term)) world
        (world.attend other state) := by
  intro present runs
  unfold attend
  rcases found : world.network.receive state.endpoint with ⟨arrival, network⟩
  have changed : Quiet station world { world with network } := .of_same rfl rfl rfl
  cases arrival with
  | datagram datagram =>
    have taken : world.taken? other state.term = some datagram.bytes := by
      simp [taken?, present, runs, found]
    dsimp only
    by_cases here : other = station
    · subst here
      have arrives : world.ackBy? other (.attend other state.term) =
          World.ackOf? { world with network } other datagram.bytes := by
        rw [ackBy?, handedBy?, if_pos rfl, taken]
        rfl
      rw [arrives]
      exact changed.andGoes ((goes_deliver _ other datagram.bytes).andQuiet
        (quiet_callAttention _ other))
    · have silent : world.ackBy? station (.attend other state.term) = none := by
        rw [ackBy?, handedBy?, if_neg here]
        rfl
      rw [silent]
      exact (changed.trans ((quiet_deliver_other here _ datagram.bytes).trans
        (quiet_callAttention _ other))).goes
  | nothing =>
    have none : world.taken? other state.term = none := by
      simp [taken?, present, found]
    rw [ackBy?_of_not_taken none]
    exact changed.goes
  | closed =>
    have none : world.taken? other state.term = none := by
      simp [taken?, present, found]
    rw [ackBy?_of_not_taken none]
    refine (changed.trans ?_).goes
    exact quiet_modifyStation
      (fun state => { state with loops := { state.loops with handler := false } })
      (fun _ => ⟨.refl _, rfl⟩) { world with network } other

theorem goes_beginProbe_anywhere (world : World) (other : Nat) :
    Goes station none world (world.beginProbe other).2 := by
  by_cases here : other = station
  · subst here
    exact goes_beginProbe world other
  · exact (quiet_beginProbe_other here world).goes

/-- A station handles a datagram that it is handed. -/
theorem goes_delivery (world : World) (other : Nat) (datagram : Bytes) :
    Goes station (world.ackBy? station (.delivery other datagram)) world
      (world.deliver other datagram) := by
  by_cases here : other = station
  · subst here
    have arrives : world.ackBy? other (.delivery other datagram) = world.ackOf? other datagram := by
      simp [ackBy?, handedBy?]
    rw [arrives]
    exact goes_deliver world other datagram
  · have silent : world.ackBy? station (.delivery other datagram) = none := by
      simp [ackBy?, handedBy?, here]
    rw [silent]
    exact (quiet_deliver_other here world datagram).goes

theorem quiet_network (world : World) (network : Network) (other : Nat) :
    Quiet station world ({ world with network }.callAttention other) := by
  refine .trans ?_ (quiet_callAttention _ other)
  exact .of_same rfl rfl rfl

/-- A wait of a check at another station ends. -/
theorem quiet_alarm_other
    {other check : Nat}
    {due : Due}
    (elsewhere : other ≠ station)
    (alarm : due = .deadline other check ∨ due = .answered other check)
    (world : World) :
    Quiet station world (world.occur due) := by
  cases present : world.stations[other]? with
  | none =>
    have nothing : world.occur due = world := by
      rcases alarm with rfl | rfl <;> simp [occur, present]
    rw [nothing]
    exact .refl world
  | some state =>
    rw [occur_alarm present alarm]
    cases state.participant.checks[check]? with
    | none => exact .refl world
    | some found => exact quiet_expireCheck_other elsewhere world check found

/-- Whatever happens, apart from the end of a wait of a check at the station itself. -/
theorem goes_occur {due : Due} (aside : due.concerns station = false) (world : World) :
    Goes station (world.ackBy? station due) world (world.occur due) := by
  cases due with
  | delivery other datagram => exact goes_delivery world other datagram
  | arrival other datagram =>
    refine Quiet.goes ?_
    unfold occur
    dsimp only
    split
    · exact .refl world
    · exact quiet_network world _ other
  | hangUp other =>
    refine Quiet.goes ?_
    unfold occur
    dsimp only
    split
    · exact .refl world
    · exact quiet_network world _ other
  | attend other term =>
    unfold occur
    dsimp only
    split
    · rename_i absent
      rw [ackBy?_of_not_taken (by simp [taken?, absent])]
      exact (Quiet.refl world).goes
    · rename_i state present
      split
      · rename_i runs
        obtain ⟨rfl, handler⟩ := runs
        exact goes_attend world other state present handler
      · rename_i idle
        rw [ackBy?_of_not_taken (by simp [taken?, present, idle])]
        exact (Quiet.refl world).goes
  | detect other term =>
    refine Quiet.goes ?_
    unfold occur
    dsimp only
    split
    · exact .refl world
    · split
      · refine .trans ?_ (quiet_schedule rfl _ _)
        refine .trans ?_ (quiet_schedule rfl _ _)
        exact quiet_perform (Participant.spares_sweep _) world other
      · exact .refl world
  | probe other term =>
    unfold occur
    dsimp only
    split
    · exact (Quiet.refl world).goes
    · split
      · refine (goes_beginProbe_anywhere world other).andQuiet ?_
        exact quiet_modifyStation
          (fun state =>
            { state with inFlight := (world.beginProbe other).1.toList ++ state.inFlight })
          (fun _ => ⟨.refl _, rfl⟩) _ other
      · exact (Quiet.refl world).goes
  | push other term =>
    refine Quiet.goes ?_
    unfold occur
    dsimp only
    split
    · exact .refl world
    · split
      · refine .trans ?_ (quiet_schedule rfl _ _)
        exact quiet_perform Participant.spares_gossipRound world other
      · exact .refl world
  | deadline other number =>
    exact (quiet_alarm_other (of_decide_eq_false aside) (Or.inl rfl) world).goes
  | answered other number =>
    exact (quiet_alarm_other (of_decide_eq_false aside) (Or.inr rfl) world).goes

/-- Something else is due first. -/
theorem goes_reach
    {ack : Option Nat}
    {world third : World}
    {event : Event}
    {rest : List Event}
    (agenda : world.agenda = event :: rest)
    (aside : event.due.concerns station = false)
    (after : Goes station ack (world.reach event rest) third) :
    Goes station ack world third := by
  intro docket holds
  obtain ⟨later, ordered⟩ := holds.ordered.reach agenda
  have same : (world.reach event rest).docket? station = world.docket? station := by
    have stations : (world.reach event rest).stations = world.stations := rfl
    have left : (world.reach event rest).agenda = rest := rfl
    simp [docket?, docketWith, stations, left, agenda, times_cons,
      Due.isDeadline_of_not_concerns aside, Due.isAnswer_of_not_concerns aside]
  obtain ⟨evenLater, goesOn⟩ := after docket ⟨ordered, same.trans holds.found, holds.tidy⟩
  exact ⟨Nat.le_trans later evenLater, goesOn⟩

theorem goes_wait (world : World) (time : Instant) :
    Goes station none world
      (if world.now ≤ time ∧ ∀ event ∈ world.agenda, time ≤ event.time then
        { world with now := time }
      else
        world) := by
  split
  · rename_i idle
    intro docket holds
    exact ⟨idle.1, ⟨holds.ordered.sorted, idle.2⟩, docket, holds.found, .of_more (Nat.le_refl _)⟩
  · exact (Quiet.refl world).goes

end Occur

end World

/-- What may happen next in a world. -/
inductive Move where
  /-- The first thing on the agenda happens. -/
  | proceed
  /-- Time passes, as long as nothing is due. -/
  | wait (time : Instant)
  /-- A datagram is handed to a station, whatever it is and wherever it is from. -/
  | deliver (station : Nat) (datagram : Bytes)
  | check (station : Nat) (target : MemberName)
  | probe (station : Nat)
  /-- A station does something that spares its checks. -/
  | act {α : Type} (station : Nat) (deed : Act α) (spares : deed.Spares)
  /-- Something comes to be due that is no wait of a check. -/
  | expect (delay : Nat) (due : Due) (aside : ∀ station, due.concerns station = false)
  | startLoops (station : Nat) (loops : Loops)
  | stopLoops (station : Nat)
  | mark (station : Nat) (isRunning : Bool)
  | addStation (endpoint : Nat) (settings : ProtocolSettings) (codec : Codec) (table : Table)
  /-- The network and those who answer on it become others. -/
  | change (network : Network) (script : List Answer) (failing : List MemberName)

namespace Move

open World

/-- Make a move. -/
def perform (world : World) : Move → World
  | .proceed =>
    match world.agenda with
    | [] => world
    | event :: rest => (world.reach event rest).occur event.due
  | .wait time =>
    if world.now ≤ time ∧ ∀ event ∈ world.agenda, time ≤ event.time then
      { world with now := time }
    else
      world
  | .deliver station datagram => world.deliver station datagram
  | .check station target => (world.beginCheck station target).2
  | .probe station => (world.beginProbe station).2
  | .act station deed _ => (world.perform station deed).2
  | .expect delay due _ => world.schedule delay due
  | .startLoops station loops => world.startLoops station loops
  | .stopLoops station => world.stopLoops station
  | .mark station isRunning => world.modifyStation station fun state => { state with isRunning }
  | .addStation endpoint settings codec table =>
    (world.addStation endpoint settings codec table).2
  | .change network script failing => { world with network, script, failing }

/-- The number of the ack that a move hands to a station. -/
def ack? (world : World) (station : Nat) : Move → Option Nat
  | .proceed => world.agenda.head?.bind fun event => world.ackBy? station event.due
  | .deliver other datagram => if other = station then world.ackOf? station datagram else none
  | _ => none

/--
A move gives up no check of a station.  Only a station that stops its loops gives up checks, those
of the probes that its loops have begun.
-/
def Spares (world : World) (station : Nat) (move : Move) : Prop :=
  ∀ state, move = .stopLoops station → world.stations[station]? = some state → state.inFlight = []

/-- A move that gives up no check lets a world go on. -/
theorem goes {move : Move} {world : World} {station : Nat} (kept : move.Spares world station) :
    Goes station (move.ack? world station) world (move.perform world) := by
  cases move with
  | proceed =>
    cases agenda : world.agenda with
    | nil =>
      rw [ack?, perform, agenda]
      exact (Quiet.refl world).goes
    | cons event rest =>
      rw [ack?, perform, agenda]
      show Goes station (world.ackBy? station event.due) world
        ((world.reach event rest).occur event.due)
      cases aside : event.due.concerns station with
      | false => exact goes_reach agenda aside (goes_occur aside (world.reach event rest))
      | true =>
        obtain ⟨check, alarm⟩ := event.due.exists_of_concerns aside
        have silent : world.ackBy? station event.due = none := by
          rcases alarm with due | due <;> rw [due] <;> rfl
        rw [silent]
        exact goes_alarm agenda alarm
  | wait time => exact goes_wait world time
  | deliver other datagram =>
    rw [ack?, perform]
    by_cases here : other = station
    · subst here
      rw [if_pos rfl]
      exact goes_deliver world other datagram
    · rw [if_neg here]
      exact (quiet_deliver_other here world datagram).goes
  | check other target =>
    by_cases here : other = station
    · subst here
      exact goes_beginCheck world other target
    · exact (quiet_beginCheck_other here world target).goes
  | probe other => exact goes_beginProbe_anywhere world other
  | act other deed spares => exact (quiet_perform spares world other).goes
  | expect delay due aside => exact (quiet_schedule (aside station) world delay).goes
  | startLoops other loops => exact (quiet_startLoops world other loops).goes
  | stopLoops other =>
    refine (quiet_stopLoops world other fun state here present => ?_).goes
    subst here
    exact kept state rfl present
  | mark other isRunning =>
    exact (quiet_modifyStation (fun state => { state with isRunning }) (fun _ => ⟨.refl _, rfl⟩)
      world other).goes
  | addStation endpoint settings codec table =>
    exact (quiet_addStation world endpoint settings codec table).goes
  | change network script failing =>
    have changed : Quiet station world { world with network, script, failing } :=
      .of_same rfl rfl rfl
    exact changed.goes

/-- A world that runs lets one thing after the other happen. -/
theorem runUntil_eq_foldl_proceed
    (done : World → Bool)
    (limit : Instant)
    (steps : Nat)
    (world : World) :
    ∃ count, count ≤ steps ∧
      World.runUntil done limit steps world =
        (List.replicate count Move.proceed).foldl perform world := by
  induction steps generalizing world with
  | zero => exact ⟨0, Nat.le_refl _, rfl⟩
  | succ steps step =>
    have stops : ∃ count, count ≤ steps + 1 ∧
        world = (List.replicate count Move.proceed).foldl perform world :=
      ⟨0, Nat.zero_le _, rfl⟩
    rw [World.runUntil]
    split
    · exact stops
    · split
      · exact stops
      · rename_i event rest agenda
        split
        · obtain ⟨count, within, same⟩ := step ((world.reach event rest).occur event.due)
          refine ⟨count + 1, Nat.succ_le_succ within, same.trans ?_⟩
          rw [List.replicate_succ, List.foldl_cons, perform, agenda]
        · exact stops

/-- A node leaves by moves: it says so, stops its loops, and closes its endpoint. -/
theorem exists_foldl_eq_leave (world : World) (station : Nat) :
    ∃ moves : List Move, moves.foldl perform world = world.leave station := by
  unfold World.leave
  split
  · exact ⟨[], rfl⟩
  · rename_i state present
    split
    · let told := (world.perform station (Participant.leave world.now)).2
      let stopped := told.stopLoops station
      let closed := stopped.network.close state.endpoint
      refine ⟨[.act station (Participant.leave world.now) (Participant.spares_leave world.now),
        .stopLoops station, .change closed stopped.script stopped.failing, .mark station false], ?_⟩
      rfl
    · exact ⟨[], rfl⟩

end Move

end Simulation

end ClusterMembership
