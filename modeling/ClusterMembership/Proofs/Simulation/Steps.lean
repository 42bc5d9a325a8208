import ClusterMembership.Proofs.Simulation.Docket

/-!
# What can happen to the checks of a station

A check begins, is answered, asks relays, and returns.  Each is told here by what it does to the
docket of the station, and a docket that is in order remains so, whatever happens.
-/

namespace ClusterMembership

namespace Simulation

namespace Docket

/-! ## Tidy dockets -/

/--
A check under way has one deadline, goes on at once when it was answered, and has numbers that were
drawn for it, that of the direct request first.
-/
structure Keeps (docket : Docket) (check : Nat) (found : Check) : Prop where
  drawn : check < docket.numbers
  relayed : ∀ number, found.relayed = some number → check < number ∧ number < docket.numbers
  deadline : ∃ time, docket.deadlines check = [time]
  unanswered : found.answered = false → docket.answers check = []
  answered : found.answered = true → ∃ time, docket.answers check = [time]

/-- An ack is awaited under the numbers of the checks under way, and under no others. -/
structure Tidy (docket : Docket) : Prop where
  awaited : ∀ (number check : Nat), docket.waiting[number]? = some check ↔
    ∃ found : Check, docket.checks[check]? = some found ∧
      (number = check ∨ found.relayed = some number)
  keeps : ∀ (check : Nat) (found : Check), docket.checks[check]? = some found →
    docket.Keeps check found
  unused : ∀ check, docket.numbers ≤ check →
    docket.deadlines check = [] ∧ docket.answers check = []

/-! ## Steps of a docket -/

/-- The waits of all checks but one end as before. -/
def SameOthers (check : Nat) (docket next : Docket) : Prop :=
  ∀ other, other ≠ check →
    next.deadlines other = docket.deadlines other ∧ next.answers other = docket.answers other

/-- What can happen to a docket at a time, when an ack under a number arrives or none does. -/
inductive Step (now : Instant) (ack : Option Nat) (docket next : Docket) : Prop
  /-- Nothing happens to a check. -/
  | spares
      (settings : next.settings = docket.settings)
      (waiting : next.waiting = docket.waiting)
      (checks : next.checks = docket.checks)
      (numbers : docket.numbers ≤ next.numbers)
      (results : next.results = docket.results)
      (running : ∀ check found, docket.checks[check]? = some found →
        next.deadlines check = docket.deadlines check ∧ next.answers check = docket.answers check)
      (unused : ∀ check, docket.deadlines check = [] ∧ docket.answers check = [] →
        next.deadlines check = [] ∧ next.answers check = [])
      (vain : ∀ number check found, ack = some number → docket.waiting[number]? = some check →
        docket.checks[check]? = some found → found.answered = true)
  /-- A check begins. -/
  | begins {check : Nat} {target : MemberName}
      (silent : ack = none)
      (fresh : docket.numbers ≤ check)
      (numbers : check < next.numbers)
      (settings : next.settings = docket.settings)
      (waiting : next.waiting = docket.waiting.insert check check)
      (checks : next.checks = docket.checks.insert check { target })
      (results : next.results = docket.results)
      (deadline : next.deadlines check = [now + docket.settings.pingTimeout])
      (unanswered : next.answers check = [])
      (others : docket.SameOthers check next)
  /-- A check gets its first ack. -/
  | notes {number check : Nat} {found : Check}
      (arrives : ack = some number)
      (awaited : docket.waiting[number]? = some check)
      (known : docket.checks[check]? = some found)
      (first : found.answered = false)
      (numbers : docket.numbers ≤ next.numbers)
      (settings : next.settings = docket.settings)
      (waiting : next.waiting = docket.waiting)
      (checks : next.checks = docket.checks.insert check { found with answered := true })
      (results : next.results = docket.results)
      (deadline : next.deadlines check = docket.deadlines check)
      (answered : next.answers check = [now])
      (others : docket.SameOthers check next)
  /-- The time for a direct ack is up, and a check asks relays. -/
  | asks {check relayed : Nat} {found : Check}
      (silent : ack = none)
      (known : docket.checks[check]? = some found)
      (unanswered : found.answered = false)
      (direct : found.relayed = none)
      (fresh : docket.numbers ≤ relayed)
      (numbers : relayed < next.numbers)
      (settings : next.settings = docket.settings)
      (waiting : next.waiting = docket.waiting.insert relayed check)
      (checks : next.checks = docket.checks.insert check { found with relayed := some relayed })
      (results : next.results = docket.results)
      (due : docket.deadlines check = [now])
      (deadline : next.deadlines check = [now + docket.settings.pingRequestTimeout])
      (answers : next.answers check = docket.answers check)
      (others : docket.SameOthers check next)
  /-- A check returns. -/
  | returns {check : Nat} {found : Check} {result : CheckResult}
      (silent : ack = none)
      (known : docket.checks[check]? = some found)
      (due : found.answered = false → docket.deadlines check = [now])
      (numbers : docket.numbers ≤ next.numbers)
      (settings : next.settings = docket.settings)
      (waiting : next.waiting =
        match found.relayed with
        | some relayed => (docket.waiting.erase check).erase relayed
        | none => docket.waiting.erase check)
      (checks : next.checks = docket.checks.erase check)
      (results : next.results = result :: docket.results)
      (named : result.check = check)
      (outcome : result.answered = found.answered)
      (others : docket.SameOthers check next)

theorem Keeps.of_same
    {docket next : Docket}
    {check : Nat}
    {found : Check}
    (keeps : docket.Keeps check found)
    (numbers : docket.numbers ≤ next.numbers)
    (same : next.deadlines check = docket.deadlines check ∧
      next.answers check = docket.answers check) :
    next.Keeps check found where
  drawn := Nat.lt_of_lt_of_le keeps.drawn numbers
  relayed number relayed :=
    ⟨(keeps.relayed number relayed).1, Nat.lt_of_lt_of_le (keeps.relayed number relayed).2 numbers⟩
  deadline := same.1 ▸ keeps.deadline
  unanswered := same.2 ▸ keeps.unanswered
  answered := same.2 ▸ keeps.answered

namespace Tidy

variable {docket next : Docket} {now : Instant} {ack : Option Nat} {check : Nat} {found : Check}

theorem unknown_of_fresh (tidy : docket.Tidy) (fresh : docket.numbers ≤ check) :
    docket.checks[check]? = none := by
  cases known : docket.checks[check]? with
  | none => rfl
  | some found => exact absurd (tidy.keeps check found known).drawn (Nat.not_lt.2 fresh)

/-- A step that changes one check keeps all, if it keeps this one. -/
theorem keeps_of_insert
    (tidy : docket.Tidy)
    (checks : next.checks = docket.checks.insert check found)
    (numbers : docket.numbers ≤ next.numbers)
    (others : docket.SameOthers check next)
    (self : next.Keeps check found)
    (other : Nat)
    (state : Check)
    (known : next.checks[other]? = some state) :
    next.Keeps other state := by
  rw [checks, Std.ExtHashMap.getElem?_insert] at known
  by_cases same : check = other
  · subst same
    simp only [beq_self_eq_true, if_true, Option.some.injEq] at known
    exact known ▸ self
  · rw [if_neg (by simpa using same)] at known
    exact (tidy.keeps other state known).of_same numbers (others other (Ne.symm same))

theorem unused_of_others
    (tidy : docket.Tidy)
    (numbers : docket.numbers ≤ next.numbers)
    (drawn : check < next.numbers)
    (others : docket.SameOthers check next)
    (other : Nat)
    (beyond : next.numbers ≤ other) :
    next.deadlines other = [] ∧ next.answers other = [] := by
  have same := others other (by omega)
  rw [same.1, same.2]
  exact tidy.unused other (Nat.le_trans numbers beyond)

/-- The numbers of one check. -/
theorem awaited_iff
    (tidy : docket.Tidy)
    (known : docket.checks[check]? = some found)
    (number : Nat) :
    docket.waiting[number]? = some check ↔ number = check ∨ found.relayed = some number := by
  rw [tidy.awaited, known]
  simp

/-- When a check returns, an ack is awaited no longer under its numbers, and under all others. -/
theorem waiting_returned
    (tidy : docket.Tidy)
    (known : docket.checks[check]? = some found)
    (waiting : next.waiting =
      match found.relayed with
      | some relayed => (docket.waiting.erase check).erase relayed
      | none => docket.waiting.erase check)
    (number : Nat) :
    next.waiting[number]? =
      if docket.waiting[number]? = some check then none else docket.waiting[number]? := by
  simp only [waiting, tidy.awaited_iff known]
  cases found.relayed with
  | none => simp [Std.ExtHashMap.getElem?_erase, @eq_comm _ number]
  | some relayed =>
    by_cases direct : check = number
    · simp [direct]
    · simp [Std.ExtHashMap.getElem?_erase, direct, Ne.symm direct]

theorem waiting_fresh (tidy : docket.Tidy) {number : Nat} (fresh : docket.numbers ≤ number) :
    docket.waiting[number]? = none := by
  cases held : docket.waiting[number]? with
  | none => rfl
  | some check =>
    obtain ⟨found, known, rfl | relayed⟩ := (tidy.awaited number check).1 held
    · exact absurd (tidy.keeps number found known).drawn (Nat.not_lt.2 fresh)
    · exact absurd ((tidy.keeps check found known).relayed number relayed).2 (Nat.not_lt.2 fresh)

/-- A check that draws one more number is awaited under this number besides. -/
theorem awaited_of_insert
    {drawn : Nat}
    (tidy : docket.Tidy)
    (fresh : docket.numbers ≤ drawn)
    (waiting : next.waiting = docket.waiting.insert drawn check)
    (checks : next.checks = docket.checks.insert check found)
    (own : ∀ number, (number = check ∨ found.relayed = some number) ↔
      number = drawn ∨ docket.waiting[number]? = some check)
    (number other : Nat) :
    next.waiting[number]? = some other ↔
      ∃ state : Check, next.checks[other]? = some state ∧
        (number = other ∨ state.relayed = some number) := by
  have unused := tidy.waiting_fresh fresh
  rw [waiting, checks, Std.ExtHashMap.getElem?_insert, Std.ExtHashMap.getElem?_insert]
  by_cases mine : check = other
  · subst mine
    simp only [beq_self_eq_true, if_true, Option.some.injEq, exists_eq_left', own]
    by_cases same : drawn = number
    · simp [same]
    · simp [same, Ne.symm same]
  · simp only [beq_iff_eq, if_neg mine, ← tidy.awaited]
    by_cases same : drawn = number
    · subst same
      simp [unused, mine]
    · simp [same]

/-- Whatever happens, a docket remains tidy. -/
theorem step (tidy : docket.Tidy) (step : docket.Step now ack next) : next.Tidy := by
  cases step with
  | spares settings waiting checks numbers results running unused vain =>
    refine ⟨?_, fun check found known => ?_, fun check beyond => ?_⟩
    · simpa only [waiting, checks] using tidy.awaited
    · rw [checks] at known
      exact (tidy.keeps check found known).of_same numbers (running check found known)
    · exact unused check (tidy.unused check (Nat.le_trans numbers beyond))
  | @begins check target silent fresh numbers settings waiting checks results deadline unanswered
      others =>
    have more : docket.numbers ≤ next.numbers := Nat.le_trans fresh (Nat.le_of_lt numbers)
    have unknown := tidy.unknown_of_fresh fresh
    have self : next.Keeps check { target } :=
      { drawn := numbers
        relayed := fun _ none => nomatch none
        deadline := ⟨_, deadline⟩
        unanswered := fun _ => unanswered
        answered := fun none => nomatch none }
    refine ⟨tidy.awaited_of_insert fresh waiting checks fun number => ?_,
      tidy.keeps_of_insert checks more others self, tidy.unused_of_others more numbers others⟩
    have idle : docket.waiting[number]? ≠ some check := by
      rw [Ne, tidy.awaited, unknown]
      simp
    simp [idle]
  | @notes number check found arrives awaited known first numbers settings waiting checks results
      deadline answered others =>
    have before := tidy.keeps check found known
    have self : next.Keeps check { found with answered := true } :=
      { drawn := Nat.lt_of_lt_of_le before.drawn numbers
        relayed := fun number relayed =>
          ⟨(before.relayed number relayed).1,
            Nat.lt_of_lt_of_le (before.relayed number relayed).2 numbers⟩
        deadline := deadline ▸ before.deadline
        unanswered := fun none => nomatch none
        answered := fun _ => ⟨_, answered⟩ }
    refine ⟨fun number other => ?_, tidy.keeps_of_insert checks numbers others self,
      tidy.unused_of_others numbers self.drawn others⟩
    rw [waiting, checks, tidy.awaited, Std.ExtHashMap.getElem?_insert]
    by_cases own : check = other
    · subst own
      simp [known]
    · simp [own]
  | @asks check relayed found silent known unanswered direct fresh numbers settings waiting checks
      results due deadline answers others =>
    have more : docket.numbers ≤ next.numbers := Nat.le_trans fresh (Nat.le_of_lt numbers)
    have before := tidy.keeps check found known
    have earlier : check < relayed := Nat.lt_of_lt_of_le before.drawn fresh
    have self : next.Keeps check { found with relayed := some relayed } :=
      { drawn := Nat.lt_of_lt_of_le before.drawn more
        relayed := fun number same => Option.some.inj same ▸ ⟨earlier, numbers⟩
        deadline := ⟨_, deadline⟩
        unanswered := answers ▸ before.unanswered
        answered := answers ▸ before.answered }
    refine ⟨tidy.awaited_of_insert fresh waiting checks fun number => ?_,
      tidy.keeps_of_insert checks more others self, tidy.unused_of_others more self.drawn others⟩
    simp [tidy.awaited_iff known, direct, or_comm, @eq_comm _ relayed]
  | @returns check found result silent known due numbers settings waiting checks results named
      outcome others =>
    have before := tidy.keeps check found known
    refine ⟨fun number other => ?_, fun other state present => ?_, fun other beyond => ?_⟩
    · rw [tidy.waiting_returned known waiting, checks, Std.ExtHashMap.getElem?_erase]
      by_cases same : check = other
      · subst same
        simp
      · simp only [beq_iff_eq, if_neg same, ← tidy.awaited]
        split
        · rename_i owned
          simp [owned, same]
        · rfl
    · rw [checks, Std.ExtHashMap.getElem?_erase] at present
      by_cases same : check = other
      · simp [same] at present
      · rw [if_neg (by simpa using same)] at present
        exact (tidy.keeps other state present).of_same numbers (others other (Ne.symm same))
    · exact tidy.unused_of_others numbers (Nat.lt_of_lt_of_le before.drawn numbers) others other
        beyond

end Tidy

/-! ## Request numbers that are used for something else -/

section Numbers

variable {docket next : Docket} {now : Instant} {ack : Option Nat} {numbers : Nat}

theorem Step.before
    (more : docket.numbers ≤ numbers)
    (step : Step now ack { docket with numbers } next) :
    docket.Step now ack next := by
  cases step with
  | spares settings waiting checks fewer results running unused vain =>
    exact .spares settings waiting checks (Nat.le_trans more fewer) results running unused vain
  | begins silent fresh drawn settings waiting checks results deadline unanswered others =>
    exact .begins silent (Nat.le_trans more fresh) drawn settings waiting checks results deadline
      unanswered others
  | notes arrives awaited known first fewer settings waiting checks results deadline answered
      others =>
    exact .notes arrives awaited known first (Nat.le_trans more fewer) settings waiting checks
      results deadline answered others
  | asks silent known unanswered direct fresh drawn settings waiting checks results due deadline
      answers others =>
    exact .asks silent known unanswered direct (Nat.le_trans more fresh) drawn settings waiting
      checks results due deadline answers others
  | returns silent known due fewer settings waiting checks results named outcome others =>
    exact .returns silent known due (Nat.le_trans more fewer) settings waiting checks results named
      outcome others

theorem Step.after
    (step : docket.Step now ack next)
    (more : next.numbers ≤ numbers) :
    docket.Step now ack { next with numbers } := by
  cases step with
  | spares settings waiting checks fewer results running unused vain =>
    exact .spares settings waiting checks (Nat.le_trans fewer more) results running unused vain
  | begins silent fresh drawn settings waiting checks results deadline unanswered others =>
    exact .begins silent fresh (Nat.lt_of_lt_of_le drawn more) settings waiting checks results
      deadline unanswered others
  | notes arrives awaited known first fewer settings waiting checks results deadline answered
      others =>
    exact .notes arrives awaited known first (Nat.le_trans fewer more) settings waiting checks
      results deadline answered others
  | asks silent known unanswered direct fresh drawn settings waiting checks results due deadline
      answers others =>
    exact .asks silent known unanswered direct fresh (Nat.lt_of_lt_of_le drawn more) settings
      waiting checks results due deadline answers others
  | returns silent known due fewer settings waiting checks results named outcome others =>
    exact .returns silent known due (Nat.le_trans fewer more) settings waiting checks results named
      outcome others

theorem Step.of_more (more : docket.numbers ≤ numbers) :
    docket.Step now none { docket with numbers } :=
  .spares rfl rfl rfl more rfl (fun _ _ _ => ⟨rfl, rfl⟩) (fun _ none => none)
    fun _ _ _ arrives => nomatch arrives

end Numbers

end Docket

end Simulation

end ClusterMembership
