import ClusterMembership.Proofs.Simulation.Moves

/-!
# The course of a check

A station is watched while its world makes moves, as many as one likes.  A check of the station
begins with one of them, waits for an ack of its ping, may ask relays and wait for an ack of theirs
too, and returns.  At any time in between, it has been answered exactly when an ack has arrived
under one of its numbers.
-/

namespace ClusterMembership

namespace Simulation

/-- A world after a number of moves. -/
def World.after (world : World) (moves : Nat → Move) : Nat → World
  | 0 => world
  | count + 1 => (moves count).perform (world.after moves count)

/-- A station of a world, watched while the world makes moves. -/
structure Watch where
  start : World
  station : Nat
  moves : Nat → Move
  state : Station
  present : start.stations[station]? = some state
  ordered : start.Ordered
  /-- No check is under way at first. -/
  idle : state.participant.checks = ∅ ∧ state.participant.waiting = ∅
  /-- No wait of a check is on the agenda at first. -/
  quiet : ∀ event ∈ start.agenda, event.due.concerns station = false
  /-- No check is given up. -/
  kept : ∀ count, (moves count).Spares (start.after moves count) station

namespace Watch

variable (watch : Watch)

/-- The world after a number of moves. -/
def world : Nat → World :=
  watch.start.after watch.moves

/-- The time after a number of moves. -/
def time (count : Nat) : Instant :=
  (watch.world count).now

/-- The docket of the station after a number of moves. -/
def docket (count : Nat) : Docket :=
  let state := (watch.world count).stations[watch.station]?.getD watch.state
  (watch.world count).docketWith watch.station state.participant state.results

/-- The number of the ack that a move hands to the station. -/
def ack? (move : Nat) : Option Nat :=
  (watch.moves move).ack? (watch.world move) watch.station

/-- The settings of the station. -/
def settings : ProtocolSettings :=
  watch.state.participant.settings

/-! ## Dockets -/

theorem docket_eq
    {count : Nat}
    {docket : Docket}
    (found : (watch.world count).docket? watch.station = some docket) :
    watch.docket count = docket := by
  obtain ⟨state, present, rfl⟩ := Option.map_eq_some_iff.1 found
  simp only [Watch.docket, present, Option.getD_some]

theorem holds_start : (watch.world 0).Holds watch.station (watch.docket 0) := by
  have found : (watch.world 0).docket? watch.station =
      some (watch.start.docketWith watch.station watch.state.participant watch.state.results) := by
    simp [World.docket?, Watch.world, World.after, watch.present]
  have none : ∀ kind : Due → Bool,
      (∀ due, due.concerns watch.station = false → kind due = false) →
        times kind watch.start.agenda = [] := by
    intro kind aside
    simp only [times, List.map_eq_nil_iff, List.filter_eq_nil_iff, Bool.not_eq_true]
    exact fun event among => aside _ (watch.quiet event among)
  rw [watch.docket_eq found]
  refine ⟨watch.ordered, found, fun number check => ?_, fun check found known => ?_,
    fun check _ => ⟨?_, ?_⟩⟩
  · simp [World.docketWith, watch.idle]
  · simp [World.docketWith, watch.idle] at known
  · exact none _ fun _ => Due.isDeadline_of_not_concerns
  · exact none _ fun _ => Due.isAnswer_of_not_concerns

theorem holds (count : Nat) : (watch.world count).Holds watch.station (watch.docket count) := by
  induction count with
  | zero => exact watch.holds_start
  | succ count step =>
    obtain ⟨later, ordered, next, found, happens⟩ :=
      Move.goes (watch.kept count) _ step
    have found : (watch.world (count + 1)).docket? watch.station = some next := found
    rw [watch.docket_eq found]
    exact ⟨ordered, found, step.tidy.step happens⟩

theorem step (move : Nat) :
    (watch.docket move).Step (watch.time (move + 1)) (watch.ack? move)
      (watch.docket (move + 1)) := by
  obtain ⟨later, ordered, next, found, happens⟩ :=
    Move.goes (watch.kept move) _ (watch.holds move)
  have found : (watch.world (move + 1)).docket? watch.station = some next := found
  rw [watch.docket_eq found]
  exact happens

theorem time_mono {first last : Nat} (order : first ≤ last) :
    watch.time first ≤ watch.time last := by
  induction order with
  | refl => exact Nat.le_refl _
  | step order step =>
    obtain ⟨later, -⟩ := Move.goes (watch.kept _) _ (watch.holds _)
    exact Nat.le_trans step later

/-- Nothing that is due is passed over. -/
theorem time_le_deadline
    {count check : Nat}
    {instant : Instant}
    (due : instant ∈ (watch.docket count).deadlines check) :
    watch.time count ≤ instant := by
  obtain ⟨state, -, same⟩ := Option.map_eq_some_iff.1 (watch.holds count).found
  rw [← same] at due
  obtain ⟨event, among, rfl⟩ := List.mem_map.1 due
  exact (watch.holds count).ordered.due event (List.mem_filter.1 among).1

/-! ## What happens to one check -/

/-- A check is on the docket. -/
def Runs (count check : Nat) : Prop :=
  ∃ found, (watch.docket count).checks[check]? = some found

/-- A check begins with a move. -/
def Begins (move check : Nat) : Prop :=
  ¬watch.Runs move check ∧ watch.Runs (move + 1) check

/-- A check asks relays with a move, under a number. -/
def Asks (move check relayed : Nat) : Prop :=
  ∃ found next, (watch.docket move).checks[check]? = some found ∧ found.relayed = none ∧
    (watch.docket (move + 1)).checks[check]? = some next ∧ next.relayed = some relayed

/-- A check returns an answer with a move. -/
def Returns (move check : Nat) (answer : Bool) : Prop :=
  watch.Runs move check ∧ ¬watch.Runs (move + 1) check ∧
    ∃ result, (watch.docket (move + 1)).results = result :: (watch.docket move).results ∧
      result.check = check ∧ result.answered = answer

/-- An ack under a number arrives after one move and before another. -/
def Acked (first last number : Nat) : Prop :=
  ∃ move, first < move ∧ move < last ∧ watch.ack? move = some number

/-- What a move comes to for one check. -/
inductive Fate (move check : Nat) : Prop
  | idle
      (before : (watch.docket move).checks[check]? = none)
      (after : (watch.docket (move + 1)).checks[check]? = none)
  | begins {target : MemberName}
      (before : (watch.docket move).checks[check]? = none)
      (after : (watch.docket (move + 1)).checks[check]? = some { target })
      (fresh : (watch.docket move).numbers ≤ check)
      (deadline : (watch.docket (move + 1)).deadlines check =
        [watch.time (move + 1) + (watch.docket move).settings.pingTimeout])
  | waits {found next : Check}
      (before : (watch.docket move).checks[check]? = some found)
      (after : (watch.docket (move + 1)).checks[check]? = some next)
      (deadline : (watch.docket (move + 1)).deadlines check = (watch.docket move).deadlines check)
      (relayed : next.relayed = found.relayed)
      (answered : next.answered = true ↔ found.answered = true ∨
        ∃ number, watch.ack? move = some number ∧
          (number = check ∨ found.relayed = some number))
  | asks {found : Check} {relayed : Nat}
      (before : (watch.docket move).checks[check]? = some found)
      (after : (watch.docket (move + 1)).checks[check]? =
        some { found with relayed := some relayed })
      (direct : found.relayed = none)
      (unanswered : found.answered = false)
      (silent : watch.ack? move = none)
      (due : (watch.docket move).deadlines check = [watch.time (move + 1)])
      (deadline : (watch.docket (move + 1)).deadlines check =
        [watch.time (move + 1) + (watch.docket move).settings.pingRequestTimeout])
  | returns {found : Check} {result : CheckResult}
      (before : (watch.docket move).checks[check]? = some found)
      (after : (watch.docket (move + 1)).checks[check]? = none)
      (silent : watch.ack? move = none)
      (due : found.answered = false →
        (watch.docket move).deadlines check = [watch.time (move + 1)])
      (results : (watch.docket (move + 1)).results = result :: (watch.docket move).results)
      (named : result.check = check)
      (outcome : result.answered = found.answered)
      (waiting : ∀ number : Nat, (watch.docket (move + 1)).waiting[number]? =
        if (watch.docket move).waiting[number]? = some check then none
          else (watch.docket move).waiting[number]?)

/-- A check that a move does not change waits, or stays away. -/
theorem fate_of_same
    {move check : Nat}
    (same : (watch.docket (move + 1)).checks[check]? = (watch.docket move).checks[check]?)
    (deadline : ∀ found, (watch.docket move).checks[check]? = some found →
      (watch.docket (move + 1)).deadlines check = (watch.docket move).deadlines check)
    (vain : ∀ number found, watch.ack? move = some number →
      (watch.docket move).waiting[number]? = some check →
      (watch.docket move).checks[check]? = some found → found.answered = true) :
    watch.Fate move check := by
  cases known : (watch.docket move).checks[check]? with
  | none => exact .idle known (same.trans known)
  | some found =>
    refine .waits known (same.trans known) (deadline found known) rfl ⟨Or.inl, ?_⟩
    rintro (before | ⟨number, arrives, own⟩)
    · exact before
    · exact vain number found arrives
        (((watch.holds move).tidy.awaited_iff known number).2 own) known

theorem fate (move check : Nat) : watch.Fate move check := by
  have tidy := (watch.holds move).tidy
  cases watch.step move with
  | spares settings waiting checks numbers results running unused vain =>
    refine watch.fate_of_same (by rw [checks]) (fun found known => (running check found known).1) ?_
    exact fun number found arrives awaited known => vain number check found arrives awaited known
  | @begins begun target silent fresh numbers settings waiting checks results deadline unanswered
      others =>
    by_cases same : begun = check
    · subst same
      have after : (watch.docket (move + 1)).checks[begun]? = some { target } := by
        rw [checks, Std.ExtHashMap.getElem?_insert_self]
      exact .begins (tidy.unknown_of_fresh fresh) after fresh deadline
    · refine watch.fate_of_same ?_ (fun found known => (others check (Ne.symm same)).1) ?_
      · rw [checks, Std.ExtHashMap.getElem?_insert, if_neg (by simpa using same)]
      · exact fun _ _ arrives => nomatch silent.symm.trans arrives
  | @notes number noted found arrives awaited known first numbers settings waiting checks results
      deadline answered others =>
    by_cases same : noted = check
    · subst same
      have after : (watch.docket (move + 1)).checks[noted]? =
          some { found with answered := true } := by
        rw [checks, Std.ExtHashMap.getElem?_insert_self]
      have own := (tidy.awaited_iff known number).1 awaited
      exact .waits known after deadline rfl ⟨fun _ => Or.inr ⟨number, arrives, own⟩, fun _ => rfl⟩
    · refine watch.fate_of_same ?_ (fun found known => (others check (Ne.symm same)).1) ?_
      · rw [checks, Std.ExtHashMap.getElem?_insert, if_neg (by simpa using same)]
      · intro other _ alsoArrives alsoAwaited
        rw [← Option.some.inj (arrives.symm.trans alsoArrives), awaited] at alsoAwaited
        exact absurd (Option.some.inj alsoAwaited) same
  | @asks asking relayed found silent known unanswered direct fresh numbers settings waiting checks
      results due deadline answers others =>
    by_cases same : asking = check
    · subst same
      have after : (watch.docket (move + 1)).checks[asking]? =
          some { found with relayed := some relayed } := by
        rw [checks, Std.ExtHashMap.getElem?_insert_self]
      exact .asks known after direct unanswered silent due deadline
    · refine watch.fate_of_same ?_ (fun found known => (others check (Ne.symm same)).1) ?_
      · rw [checks, Std.ExtHashMap.getElem?_insert, if_neg (by simpa using same)]
      · exact fun _ _ arrives => nomatch silent.symm.trans arrives
  | @returns returned found result silent known due numbers settings waiting checks results named
      outcome others =>
    by_cases same : returned = check
    · subst same
      have after : (watch.docket (move + 1)).checks[returned]? = none := by
        rw [checks, Std.ExtHashMap.getElem?_erase_self]
      exact .returns known after silent due results named outcome
        (tidy.waiting_returned known waiting)
    · refine watch.fate_of_same ?_ (fun found known => (others check (Ne.symm same)).1) ?_
      · rw [checks, Std.ExtHashMap.getElem?_erase, if_neg (by simpa using same)]
      · exact fun _ _ arrives => nomatch silent.symm.trans arrives

/-! ## The course of a check -/

theorem settings_docket (count : Nat) : (watch.docket count).settings = watch.settings := by
  induction count with
  | zero =>
    simp [docket, Watch.world, World.after, watch.present, World.docketWith, settings]
  | succ count step =>
    cases watch.step count <;> simp_all

theorem numbers_mono {first last : Nat} (order : first ≤ last) :
    (watch.docket first).numbers ≤ (watch.docket last).numbers := by
  induction order with
  | refl => exact Nat.le_refl _
  | @step last order step =>
    refine Nat.le_trans step ?_
    show _ ≤ (watch.docket (last + 1)).numbers
    cases watch.step last <;> omega

variable {watch : Watch} {begun check : Nat}

theorem acked_succ {first last number : Nat} (order : first < last) :
    watch.Acked first (last + 1) number ↔
      watch.Acked first last number ∨ watch.ack? last = some number := by
  constructor
  · rintro ⟨move, after, before, arrives⟩
    rcases Nat.lt_or_eq_of_le (Nat.le_of_lt_succ before) with earlier | rfl
    · exact Or.inl ⟨move, after, earlier, arrives⟩
    · exact Or.inr arrives
  · rintro (⟨move, after, before, arrives⟩ | arrives)
    · exact ⟨move, after, Nat.lt_succ_of_lt before, arrives⟩
    · exact ⟨last, order, Nat.lt_succ_self last, arrives⟩

theorem not_acked_next {first number : Nat} : ¬watch.Acked first (first + 1) number := by
  rintro ⟨move, after, before, -⟩
  omega

theorem not_runs {count : Nat} (unknown : (watch.docket count).checks[check]? = none) :
    ¬watch.Runs count check := by
  rintro ⟨found, known⟩
  exact nomatch unknown.symm.trans known

/-- A check that is begun gets a number that no check had before. -/
theorem Begins.fresh (begins : watch.Begins begun check) :
    (watch.docket begun).numbers ≤ check := by
  obtain ⟨idle, runs⟩ := begins
  cases watch.fate begun check with
  | idle before after => exact absurd runs (not_runs after)
  | begins before after fresh deadline => exact fresh
  | waits before => exact absurd ⟨_, before⟩ idle
  | asks before => exact absurd ⟨_, before⟩ idle
  | returns before => exact absurd ⟨_, before⟩ idle

theorem Begins.before_of_runs
    (begins : watch.Begins begun check)
    {count : Nat}
    (runs : watch.Runs count check) :
    begun < count := by
  obtain ⟨found, known⟩ := runs
  refine Nat.lt_of_not_le fun earlier => ?_
  have drawn := ((watch.holds count).tidy.keeps check found known).drawn
  exact Nat.not_le.2 drawn (Nat.le_trans (watch.numbers_mono earlier) begins.fresh)

/-- A check that is under way has been so since it began. -/
theorem Begins.runs_of_le
    (begins : watch.Begins begun check)
    {first last : Nat}
    (after : begun < first)
    (order : first ≤ last)
    (runs : watch.Runs last check) :
    watch.Runs first check := by
  induction order with
  | refl => exact runs
  | @step last order step =>
    refine step ?_
    obtain ⟨found, known⟩ := begins.2
    have drawn : check < (watch.docket last).numbers :=
      Nat.lt_of_lt_of_le ((watch.holds _).tidy.keeps check found known).drawn
        (watch.numbers_mono (Nat.le_trans after order))
    cases watch.fate last check with
    | idle before after => exact absurd runs (not_runs after)
    | begins before after fresh deadline => exact absurd fresh (Nat.not_le.2 drawn)
    | waits before => exact ⟨_, before⟩
    | asks before => exact ⟨_, before⟩
    | returns before => exact ⟨_, before⟩

/-- Where a check stands that has begun with a move, as long as it is under way. -/
inductive Phase (watch : Watch) (begun check count : Nat) : Prop
  /-- It waits for an ack of its ping. -/
  | direct {found : Check}
      (known : (watch.docket count).checks[check]? = some found)
      (direct : found.relayed = none)
      (deadline : (watch.docket count).deadlines check =
        [watch.time (begun + 1) + watch.settings.pingTimeout])
      (answered : found.answered = true ↔ watch.Acked begun count check)
      (alone : ∀ asked relayed, asked < count → ¬watch.Asks asked check relayed)
  /-- It has asked relays. -/
  | relayed {found : Check} {asked relayed : Nat}
      (known : (watch.docket count).checks[check]? = some found)
      (drew : found.relayed = some relayed)
      (before : asked < count)
      (asks : watch.Asks asked check relayed)
      (late : watch.time (asked + 1) = watch.time (begun + 1) + watch.settings.pingTimeout)
      (deadline : (watch.docket count).deadlines check =
        [watch.time (asked + 1) + watch.settings.pingRequestTimeout])
      (answered : found.answered = true ↔
        watch.Acked begun count check ∨ watch.Acked asked count relayed)
      (once : ∀ other number, other < count → watch.Asks other check number →
        other = asked ∧ number = relayed)

/-- A check that is asked for begins with the next number. -/
theorem begins_of_check
    {move : Nat}
    {target : MemberName}
    (asked : watch.moves move = .check watch.station target) :
    watch.Begins move (watch.docket move).numbers := by
  have holds := watch.holds move
  refine ⟨not_runs (holds.tidy.unknown_of_fresh (Nat.le_refl _)), { target }, ?_⟩
  obtain ⟨next, found, checks⟩ := World.checks_beginCheck holds.found target
  have performed : watch.world (move + 1) =
      ((watch.world move).beginCheck watch.station target).2 := by
    show (watch.moves move).perform (watch.world move) = _
    rw [asked, Move.perform]
  rw [← performed] at found
  rw [watch.docket_eq found, checks, Std.ExtHashMap.getElem?_insert_self]

/-- A check that is under way has begun. -/
theorem Runs.exists_begins {count : Nat} (runs : watch.Runs count check) :
    ∃ begun, watch.Begins begun check := by
  induction count with
  | zero =>
    obtain ⟨found, known⟩ := runs
    simp [docket, Watch.world, World.after, watch.present, World.docketWith, watch.idle] at known
  | succ count step =>
    by_cases earlier : watch.Runs count check
    · exact step earlier
    · exact ⟨count, earlier, runs⟩

theorem Asks.runs {move relayed : Nat} (asks : watch.Asks move check relayed) :
    watch.Runs move check ∧ watch.Runs (move + 1) check := by
  obtain ⟨found, next, before, -, after, -⟩ := asks
  exact ⟨⟨found, before⟩, ⟨next, after⟩⟩

/-- A check that waits does not ask relays. -/
theorem not_asks_of_same
    {move relayed : Nat}
    {found next : Check}
    (before : (watch.docket move).checks[check]? = some found)
    (after : (watch.docket (move + 1)).checks[check]? = some next)
    (same : next.relayed = found.relayed) :
    ¬watch.Asks move check relayed := by
  rintro ⟨first, last, knownFirst, none, knownLast, drew⟩
  obtain rfl : found = first := Option.some.inj (before.symm.trans knownFirst)
  obtain rfl : next = last := Option.some.inj (after.symm.trans knownLast)
  rw [same, none] at drew
  cases drew

/-- A check that waits stays in its phase, and is answered by an ack that arrives. -/
theorem Phase.waits
    {count : Nat}
    {found next : Check}
    (phase : watch.Phase begun check count)
    (started : begun < count)
    (before : (watch.docket count).checks[check]? = some found)
    (after : (watch.docket (count + 1)).checks[check]? = some next)
    (deadline : (watch.docket (count + 1)).deadlines check = (watch.docket count).deadlines check)
    (same : next.relayed = found.relayed)
    (answered : next.answered = true ↔ found.answered = true ∨
      ∃ number, watch.ack? count = some number ∧
        (number = check ∨ found.relayed = some number)) :
    watch.Phase begun check (count + 1) := by
  have silent : ∀ relayed, ¬watch.Asks count check relayed := fun _ =>
    not_asks_of_same before after same
  cases phase with
  | direct known direct limit heard alone =>
    obtain rfl := Option.some.inj (before.symm.trans known)
    refine .direct after (same.trans direct) (deadline.trans limit) ?_ ?_
    · rw [answered, heard, acked_succ started, direct]
      simp
    · intro asked relayed within asks
      rcases Nat.lt_or_eq_of_le (Nat.le_of_lt_succ within) with within | rfl
      · exact alone asked relayed within asks
      · exact silent relayed asks
  | @relayed found _ relayed known drew asked asks late limit heard once =>
    obtain rfl := Option.some.inj (before.symm.trans known)
    refine .relayed after (same.trans drew) (Nat.lt_succ_of_lt asked) asks late
      (deadline.trans limit) ?_ ?_
    · have now : (∃ number, watch.ack? count = some number ∧
          (number = check ∨ some relayed = some number)) ↔
            watch.ack? count = some check ∨ watch.ack? count = some relayed := by
        simp [and_or_left, exists_or]
      rw [answered, heard, acked_succ started, acked_succ asked, drew, now]
      exact or_or_or_comm
    · intro other number within again
      rcases Nat.lt_or_eq_of_le (Nat.le_of_lt_succ within) with within | rfl
      · exact once other number within again
      · exact absurd again (silent number)

/-- A check that asks relays does so in its first phase, when the time of this is up. -/
theorem Phase.asks
    {count relayed : Nat}
    {found : Check}
    (phase : watch.Phase begun check count)
    (started : begun < count)
    (before : (watch.docket count).checks[check]? = some found)
    (after : (watch.docket (count + 1)).checks[check]? =
      some { found with relayed := some relayed })
    (direct : found.relayed = none)
    (unanswered : found.answered = false)
    (silent : watch.ack? count = none)
    (due : (watch.docket count).deadlines check = [watch.time (count + 1)])
    (deadline : (watch.docket (count + 1)).deadlines check =
      [watch.time (count + 1) + watch.settings.pingRequestTimeout]) :
    watch.Phase begun check (count + 1) := by
  cases phase with
  | direct known _ limit heard alone =>
    obtain rfl := Option.some.inj (before.symm.trans known)
    have asks : watch.Asks count check relayed := ⟨found, _, before, direct, after, rfl⟩
    have late := List.singleton_inj.1 (due.symm.trans limit)
    refine .relayed after rfl (Nat.lt_succ_self count) asks late deadline ?_ ?_
    · have nothing : ¬watch.Acked begun count check := by
        rw [← heard, unanswered]
        exact Bool.false_ne_true
      simp [acked_succ started, unanswered, nothing, silent, not_acked_next]
    · intro other number within again
      rcases Nat.lt_or_eq_of_le (Nat.le_of_lt_succ within) with within | rfl
      · exact absurd again (alone other number within)
      · obtain ⟨_, last, _, _, knownLast, drew⟩ := again
        rw [← Option.some.inj (after.symm.trans knownLast)] at drew
        exact ⟨rfl, (Option.some.inj drew).symm⟩
  | relayed known drew =>
    obtain rfl := Option.some.inj (before.symm.trans known)
    exact nomatch direct.symm.trans drew

/-- A check that is under way is in one of its phases, whatever has happened since it began. -/
theorem Begins.phase
    (begins : watch.Begins begun check)
    {count : Nat}
    (started : begun < count)
    (runs : watch.Runs count check) :
    watch.Phase begun check count := by
  induction started with
  | refl =>
    cases watch.fate begun check with
    | idle before after => exact absurd runs (not_runs after)
    | begins before after fresh deadline =>
      rw [watch.settings_docket] at deadline
      refine .direct after rfl deadline ⟨nofun, fun acked => absurd acked not_acked_next⟩ ?_
      intro asked relayed before asks
      exact Nat.not_lt.2 (begins.before_of_runs asks.runs.1) before
    | waits before => exact absurd ⟨_, before⟩ begins.1
    | asks before => exact absurd ⟨_, before⟩ begins.1
    | returns before => exact absurd ⟨_, before⟩ begins.1
  | @step count started step =>
    have earlier : watch.Runs count check := begins.runs_of_le started (Nat.le_succ count) runs
    have phase := step earlier
    cases watch.fate count check with
    | idle before => exact absurd earlier (not_runs before)
    | begins before => exact absurd earlier (not_runs before)
    | waits before after deadline same answered =>
      exact phase.waits started before after deadline same answered
    | asks before after direct unanswered silent due deadline =>
      rw [watch.settings_docket] at deadline
      exact phase.asks started before after direct unanswered silent due deadline
    | returns before gone => exact absurd runs (not_runs gone)

end Watch

end Simulation

end ClusterMembership
