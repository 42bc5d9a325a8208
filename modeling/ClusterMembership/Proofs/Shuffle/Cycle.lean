import ClusterMembership.Proofs.Shuffle.Proper
import Mathlib.Data.Nat.Init
import Mathlib.Tactic.ByContra

/-!
# Cycles are exhaustive and free of repetition

Whoever uses a shuffle adds, discards and draws in any order.  A cycle goes from one reshuffle to
the next.  At every time of a run the deck has exactly the candidates that entered the cycle and
were not drawn since, `Run.mem_deck_iff`.  The step behind it, `Run.mem_deck_succ`, says what any
one operation does to the deck: an item gets in by a reshuffle, or by being added while others are
still to come, and out by being drawn or discarded.

The rest follows from where the deck is at the two ends of a stretch of time.  An item that got in
and stayed a candidate is still there at the next reshuffle unless it was drawn; but a reshuffle
finds the deck empty.  And an item that was drawn is not in the deck until it gets in again.
-/

namespace ClusterMembership

namespace Shuffle

variable
    {α : Type}
    [DecidableEq α]
    [Hashable α]

/-- What is done with a shuffle. -/
inductive Operation (α : Type) where
  | add (item : α)
  | discard (item : α)
  | choice
deriving DecidableEq

/-- What an operation leaves; one that fails leaves everything. -/
def perform (shuffle : Shuffle α) : Operation α → Shuffle α
  | .add item => (shuffle.add item).2
  | .discard item => shuffle.without item
  | .choice => shuffle.choice.2

theorem Proper.perform
    {shuffle : Shuffle α}
    (proper : shuffle.Proper)
    (operation : Operation α) :
    (shuffle.perform operation).Proper := by
  cases operation with
  | add item => exact proper.add item
  | discard item => exact proper.without item
  | choice => exact proper.choice

/-- The operations on a shuffle that was empty at first, and the chance it draws on. -/
structure Run (α : Type) where
  tape : Tape
  operations : List (Operation α)

namespace Run

variable
    (run : Run α)
    {item : α}
    {time start stop : Nat}

/-- The shuffle before the operation of a time, or the last one if there is no such operation. -/
def shuffleAt (time : Nat) : Shuffle α :=
  (run.operations.take time).foldl perform (empty run.tape)

/-- At this time the item becomes a candidate. -/
def Adds (time : Nat) (item : α) : Prop :=
  run.operations[time]? = some (.add item) ∧ item ∉ (run.shuffleAt time).toList

/-- At this time the item stops being a candidate. -/
def Discards (time : Nat) (item : α) : Prop :=
  run.operations[time]? = some (.discard item) ∧ item ∈ (run.shuffleAt time).toList

/-- At this time the item is drawn. -/
def Gives (time : Nat) (item : α) : Prop :=
  run.operations[time]? = some .choice ∧ (run.shuffleAt time).choice.1 = some item

/-- At this time a draw finds the deck spent and starts a cycle. -/
def Reshuffles (time : Nat) : Prop :=
  run.operations[time]? = some .choice ∧ (run.shuffleAt time).deck = []

/-- At this time the item gets into the deck: with all others, or alone while others wait. -/
def Enters (time : Nat) (item : α) : Prop :=
  run.Reshuffles time ∨ run.Adds time item ∧ (run.shuffleAt time).deck ≠ []

/-- The item is a candidate from one time to another, the last included. -/
def Stays (item : α) (start stop : Nat) : Prop :=
  ∀ time, start ≤ time → time ≤ stop → item ∈ (run.shuffleAt time).toList

/-- Strictly between two times no cycle starts. -/
def Unbroken (start stop : Nat) : Prop :=
  ∀ time, start < time → time < stop → ¬run.Reshuffles time

/--
The candidates that wait in the current cycle: the later of the last reshuffle and the item's own
latest addition was not an addition to a spent deck, and no draw since then gave the item.
-/
def Waits (time : Nat) (item : α) : Prop :=
  item ∈ (run.shuffleAt time).toList ∧
    ∃ since < time, run.Enters since item ∧
      (∀ later, since < later → later < time →
        ¬run.Reshuffles later ∧ ¬run.Adds later item) ∧
      ∀ draw, since ≤ draw → draw < time → ¬run.Gives draw item

/-! ## One operation -/

theorem shuffleAt_succ (time : Nat) :
    run.shuffleAt (time + 1) =
      run.operations[time]?.toList.foldl perform (run.shuffleAt time) := by
  rw [shuffleAt, List.take_add_one, List.foldl_append]
  rfl

theorem proper (time : Nat) : (run.shuffleAt time).Proper := by
  induction time with
  | zero => exact proper_empty run.tape
  | succ time step =>
    rw [shuffleAt_succ]
    cases run.operations[time]? with
    | none => exact step
    | some operation => exact step.perform operation

/-- What an operation does to the candidates. -/
theorem mem_toList_succ :
    item ∈ (run.shuffleAt (time + 1)).toList ↔
      (item ∈ (run.shuffleAt time).toList ∨ run.Adds time item) ∧ ¬run.Discards time item := by
  have proper := run.proper time
  rw [shuffleAt_succ, Adds, Discards]
  rcases run.operations[time]? with _ | ⟨added⟩ | ⟨gone⟩ | _
  · simp
  · simp only [Option.toList_some, List.foldl_cons, List.foldl_nil, perform,
      proper.mem_toList_add]
    grind
  · simp only [Option.toList_some, List.foldl_cons, List.foldl_nil, perform,
      proper.mem_toList_without]
    grind
  · simp [perform, toList_choice]

/-- What an operation does to the deck. -/
theorem mem_deck_succ :
    item ∈ (run.shuffleAt (time + 1)).deck ↔
      (item ∈ (run.shuffleAt time).deck ∨
        run.Enters time item ∧ item ∈ (run.shuffleAt (time + 1)).toList) ∧
      ¬run.Gives time item ∧ ¬run.Discards time item := by
  have proper := run.proper time
  rw [mem_toList_succ, shuffleAt_succ, Enters, Reshuffles, Adds, Gives, Discards]
  rcases run.operations[time]? with _ | ⟨added⟩ | ⟨gone⟩ | _
  · simp
  · by_cases known : added ∈ (run.shuffleAt time).toList
    · simp only [Option.toList_some, List.foldl_cons, List.foldl_nil, perform,
        proper.add_known known]
      grind
    · simp only [Option.toList_some, List.foldl_cons, List.foldl_nil, perform,
        proper.mem_deck_add known]
      grind
  · have held := proper.deck_subset item
    simp only [Option.toList_some, List.foldl_cons, List.foldl_nil, perform,
      proper.mem_deck_without]
    grind
  · simp only [Option.toList_some, List.foldl_cons, List.foldl_nil, perform,
      proper.mem_deck_choice, MayCome]
    grind

variable {run}

theorem Gives.mayCome (gives : run.Gives time item) : (run.shuffleAt time).MayCome item :=
  mayCome_of_choice gives.2

theorem Gives.mem_toList (gives : run.Gives time item) : item ∈ (run.shuffleAt time).toList :=
  gives.mayCome.elim ((run.proper time).deck_subset item) And.right

theorem Adds.not_mem (adds : run.Adds time item) : item ∉ (run.shuffleAt time).toList :=
  adds.2

theorem Reshuffles.not_mem (reshuffles : run.Reshuffles time) :
    item ∉ (run.shuffleAt time).deck := by
  rw [reshuffles.2]
  exact List.not_mem_nil

/-! ## The deck at any time -/

/-- Who gets in and is not drawn at once waits. -/
theorem Enters.waits
    (enters : run.Enters time item)
    (held : item ∈ (run.shuffleAt (time + 1)).toList)
    (undrawn : ¬run.Gives time item) :
    run.Waits (time + 1) item := by
  refine ⟨held, time, Nat.lt_succ_self time, enters, fun later after within => ?_,
    fun draw after within => ?_⟩
  · exact absurd (Nat.le_of_lt_succ within) (Nat.not_le_of_lt after)
  · rwa [Nat.le_antisymm (Nat.le_of_lt_succ within) after]

/-- Who waits goes on to wait if no cycle starts and it is neither drawn nor discarded. -/
theorem Waits.later
    (waits : run.Waits time item)
    (unbroken : ¬run.Reshuffles time)
    (undrawn : ¬run.Gives time item)
    (kept : ¬run.Discards time item) :
    run.Waits (time + 1) item := by
  rcases waits with ⟨held, since, before, enters, latest, undrawnBefore⟩
  refine ⟨run.mem_toList_succ.2 ⟨.inl held, kept⟩, since, Nat.lt_succ_of_lt before, enters,
    fun later after within => ?_, fun draw after within => ?_⟩
  · rcases Nat.lt_succ_iff_lt_or_eq.1 within with earlier | rfl
    · exact latest later after earlier
    · exact ⟨unbroken, fun adds => adds.not_mem held⟩
  · rcases Nat.lt_succ_iff_lt_or_eq.1 within with earlier | rfl
    · exact undrawnBefore draw after earlier
    · exact undrawn

/-- Who waits has just got in, or was waiting already. -/
theorem Waits.enters_or_waits (waits : run.Waits (time + 1) item) :
    run.Enters time item ∨ run.Waits time item := by
  rcases waits with ⟨held, since, within, enters, latest, undrawn⟩
  rcases Nat.lt_succ_iff_lt_or_eq.1 within with before | rfl
  · have stood : item ∈ (run.shuffleAt time).toList :=
      (run.mem_toList_succ.1 held).1.resolve_right (latest time before (Nat.lt_succ_self time)).2
    refine .inr ⟨stood, since, before, enters, fun later after earlier => ?_,
      fun draw after earlier => ?_⟩
    · exact latest later after (Nat.lt_succ_of_lt earlier)
    · exact undrawn draw after (Nat.lt_succ_of_lt earlier)
  · exact .inl enters

theorem Waits.not_gives (waits : run.Waits (time + 1) item) : ¬run.Gives time item := by
  rcases waits with ⟨-, since, within, -, -, undrawn⟩
  exact undrawn time (Nat.le_of_lt_succ within) (Nat.lt_succ_self time)

/-- The deck has exactly the candidates that wait in the cycle. -/
theorem mem_deck_iff : item ∈ (run.shuffleAt time).deck ↔ run.Waits time item := by
  induction time with
  | zero =>
    refine iff_of_false List.not_mem_nil ?_
    rintro ⟨-, since, before, -⟩
    exact Nat.not_lt_zero since before
  | succ time step =>
    rw [mem_deck_succ]
    constructor
    · rintro ⟨stood | ⟨enters, held⟩, undrawn, kept⟩
      · have unbroken : ¬run.Reshuffles time := fun reshuffles => reshuffles.not_mem stood
        exact (step.1 stood).later unbroken undrawn kept
      · exact enters.waits held undrawn
    · intro waits
      refine ⟨?_, waits.not_gives, (run.mem_toList_succ.1 waits.1).2⟩
      rcases waits.enters_or_waits with enters | before
      · exact .inr ⟨enters, waits.1⟩
      · exact .inl (step.2 before)

/-! ## Stretches of time -/

/-- What every step keeps holds from one time to another. -/
@[elab_as_elim]
theorem carried
    {motive : Nat → Prop}
    (ordered : start ≤ stop)
    (holds : motive start)
    (kept : ∀ time, start ≤ time → time < stop → motive time → motive (time + 1)) :
    motive stop := by
  induction stop, ordered using Nat.le_induction with
  | base => exact holds
  | succ stop ordered step =>
    refine kept stop ordered (Nat.lt_succ_self stop) (step fun time after before => ?_)
    exact kept time after (Nat.lt_succ_of_lt before)

theorem Stays.not_adds
    (stays : run.Stays item start stop)
    (after : start ≤ time)
    (before : time ≤ stop) :
    ¬run.Adds time item :=
  fun adds => adds.not_mem (stays time after before)

theorem Stays.not_discards
    (stays : run.Stays item start stop)
    (after : start ≤ time + 1)
    (before : time < stop) :
    ¬run.Discards time item :=
  (run.mem_toList_succ.1 (stays (time + 1) after before)).2

/-- A candidate that is in the deck and stays one is in the deck until it is drawn. -/
theorem Stays.mem_deck
    (stays : run.Stays item start stop)
    (stood : item ∈ (run.shuffleAt start).deck)
    (ordered : start ≤ stop)
    (undrawn : ∀ time, start ≤ time → time < stop → ¬run.Gives time item) :
    item ∈ (run.shuffleAt stop).deck := by
  refine carried ordered stood fun time after before standing => ?_
  rw [mem_deck_succ]
  exact ⟨.inl standing, undrawn time after before,
    stays.not_discards (Nat.le_succ_of_le after) before⟩

/-- An item that is not in the deck is not until it gets in. -/
theorem not_mem_deck_of_not_enters
    (absent : item ∉ (run.shuffleAt start).deck)
    (ordered : start ≤ stop)
    (outside : ∀ time, start ≤ time → time < stop → ¬run.Enters time item) :
    item ∉ (run.shuffleAt stop).deck := by
  refine carried ordered absent fun time after before missing => ?_
  rw [mem_deck_succ]
  rintro ⟨stood | ⟨enters, -⟩, -⟩
  · exact missing stood
  · exact outside time after before enters

/-- An item that is no candidate is none until it is added. -/
theorem not_mem_toList_of_not_adds
    (absent : item ∉ (run.shuffleAt start).toList)
    (ordered : start ≤ stop)
    (outside : ∀ time, start ≤ time → time < stop → ¬run.Adds time item) :
    item ∉ (run.shuffleAt stop).toList := by
  refine carried ordered absent fun time after before missing => ?_
  rw [mem_toList_succ]
  rintro ⟨held | adds, -⟩
  · exact missing held
  · exact outside time after before adds

/-- A candidate stays one until it is discarded. -/
theorem mem_toList_of_not_discards
    (held : item ∈ (run.shuffleAt start).toList)
    (ordered : start ≤ stop)
    (kept : ∀ time, start ≤ time → time < stop → ¬run.Discards time item) :
    item ∈ (run.shuffleAt stop).toList := by
  refine carried ordered held fun time after before standing => ?_
  exact run.mem_toList_succ.2 ⟨.inl standing, kept time after before⟩

/-- Between two draws of one item a cycle starts, or the item is added once more. -/
theorem exists_between_gives
    {earlier later : Nat}
    (first : run.Gives earlier item)
    (second : run.Gives later item)
    (ordered : earlier < later) :
    ∃ time, earlier < time ∧ time ≤ later ∧ (run.Reshuffles time ∨ run.Adds time item) := by
  by_contra nothing
  push Not at nothing
  have gone : item ∉ (run.shuffleAt (earlier + 1)).deck := fun stood =>
    (run.mem_deck_succ.1 stood).2.1 first
  have absent : item ∉ (run.shuffleAt later).deck := by
    refine not_mem_deck_of_not_enters gone ordered fun time after before enters => ?_
    rcases nothing time after (Nat.le_of_lt before) with ⟨unbroken, fresh⟩
    exact enters.elim unbroken fun adds => fresh adds.1
  rcases second.mayCome with stood | ⟨spent, -⟩
  · exact absent stood
  · exact (nothing later ordered (Nat.le_refl later)).1 ⟨second.1, spent⟩

/-- An item that gets into a cycle and stays a candidate is drawn before the next one starts. -/
theorem Enters.exists_gives
    (enters : run.Enters start item)
    (ordered : start < stop)
    (stays : run.Stays item (start + 1) stop)
    (ends : run.Reshuffles stop) :
    ∃ time, (start ≤ time ∧ time < stop) ∧ run.Gives time item := by
  by_contra undrawn
  push Not at undrawn
  have held := stays (start + 1) (Nat.le_refl _) ordered
  have stood : item ∈ (run.shuffleAt (start + 1)).deck := by
    rw [mem_deck_succ]
    exact ⟨.inr ⟨enters, held⟩, undrawn start ⟨Nat.le_refl start, ordered⟩,
      stays.not_discards (Nat.le_refl _) ordered⟩
  refine ends.not_mem (stays.mem_deck stood ordered fun time after before => ?_)
  exact undrawn time ⟨Nat.le_of_succ_le after, before⟩

/-- In a cycle that an item got into, and where it stays a candidate, it is drawn just once. -/
theorem Enters.existsUnique_gives
    (enters : run.Enters start item)
    (ordered : start < stop)
    (unbroken : run.Unbroken start stop)
    (stays : run.Stays item (start + 1) stop)
    (ends : run.Reshuffles stop) :
    ∃! time, (start ≤ time ∧ time < stop) ∧ run.Gives time item := by
  have once {earlier later : Nat}
      (after : start ≤ earlier)
      (before : later < stop)
      (first : run.Gives earlier item)
      (second : run.Gives later item) : ¬earlier < later := by
    intro apart
    rcases exists_between_gives first second apart with ⟨time, behind, ahead, reshuffles | adds⟩
    · exact unbroken time (by omega) (by omega) reshuffles
    · exact stays.not_adds (by omega) (by omega) adds
  rcases enters.exists_gives ordered stays ends with ⟨time, within, gives⟩
  refine ⟨time, ⟨within, gives⟩, ?_⟩
  rintro other ⟨otherWithin, otherGives⟩
  refine Nat.le_antisymm (Nat.le_of_not_lt ?_) (Nat.le_of_not_lt ?_)
  · exact once within.1 otherWithin.2 gives otherGives
  · exact once otherWithin.1 within.2 otherGives gives

theorem Adds.stays
    (adds : run.Adds start item)
    (kept : ∀ time, start < time → time < stop → ¬run.Discards time item) :
    run.Stays item (start + 1) stop := by
  have held : item ∈ (run.shuffleAt (start + 1)).toList :=
    run.mem_toList_succ.2 ⟨.inr adds, fun discards => adds.not_mem discards.2⟩
  intro time after before
  refine mem_toList_of_not_discards held after fun earlier behind ahead => ?_
  exact kept earlier behind (Nat.lt_of_lt_of_le ahead before)

/-- A discarded item is not drawn before it is added once more. -/
theorem Discards.exists_adds
    {draw : Nat}
    (discards : run.Discards time item)
    (gives : run.Gives draw item)
    (ordered : time < draw) :
    ∃ added, time < added ∧ added < draw ∧ run.Adds added item := by
  by_contra nothing
  push Not at nothing
  have gone : item ∉ (run.shuffleAt (time + 1)).toList := fun held =>
    (run.mem_toList_succ.1 held).2 discards
  exact not_mem_toList_of_not_adds gone ordered nothing gives.mem_toList

variable (run)

/--
At every time of every run the candidates differ from each other, the index is the inverse of
their array, and the deck has those that wait in the current cycle, none twice.  A draw gives
nothing exactly if there is no candidate; an addition is refused exactly if the item is present,
and a discard exactly if it is absent, and then nothing changes.

From one reshuffle to the next, every item that stays a candidate is drawn exactly once.  An item
that is added while others are still to come, and is not discarded, is drawn exactly once from
then to the end of the cycle, and in the whole of it if it was not discarded earlier in the cycle
either.  No item is drawn twice without a reshuffle or its own addition in between, and no
discarded item is drawn before it is added again.
-/
theorem cycles_are_exhaustive [ToString α] :
    (∀ time,
      let shuffle := run.shuffleAt time
      shuffle.toList.Nodup ∧
      (∀ item (position : Nat), shuffle.positions[item]? = some position ↔
        shuffle.candidates[position]? = some item) ∧
      shuffle.deck.Nodup ∧
      (∀ item, item ∈ shuffle.deck ↔ run.Waits time item) ∧
      (shuffle.choice.1 = none ↔ shuffle.toList = []) ∧
      (∀ item, ((shuffle.add item).1 = false ↔ item ∈ shuffle.toList) ∧
        (item ∈ shuffle.toList → shuffle.perform (.add item) = shuffle)) ∧
      ∀ item,
        (shuffle.discard item = .error (.notFound s!"shuffle candidate {item}") ↔
          item ∉ shuffle.toList) ∧
        (item ∈ shuffle.toList →
          shuffle.discard item = .ok (shuffle.perform (.discard item))) ∧
        (item ∉ shuffle.toList → shuffle.perform (.discard item) = shuffle)) ∧
    (∀ item start stop, start < stop →
      run.Reshuffles start → run.Unbroken start stop → run.Reshuffles stop →
      run.Stays item start stop →
      ∃! time, (start ≤ time ∧ time < stop) ∧ run.Gives time item) ∧
    (∀ item added stop, added < stop →
      run.Adds added item → (run.shuffleAt added).deck ≠ [] →
      run.Unbroken added stop → run.Reshuffles stop →
      (∀ time, added < time → time < stop → ¬run.Discards time item) →
      ∃! time, (added ≤ time ∧ time < stop) ∧ run.Gives time item) ∧
    (∀ item start added stop, start < added → added < stop →
      run.Reshuffles start → run.Unbroken start stop → run.Reshuffles stop →
      run.Adds added item → (run.shuffleAt added).deck ≠ [] →
      (∀ time, start < time → time < stop → ¬run.Discards time item) →
      ∃! time, (start ≤ time ∧ time < stop) ∧ run.Gives time item) ∧
    (∀ item earlier later, earlier < later →
      run.Gives earlier item → run.Gives later item →
      ∃ time, earlier < time ∧ time ≤ later ∧ (run.Reshuffles time ∨ run.Adds time item)) ∧
    (∀ item time draw, time < draw → run.Discards time item → run.Gives draw item →
      ∃ added, time < added ∧ added < draw ∧ run.Adds added item) := by
  refine ⟨fun time => ?always, ?cycle, ?joined, ?joinedWhole, ?repeated, ?discarded⟩
  case always =>
    have proper := run.proper time
    intro shuffle
    refine ⟨proper.nodup, proper.index, proper.deck_nodup, fun item => mem_deck_iff,
      proper.choice_eq_none_iff, fun item => ⟨?refused, ?sameAdded⟩,
      fun item => ⟨?missing, ?gone, proper.without_unknown⟩⟩
    case refused => exact proper.add_eq_false_iff
    case sameAdded => exact fun known => congrArg Prod.snd (proper.add_known known)
    case missing => exact proper.discard_eq_error_iff
    case gone => exact fun known => proper.discard_known known
  case cycle =>
    intro item start stop ordered starts unbroken ends stays
    have later : run.Stays item (start + 1) stop := fun time after before =>
      stays time (Nat.le_of_succ_le after) before
    exact Enters.existsUnique_gives (.inl starts) ordered unbroken later ends
  case joined =>
    intro item added stop ordered adds underWay unbroken ends kept
    exact Enters.existsUnique_gives (.inr ⟨adds, underWay⟩) ordered unbroken (adds.stays kept) ends
  case joinedWhole =>
    intro item start added stop after before starts unbroken ends adds underWay kept
    have keptLater (time : Nat) (behind : added < time) := kept time (Nat.lt_trans after behind)
    have unbrokenLater : run.Unbroken added stop := fun time behind =>
      unbroken time (Nat.lt_trans after behind)
    have unique := Enters.existsUnique_gives (.inr ⟨adds, underWay⟩) before unbrokenLater
      (adds.stays keptLater) ends
    -- A draw before the addition would leave a candidate, which no discard takes away.
    refine (existsUnique_congr fun time => and_congr_left fun gives => ?_).2 unique
    refine and_congr_left fun within => ⟨fun behind => ?_, Nat.le_trans (Nat.le_of_lt after)⟩
    by_contra early
    have held := gives.mem_toList
    refine adds.not_mem (mem_toList_of_not_discards held (Nat.le_of_not_le early) ?_)
    rintro earlier later ahead discards
    rcases Nat.lt_or_eq_of_le (Nat.le_trans behind later) with inside | rfl
    · exact kept earlier inside (Nat.lt_trans ahead before) discards
    · exact nomatch starts.1.symm.trans discards.1
  case repeated =>
    exact fun item earlier later ordered first second =>
      exists_between_gives first second ordered
  case discarded =>
    exact fun item time draw ordered discards gives => discards.exists_adds gives ordered

/--
Two candidates go into a cycle and a third joins it after the first draw.  Before the cycle ends
each of the two is drawn exactly once, and so is the third.
-/
theorem cycles_are_exhaustive_latecomer :
    let run : Run Nat :=
      { tape := { numbers := id }
        operations := [.add 1, .add 2, .choice, .add 3, .choice, .choice, .choice] }
    (∀ item, item = 1 ∨ item = 2 →
      ∃! time, (2 ≤ time ∧ time < 6) ∧ run.Gives time item) ∧
    (∃! time, (3 ≤ time ∧ time < 6) ∧ run.Gives time 3) ∧
    ∃! time, (2 ≤ time ∧ time < 6) ∧ run.Gives time 3 := by
  intro run
  have states :
      (run.shuffleAt 2).deck = [] ∧ (run.shuffleAt 2).toList = [1, 2] ∧
      (run.shuffleAt 3).deck = [2] ∧ (run.shuffleAt 3).toList = [1, 2] ∧
      (run.shuffleAt 4).deck = [3, 2] ∧ (run.shuffleAt 5).deck = [2] ∧
      (run.shuffleAt 6).deck = [] := by
    simp [run, shuffleAt, perform, Shuffle.add, Shuffle.choice, Shuffle.toList, empty, contains,
      Tape.shuffle, Tape.pick, Tape.insert, Tape.below, Tape.next]
  rcases states with ⟨first, candidates, underWay, held, second, third, last⟩
  have starts : run.Reshuffles 2 := ⟨rfl, first⟩
  have ends : run.Reshuffles 6 := ⟨rfl, last⟩
  have joins : run.Adds 3 3 := ⟨rfl, by simp [held]⟩
  have unbroken : run.Unbroken 2 6 := by
    rintro time after before ⟨draws, spent⟩
    obtain rfl | rfl | rfl : time = 3 ∨ time = 4 ∨ time = 5 := by omega
    · cases underWay.symm.trans spent
    · cases second.symm.trans spent
    · cases third.symm.trans spent
  have kept (item time : Nat) : ¬run.Discards time item := by
    rintro ⟨discarded, -⟩
    have among := List.mem_of_getElem? discarded
    simp [run] at among
  have more : (run.shuffleAt 3).deck ≠ [] := underWay ▸ List.cons_ne_nil 2 []
  rcases run.cycles_are_exhaustive with ⟨-, cycle, joined, joinedWhole, -, -⟩
  refine ⟨fun item among => ?_, ?_, ?_⟩
  · have standing : item ∈ (run.shuffleAt 2).toList := by simpa [candidates] using among
    have stays : run.Stays item 2 6 := fun time after _ =>
      mem_toList_of_not_discards standing after fun time _ _ => kept item time
    exact cycle item 2 6 (by omega) starts unbroken ends stays
  · have later : run.Unbroken 3 6 := fun time after => unbroken time (by omega)
    exact joined 3 3 6 (by omega) joins more later ends fun time _ _ => kept 3 time
  · exact joinedWhole 3 2 3 6 (by omega) (by omega) starts unbroken ends joins more
      fun time _ _ => kept 3 time

end Run

end Shuffle

end ClusterMembership
