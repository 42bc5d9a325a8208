import ClusterMembership.Proofs.Table.Replay
import Mathlib.Data.List.Nodup

/-!
# A sweep takes precisely the steps that are due

What is due is decided by the rows as they stand before the sweep, `Table.Timeouts.MovesOn` and
`Table.Timeouts.RunsOut`.  The moves are stamped one after the other, so the clock of a move is
the logical clock before the sweep and its place among the moves.

The sweep acts on one member after the other while its moves advance the clock that all members
share.  But no move changes the row of anybody else, and what is dropped is dropped by name, so
every row ends as if the sweep had been about it alone.
-/

namespace ClusterMembership

/-- What a row becomes when it takes another status at a newer clock. -/
theorem Member.accept_of_differs
    {member : Member}
    {status : Status}
    {clock : Nat}
    (newer : member.clock < clock)
    (differs : status ≠ member.status)
    (now : Instant) :
    member.accept status clock now = { member with status, clock, statusTime := now } := by
  have older : member.isOlderThan clock := decide_eq_true newer
  rw [accept, if_pos older, if_neg differs]

namespace Table

section Due

variable
    {table : Table}
    {timeouts : Timeouts}
    {asOf : Instant}
    {row : Member}
    {status : Status}

/-- What is asked of the row with a name is asked of the one row that there is. -/
theorem Consistent.exists_named_iff
    (consistent : table.Consistent)
    (member : row ∈ table.others)
    {property : Member → Prop} :
    (∃ other ∈ table.others, other.name = row.name ∧ property other) ↔ property row := by
  constructor
  · rintro ⟨other, elsewhere, named, holds⟩
    have found := consistent.other?_eq_some_iff.2 ⟨elsewhere, named⟩
    rw [consistent.other?_eq_some_iff.2 ⟨member, rfl⟩] at found
    cases found
    exact holds
  · intro holds
    exact ⟨row, member, rfl, holds⟩

/-- Whether a row is to be moved on is decided by the row alone. -/
theorem Consistent.due_iff_movesOn
    (consistent : table.Consistent)
    (member : row ∈ table.others) :
    (row.name, status) ∈ table.dueAdvances timeouts asOf ↔ timeouts.MovesOn asOf row status := by
  rw [mem_dueAdvances_iff, consistent.exists_named_iff member, Timeouts.step_eq_advance_iff]

theorem Consistent.dropped_iff_runsOut
    (consistent : table.Consistent)
    (member : row ∈ table.others) :
    row.name ∈ table.duePrunes timeouts asOf ↔ timeouts.RunsOut asOf row := by
  rw [mem_duePrunes_iff, consistent.exists_named_iff member, Timeouts.step_eq_prune_iff]

/-- Every row that does not stay is moved on or dropped. -/
theorem length_due (table : Table) (timeouts : Timeouts) (asOf : Instant) :
    (table.dueAdvances timeouts asOf).length + (table.duePrunes timeouts asOf).length =
      table.others.countP (fun row => timeouts.step asOf row ≠ .stay) := by
  rw [dueAdvances, duePrunes]
  generalize table.others = rows
  induction rows with
  | nil => rfl
  | cons row rows step =>
    rw [List.countP_cons, ← step]
    cases due : timeouts.step asOf row with
    | advance status =>
      simp only [List.filterMap_cons, due, List.length_cons]
      exact Nat.succ_add _ _
    | prune =>
      simp only [List.filterMap_cons, due, List.length_cons]
      exact Nat.add_assoc _ _ 1
    | stay =>
      simp only [List.filterMap_cons, due]
      rfl

end Due

/-! ## The moves in their order -/

section Moves

variable
    {table : Table}
    {wall asOf : Instant}
    {timeouts : Timeouts}
    {name : MemberName}
    {status : Status}
    {row : Member}

/-- The clock under which a sweep moves a member on: the moves are stamped in slot order. -/
def moveStamp (table : Table) (timeouts : Timeouts) (asOf : Instant) (name : MemberName) : Nat :=
  table.clock + ((table.dueAdvances timeouts asOf).map Prod.fst).idxOf name + 1

theorem lt_moveStamp (table : Table) (timeouts : Timeouts) (asOf : Instant) (name : MemberName) :
    table.clock < table.moveStamp timeouts asOf name :=
  Nat.lt_succ_of_le (Nat.le_add_right _ _)

/-- Different members are moved on under different clocks. -/
theorem eq_of_moveStamp_eq
    (due : (name, status) ∈ table.dueAdvances timeouts asOf)
    {other : MemberName}
    (same : table.moveStamp timeouts asOf name = table.moveStamp timeouts asOf other) :
    name = other := by
  have among : name ∈ (table.dueAdvances timeouts asOf).map Prod.fst :=
    List.mem_map.2 ⟨_, due, rfl⟩
  rw [moveStamp, moveStamp] at same
  exact (List.idxOf_inj among).1 (by omega)

/-- A move is stamped with the clock of its member. -/
theorem Timely.other?_advanceAll_of_due
    (timely : table.Timely)
    (wall : Instant)
    (due : (name, status) ∈ table.dueAdvances timeouts asOf)
    (known : table.other? name = some row) :
    (table.advanceAll wall (table.dueAdvances timeouts asOf)).table.other? name =
      some (row.accept status (table.moveStamp timeouts asOf name) wall) := by
  have feasible := timely.feasible_dueAdvances timeouts asOf
  rcases List.mem_iff_getElem?.1 due with ⟨place, found⟩
  have named : ((table.dueAdvances timeouts asOf).map Prod.fst)[place]? = some name := by
    rw [List.getElem?_map, found]
    rfl
  rcases List.getElem?_eq_some_iff.1 named with ⟨inside, here⟩
  have position := feasible.once.idxOf_getElem place inside
  rw [here] at position
  rw [moveStamp, position]
  exact feasible.other?_advanceAll_at timely found known

/-! ## The whole sweep -/

theorem Timely.acks_expire (timely : table.Timely) (peer about : MemberName) :
    (table.expire wall asOf timeouts).table.acks[(peer, about)]? =
      if peer ∈ table.duePrunes timeouts asOf ∨ about ∈ table.duePrunes timeouts asOf then none
      else table.acks[(peer, about)]? := by
  rw [table_expire, getElem?_acks_pruneAll, timely.toSound.acks_advanceAll]

theorem Timely.other?_expire_of_movesOn
    (timely : table.Timely)
    (member : row ∈ table.others)
    (moves : timeouts.MovesOn asOf row status) :
    (table.expire wall asOf timeouts).table.other? row.name =
      some { row with
        status
        clock := table.moveStamp timeouts asOf row.name
        statusTime := wall } := by
  have known := timely.other?_eq_some_iff.2 ⟨member, rfl⟩
  have due := (timely.due_iff_movesOn member).2 moves
  have newer : row.clock < table.moveStamp timeouts asOf row.name :=
    Nat.lt_of_le_of_lt (timely.other_clock_le known) (table.lt_moveStamp timeouts asOf row.name)
  rw [timely.other?_expire_eq, if_neg (timely.not_pruned_of_advanced due),
    timely.other?_advanceAll_of_due wall due known, Member.accept_of_differs newer moves.differs]

theorem Timely.other?_expire_of_runsOut
    (timely : table.Timely)
    (member : row ∈ table.others)
    (runsOut : timeouts.RunsOut asOf row) :
    (table.expire wall asOf timeouts).table.other? row.name = none := by
  rw [timely.other?_expire_eq, if_pos ((timely.dropped_iff_runsOut member).2 runsOut)]

/-- A name that nothing is due for keeps what it has, a row or none. -/
theorem Timely.other?_expire_elsewhere
    (timely : table.Timely)
    (queried : MemberName)
    (moves : ∀ status, (queried, status) ∉ table.dueAdvances timeouts asOf)
    (dropped : queried ∉ table.duePrunes timeouts asOf) :
    (table.expire wall asOf timeouts).table.other? queried = table.other? queried := by
  have elsewhere : queried ∉ (table.dueAdvances timeouts asOf).map Prod.fst := by
    rintro among
    rcases List.mem_map.1 among with ⟨⟨name, status⟩, due, rfl⟩
    exact moves status due
  rw [timely.other?_expire_eq, if_neg dropped]
  exact timely.other?_advanceAll_elsewhere (timely.feasible_dueAdvances timeouts asOf) elsewhere

theorem Timely.other?_expire_of_stays
    (timely : table.Timely)
    (member : row ∈ table.others)
    (moves : ∀ status, ¬timeouts.MovesOn asOf row status)
    (runsOut : ¬timeouts.RunsOut asOf row) :
    (table.expire wall asOf timeouts).table.other? row.name = some row := by
  rw [timely.other?_expire_elsewhere row.name
    (fun status due => moves status ((timely.due_iff_movesOn member).1 due))
    (fun dropped => runsOut ((timely.dropped_iff_runsOut member).1 dropped))]
  exact timely.other?_eq_some_iff.2 ⟨member, rfl⟩

theorem Timely.other?_expire_of_unknown
    (timely : table.Timely)
    (unknown : table.other? name = none) :
    (table.expire wall asOf timeouts).table.other? name = none := by
  have absent : ∀ row ∈ table.others, row.name ≠ name := by
    rintro row member rfl
    rw [timely.other?_eq_some_iff.2 ⟨member, rfl⟩] at unknown
    cases unknown
  rw [timely.other?_expire_elsewhere name, unknown]
  · intro status due
    rcases mem_dueAdvances_iff.1 due with ⟨row, member, named, -⟩
    exact absent row member named
  · intro due
    rcases mem_duePrunes_iff.1 due with ⟨row, member, named, -⟩
    exact absent row member named

/-- The answer counts the rows that the sweep has changed or dropped. -/
theorem Timely.answer_expire_eq_countP (timely : table.Timely) :
    (table.expire wall asOf timeouts).answer =
      table.others.countP
        (fun row => (table.expire wall asOf timeouts).table.other? row.name ≠ some row) := by
  rw [timely.answer_expire, length_due]
  apply List.countP_congr
  intro row member
  simp only [ne_eq, decide_eq_true_eq]
  rw [not_iff_not]
  cases due : timeouts.step asOf row with
  | advance status =>
    have newer := Nat.lt_of_le_of_lt (timely.clock_le (List.mem_cons_of_mem _ member))
      (table.lt_moveStamp timeouts asOf row.name)
    rw [timely.other?_expire_of_movesOn member (Timeouts.step_eq_advance_iff.1 due)]
    simp only [reduceCtorEq, false_iff]
    intro same
    exact Nat.ne_of_gt newer (congrArg Member.clock (Option.some.inj same))
  | prune =>
    rw [timely.other?_expire_of_runsOut member (Timeouts.step_eq_prune_iff.1 due)]
    simp
  | stay =>
    have moves : ∀ status, ¬timeouts.MovesOn asOf row status := by
      intro status moves
      rw [Timeouts.step_eq_advance_iff.2 moves] at due
      cases due
    have runsOut : ¬timeouts.RunsOut asOf row := by
      intro runsOut
      rw [Timeouts.step_eq_prune_iff.2 runsOut] at due
      cases due
    rw [timely.other?_expire_of_stays member moves runsOut]
    simp

end Moves

/--
One sweep takes precisely the steps that are due.  In any table that some node may have, as of any
instant and with any timeouts:

Every row that has been suspect or unavailable for long enough gets the next status, and no second
one, at a clock of its own that is newer than the logical clock was.  Every member that has been
offline for long enough is gone, with every ack by it or about it.  The own row and every other
row, the unobserved ones among them, are what they were; nobody comes; and every other ack is kept.

The answer is the number of the rows that were moved on or dropped.  And every move is accepted
where its turn comes.
-/
theorem sweeps_take_due_steps
    {table : Table}
    (reachable : table.Reachable)
    (wall asOf : Instant)
    (timeouts : Timeouts) :
    let swept := table.expire wall asOf timeouts
    (∃ stamp : MemberName → Nat,
      (∀ row ∈ table.others, ∀ status, timeouts.MovesOn asOf row status →
        swept.table.other? row.name =
          some { row with status, clock := stamp row.name, statusTime := wall } ∧
        table.clock < stamp row.name) ∧
      ∀ row ∈ table.others, ∀ other ∈ table.others, ∀ status next,
        timeouts.MovesOn asOf row status → timeouts.MovesOn asOf other next →
        stamp row.name = stamp other.name → row = other) ∧
    (∀ row ∈ table.others, timeouts.RunsOut asOf row →
      swept.table.other? row.name = none ∧
      ∀ name : MemberName, swept.table.acks[(row.name, name)]? = none ∧
        swept.table.acks[(name, row.name)]? = none) ∧
    (∀ row ∈ table.others, (∀ status, ¬timeouts.MovesOn asOf row status) →
      ¬timeouts.RunsOut asOf row → swept.table.other? row.name = some row) ∧
    swept.table.own = table.own ∧
    (∀ name, table.other? name = none → swept.table.other? name = none) ∧
    (∀ peer about,
      (∀ row ∈ table.others, timeouts.RunsOut asOf row → row.name ≠ peer ∧ row.name ≠ about) →
      swept.table.acks[(peer, about)]? = table.acks[(peer, about)]?) ∧
    swept.answer =
      table.others.countP (fun row => swept.table.other? row.name ≠ some row) ∧
    ∀ done name status rest, table.dueAdvances timeouts asOf = done ++ (name, status) :: rest →
      let before := (table.advanceAll wall done).table
      (before.tick.apply wall name status before.tick.clock none).answer = .ok true := by
  intro swept
  have timely := reachable.timely
  refine ⟨⟨table.moveStamp timeouts asOf, ?_, ?_⟩, ?_, ?_, timely.own_expire wall asOf timeouts,
    ?_, ?_, timely.answer_expire_eq_countP, ?_⟩
  · intro row member status moves
    exact ⟨timely.other?_expire_of_movesOn member moves,
      table.lt_moveStamp timeouts asOf row.name⟩
  · intro row member other elsewhere status next moves _ same
    have named := eq_of_moveStamp_eq ((timely.due_iff_movesOn member).2 moves) same
    have found := timely.other?_eq_some_iff.2 ⟨member, named⟩
    rw [timely.other?_eq_some_iff.2 ⟨elsewhere, rfl⟩] at found
    exact (Option.some.inj found).symm
  · intro row member runsOut
    have dropped := (timely.dropped_iff_runsOut member).2 runsOut
    refine ⟨timely.other?_expire_of_runsOut member runsOut, ?_⟩
    intro name
    constructor
    · rw [timely.acks_expire, if_pos (Or.inl dropped)]
    · rw [timely.acks_expire, if_pos (Or.inr dropped)]
  · intro row member moves runsOut
    exact timely.other?_expire_of_stays member moves runsOut
  · intro name unknown
    exact timely.other?_expire_of_unknown unknown
  · intro peer about others
    rw [timely.acks_expire, if_neg]
    rintro (dropped | dropped)
    · rcases mem_duePrunes_iff.1 dropped with ⟨row, member, named, due⟩
      exact (others row member (Timeouts.step_eq_prune_iff.1 due)).1 named
    · rcases mem_duePrunes_iff.1 dropped with ⟨row, member, named, due⟩
      exact (others row member (Timeouts.step_eq_prune_iff.1 due)).2 named
  · intro done name status rest split
    have feasible := timely.feasible_dueAdvances timeouts asOf
    rw [split] at feasible
    exact timely.accepted_of_feasible done feasible

/--
A suspect tells of itself and of a member that is offline.  A sweep in time for both moves the
suspect on and drops the other member, with what the suspect was known to hold about it.
-/
theorem sweeps_take_due_steps_two :
    let name : MemberName := { text := "10.0.0.1:7946" }
    let peer : MemberName := { text := "10.0.0.2:7946" }
    let gone : MemberName := { text := "10.0.0.3:7946" }
    let suspicion : GossipEntry := { name := peer, clock := 5, status := .suspect, metadata := none }
    let farewell : GossipEntry := { name := gone, clock := 6, status := .offline, metadata := none }
    let table := (start name [] [] 0).performAll
      [.merge 0 peer suspicion, .merge 0 peer farewell]
    let swept := table.expire 120 100 { suspect := 50, unavailable := 50, retention := 80 }
    (∃ stamp, table.clock < stamp ∧
      swept.table.other? peer =
        some { name := peer, status := .unavailable, clock := stamp, statusTime := 120,
               metadata := .unknown }) ∧
    swept.table.other? gone = none ∧ swept.table.acks[(peer, gone)]? = none := by
  intro name peer gone suspicion farewell table swept
  have started := reachable_start name [] [] 0
  have told := started.perform (.merge 0 peer suspicion)
  have reachable : table.Reachable := started.performAll _
  have foreign : suspicion.name ≠ (start name [] [] 0).own.name := by
    rw [own_start]
    decide
  have still : farewell.name ≠ ((start name [] [] 0).perform (.merge 0 peer suspicion)).own.name := by
    rw [started.sound.name_perform, own_start]
    decide
  have suspected : table.other? peer =
      some ((Member.unobserved peer 0).updated .lenient 0 .suspect 5 none) := by
    have before := started.sound.other?_merge 0 peer foreign peer
    have after := told.sound.other?_merge_elsewhere 0 peer (show peer ≠ farewell.name by decide)
    rw [if_pos rfl, rowFor_start] at before
    exact after.trans before
  have offline : table.other? gone =
      some ((Member.unobserved gone 0).updated .lenient 0 .offline 6 none) := by
    have before := started.sound.other?_merge_elsewhere 0 peer
      (show gone ≠ suspicion.name by decide)
    have after := told.sound.other?_merge 0 peer still gone
    have unknown : ((start name [] [] 0).perform (.merge 0 peer suspicion)).rowFor gone 0 =
        Member.unobserved gone 0 := by
      rw [← rowFor_start name [] [] 0 gone, rowFor, rowFor]
      exact congrArg (Option.getD · _) before
    rw [if_pos rfl] at after
    rw [show farewell.name = gone from rfl, unknown] at after
    exact after
  have suspect := (reachable.sound.other?_eq_some_iff.1 suspected).1
  have silent := (reachable.sound.other?_eq_some_iff.1 offline).1
  rcases sweeps_take_due_steps reachable 120 100
    { suspect := 50, unavailable := 50, retention := 80 } with ⟨⟨stamp, moved, -⟩, dropped, -⟩
  have moves := moved _ suspect .unavailable (.suspect (by decide) rfl (by decide))
  have drops := dropped _ silent ⟨by decide, rfl, by decide⟩
  exact ⟨⟨stamp peer, moves.2, moves.1⟩, drops.1, (drops.2 peer).2⟩

end Table

end ClusterMembership
