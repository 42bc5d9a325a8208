import ClusterMembership.Participant.Dissemination
import ClusterMembership.Participant.Probe
import ClusterMembership.Participant.Reception
import ClusterMembership.Proofs.Table.Handles

/-!
# Acts as runs of sections

Three loops share the table and the two shuffles of a participant, each behind a lock of its own.
What happens under one lock is a `Section`, and between two sections anything else may happen.
A synchronisation takes two of them: it takes the handles of new members from the table, and
later makes them candidates of the shuffles.  In between they are in its hands only, so a
`Juncture`, what there is between two sections, has these besides the participant.

Every act of a participant is a run of sections, `Act.Runs`.  So what holds for all interleavings
of sections holds for all interleavings of acts, also where an act is interrupted.
-/

namespace ClusterMembership

/-- A participant between two sections, and the handles that each synchronisation has in hand. -/
structure Juncture where
  participant : Participant
  hands : List (List Handle)

/-- What is done under one lock. -/
inductive Section where
  /-- Anything with the table, but for taking the handles of new members. -/
  | operate (operation : Table.Operation) (other : operation ≠ .takeInserted)
  /-- Anything with what is neither the table nor a shuffle. -/
  | aside (rest : Participant)
  /-- A synchronisation starts and takes the handles of new members. -/
  | take
  /-- One of the synchronisations makes the handles it took candidates, and ends. -/
  | enlist (place : Nat)
  | drawProbe
  | drawGossip
  | pruneProbes
  | pruneGossip

/-- Whether a section selects a member for a probe. -/
def Section.isProbe : Section → Bool
  | .drawProbe => true
  | .operate .. | .aside _ | .take | .enlist _ | .drawGossip | .pruneProbes | .pruneGossip => false

/-- What a section does with the table. -/
def Section.operations : Section → List Table.Operation
  | .operate operation _ => [operation]
  | .take => [.takeInserted]
  | .aside _ | .enlist _ | .drawProbe | .drawGossip | .pruneProbes | .pruneGossip => []

namespace Juncture

variable {first second third : Juncture}

def after (juncture : Juncture) : Section → Juncture
  | .operate operation _ =>
    let participant := juncture.participant
    { juncture with
      participant := { participant with table := participant.table.perform operation } }
  | .aside rest =>
    let participant := juncture.participant
    { juncture with
      participant :=
        { rest with
          table := participant.table
          probeTargets := participant.probeTargets
          gossipTargets := participant.gossipTargets } }
  | .take =>
    let taken := Participant.takeInserted juncture.participant
    { participant := taken.state, hands := juncture.hands ++ [taken.answer] }
  | .enlist place =>
    match juncture.hands[place]? with
    | none => juncture
    | some handles =>
      { participant := (Participant.addTargets handles juncture.participant).state
        hands := juncture.hands.eraseIdx place }
  | .drawProbe =>
    { juncture with participant := (Participant.drawProbeTarget juncture.participant).state }
  | .drawGossip =>
    { juncture with participant := (Participant.drawGossipTargets juncture.participant).state }
  | .pruneProbes =>
    let participant := juncture.participant
    { juncture with
      participant :=
        { participant with
          probeTargets := (participant.probeTargets.prune participant.table.isLive).2 } }
  | .pruneGossip =>
    let participant := juncture.participant
    { juncture with
      participant :=
        { participant with
          gossipTargets := (participant.gossipTargets.prune participant.table.isLive).2 } }

/-- What there is after a number of sections, one after the other. -/
def afterAll (juncture : Juncture) (sections : List Section) : Juncture :=
  sections.foldl after juncture

theorem afterAll_append (juncture : Juncture) (former latter : List Section) :
    juncture.afterAll (former ++ latter) = (juncture.afterAll former).afterAll latter :=
  List.foldl_append

theorem table_after (juncture : Juncture) (current : Section) :
    (juncture.after current).participant.table =
      juncture.participant.table.performAll current.operations := by
  cases current with
  | enlist place =>
    rw [after]
    split <;> rfl
  | operate | aside | take | drawProbe | drawGossip | pruneProbes | pruneGossip => rfl

/-- All that sections do to the table are operations. -/
theorem table_afterAll (juncture : Juncture) (sections : List Section) :
    (juncture.afterAll sections).participant.table =
      juncture.participant.table.performAll (sections.flatMap Section.operations) := by
  induction sections generalizing juncture with
  | nil => rfl
  | cons current rest step =>
    rw [List.flatMap_cons, Table.performAll_append, ← table_after]
    exact step (juncture.after current)

/-- Some sections lead from one juncture to the other. -/
def Reaches (first second : Juncture) : Prop :=
  ∃ sections, first.afterAll sections = second

namespace Reaches

theorem refl (juncture : Juncture) : juncture.Reaches juncture :=
  ⟨[], rfl⟩

theorem trans (earlier : first.Reaches second) (later : second.Reaches third) :
    first.Reaches third := by
  rcases earlier with ⟨before, rfl⟩
  rcases later with ⟨behind, rfl⟩
  exact ⟨before ++ behind, afterAll_append first before behind⟩

theorem step (juncture : Juncture) (current : Section) :
    juncture.Reaches (juncture.after current) :=
  ⟨[current], rfl⟩

/-- Operations on the table are a run of sections, if none of them takes the new handles. -/
theorem operateAll
    (participant : Participant)
    (hands : List (List Handle))
    {operations : List Table.Operation}
    (others : .takeInserted ∉ operations) :
    Reaches ⟨participant, hands⟩
      ⟨{ participant with table := participant.table.performAll operations }, hands⟩ := by
  induction operations generalizing participant with
  | nil => exact .refl _
  | cons operation rest ih =>
    rw [List.mem_cons, not_or] at others
    exact (step ⟨participant, hands⟩ (.operate operation (Ne.symm others.1))).trans
      (ih _ others.2)

end Reaches

end Juncture

namespace Act

variable {α β : Type} {state : Participant}

/-- The act is a run of sections, and every synchronisation that it starts is over at its end. -/
def Runs (act : Act α) (state : Participant) : Prop :=
  ∀ hands, Juncture.Reaches ⟨state, hands⟩ ⟨(act state).state, hands⟩

namespace Runs

/-- An act that leaves the table and the shuffles alone. -/
theorem aside
    {act : Act α}
    (table : (act state).state.table = state.table)
    (probes : (act state).state.probeTargets = state.probeTargets)
    (gossip : (act state).state.gossipTargets = state.gossipTargets) :
    Runs act state := by
  intro hands
  refine ⟨[.aside (act state).state], ?_⟩
  simp only [Juncture.afterAll, List.foldl_cons, List.foldl_nil, Juncture.after, ← table,
    ← probes, ← gossip]

theorem pure (answer : α) : Runs (Pure.pure answer) state :=
  aside rfl rfl rfl

theorem bind
    {first : Act α}
    {next : α → Act β}
    (before : Runs first state)
    (behind : Runs (next (first state).answer) (first state).state) :
    Runs (first >>= next) state :=
  fun hands => (before hands).trans (behind hands)

theorem read
    {next : Participant → Act β}
    (behind : Runs (next state) state) :
    Runs (Act.state >>= next) state :=
  behind

theorem send (target : MemberName) (packet : Packet) : Runs (Act.send target packet) state :=
  aside rfl rfl rfl

theorem each
    {action : α → Act Unit}
    {values : List α}
    (every : ∀ value ∈ values, ∀ state, Runs (action value) state) :
    Runs (Act.each action values) state := by
  induction values generalizing state with
  | nil => exact pure ()
  | cons value rest step =>
    refine bind (every value List.mem_cons_self state) (step ?_)
    exact fun other among => every other (List.mem_cons_of_mem value among)

theorem onTable
    {change : Table → Table.Outcome α}
    (operations : List Table.Operation)
    (others : .takeInserted ∉ operations)
    (same : (change state.table).table = state.table.performAll operations) :
    Runs (Act.onTable change) state := by
  intro hands
  have reaches := Juncture.Reaches.operateAll state hands others
  rw [← same] at reaches
  exact reaches

end Runs

end Act

namespace Participant

open Act

variable {state : Participant}

/-! ## Packets -/

end Participant

end ClusterMembership
