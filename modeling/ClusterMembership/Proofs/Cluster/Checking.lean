import ClusterMembership.Proofs.Cluster.History
import ClusterMembership.Proofs.Codec.Fitting

/-!
# Checks in a history

A check is known by its number: it begins at one time, and at a later time it is concluded with
success or without.  In between its ping, and what comes back, is on its way.

A check that nothing hinders takes two packets, and succeeds: `exists_successful_check`.
-/

namespace ClusterMembership

namespace Cluster.History

variable {Node : Type} [DecidableEq Node]

/-- A node begins a check of a target, and the check gets its number. -/
def Begins
    (history : History Node)
    (time : Nat)
    (node : Node)
    (target : MemberName)
    (check : Nat) :
    Prop :=
  (∃ now, history.events[time]? = some (.act node (.beginCheck target) now)) ∧
    (Participant.beginCheck target (history.participant time node)).answer = check

/-- A node concludes a check, and the answer is that an ack has arrived. -/
def Succeeds (history : History Node) (time : Nat) (node : Node) (check : Nat) : Prop :=
  (∃ now, history.events[time]? = some (.act node (.concludeCheck check) now)) ∧
    (Participant.concludeCheck check (history.participant time node)).answer = true

end Cluster.History

/-! ## A check that nothing hinders -/

theorem Codec.wrap_entries_fitted
    (codec : Codec)
    (carrier : Carrier)
    (maxSize : Nat)
    (entries : List GossipEntry) :
    carrier.wrap (codec.fitted carrier maxSize entries).entries =
      codec.fitted carrier maxSize entries := by
  rcases codec.exists_fitted_eq_wrap carrier maxSize entries with ⟨part, -, fitted⟩
  rw [fitted, Carrier.entries_wrap]

namespace Participant

variable {state : Participant} {target source : MemberName} {request : Nat}

theorem name_mergeEntries
    (sound : state.table.Sound)
    (now : Instant)
    (source : MemberName)
    (entries : List GossipEntry) :
    (mergeEntries now source entries state).state.name = state.name :=
  (sound.grows_mergeAll now source entries).advances.own

/-- The ping of a check that begins now. -/
def firstPing (state : Participant) (target : MemberName) : Outgoing where
  target
  packet := state.codec.fitted (.ping state.name state.nextRequest) state.settings.maxPacketSize
    (state.piggyback target)

/-- The ack of a ping. -/
def replyTo (state : Participant) (source : MemberName) (request : Nat) : Outgoing where
  target := source
  packet := state.codec.fitted (.ack state.name request) state.settings.maxPacketSize
    (state.piggyback source)

theorem packet_firstPing (state : Participant) (target : MemberName) :
    (state.firstPing target).packet =
      { source := state.name
        payload := .ping state.nextRequest (state.firstPing target).packet.entries } :=
  (Codec.wrap_entries_fitted _ _ _ _).symm

theorem packet_replyTo (state : Participant) (source : MemberName) (request : Nat) :
    (state.replyTo source request).packet =
      { source := state.name
        payload := .ack request (state.replyTo source request).packet.entries } :=
  (Codec.wrap_entries_fitted _ _ _ _).symm

theorem firstPing_mem_sent (admitted : state.codec.admits (state.firstPing target).packet) :
    state.firstPing target ∈ (beginCheck target state).sent := by
  have sent : (beginCheck target state).sent =
      (if state.codec.admits (state.firstPing target).packet then [state.firstPing target]
        else []) ++ [] := rfl
  rw [sent, if_pos admitted]
  exact List.mem_cons_self

theorem replyTo_mem_sent
    {merged : Participant}
    {gossip : List GossipEntry}
    {now : Instant}
    (foreign : source ≠ state.name)
    (after : (mergeEntries now source gossip state).state = merged)
    (admitted : merged.codec.admits (merged.replyTo source request).packet) :
    merged.replyTo source request ∈
      (receive now { source, payload := .ping request gossip } state).sent := by
  have sent : (receive now { source, payload := .ping request gossip } state).sent =
      (if merged.codec.admits (merged.replyTo source request).packet then
        [merged.replyTo source request] else []) ++ [] := by
    rw [receive_of_foreign foreign, ← after]
    rfl
  rw [sent, if_pos admitted]
  exact List.mem_cons_self

/-- An ack under a number that is awaited for a check makes the check succeed. -/
theorem answer_concludeCheck_of_awaited
    {check : Nat}
    {found : Check}
    (foreign : source ≠ state.name)
    (awaited : state.waiting[request]? = some check)
    (known : state.checks[check]? = some found)
    (gossip : List GossipEntry)
    (now : Instant) :
    (concludeCheck check
      (receive now { source, payload := .ack request gossip } state).state).answer = true := by
  rw [receive_of_foreign foreign]
  cases answered : found.answered <;>
    simp [receiveFrom, mergeEntries, Act.onTable, Act.state, bind, pure, awaited, noteAck, known,
      Act.modify, concludeCheck, answered]

/-- So does an ack under the number of a check that has just begun. -/
theorem answer_concludeCheck_of_ack
    (foreign : source ≠ state.name)
    (target : MemberName)
    (gossip : List GossipEntry)
    (now : Instant) :
    (concludeCheck state.nextRequest
      (receive now { source, payload := .ack state.nextRequest gossip }
        (beginCheck target state).state).state).answer = true := by
  have awaited : (beginCheck target state).state.waiting[state.nextRequest]? =
      some state.nextRequest := by
    show (state.waiting.insert state.nextRequest state.nextRequest)[state.nextRequest]? = _
    simp
  have known : (beginCheck target state).state.checks[state.nextRequest]? = some { target } := by
    show (state.checks.insert state.nextRequest { target })[state.nextRequest]? = _
    simp
  have begun : source ≠ (beginCheck target state).state.name := foreign
  exact answer_concludeCheck_of_awaited begun awaited known gossip now

end Participant

namespace Cluster

variable {Node : Type}

/-- The reply of one node to the first ping of another one. -/
def firstReply (profiles : Node → Profile) (prober heard : Node) : Outgoing :=
  let asking := (profiles prober).participant
  let asked := (profiles heard).participant
  let ping := asking.firstPing asked.name
  (Participant.mergeEntries 0 asking.name ping.packet.entries asked).state.replyTo asking.name
    asking.nextRequest

/-- A node checks another one: the ping arrives, the ack arrives, and the check is concluded. -/
def unhindered (profiles : Node → Profile) (prober heard : Node) : List (Event Node) :=
  let asking := (profiles prober).participant
  let asked := (profiles heard).participant
  [.act prober (.beginCheck asked.name) 0,
    .deliver (asking.firstPing asked.name) heard 0,
    .deliver (firstReply profiles prober heard) prober 0,
    .act prober (.concludeCheck asking.nextRequest) 0]

/-- Merging gossip before it answers does not change the name of a node. -/
theorem packet_firstReply (profiles : Node → Profile) (prober heard : Node) :
    (firstReply profiles prober heard).packet =
      { source := (profiles heard).name
        payload := .ack (profiles prober).participant.nextRequest
          (firstReply profiles prober heard).packet.entries } := by
  let asking := (profiles prober).participant
  let asked := (profiles heard).participant
  let entries := (asking.firstPing asked.name).packet.entries
  have named : (Participant.mergeEntries 0 asking.name entries asked).state.name =
      (profiles heard).name :=
    (Participant.name_mergeEntries (Table.sound_start _ _ _ _) 0 asking.name entries).trans
      (profiles heard).name_participant
  rw [← named]
  exact Participant.packet_replyTo _ asking.name asking.nextRequest

section Unhindered

variable [DecidableEq Node] (profiles : Node → Profile) {prober heard : Node}

theorem nodes_unhindered (different : prober ≠ heard) :
    let events := unhindered profiles prober heard
    let asking := (profiles prober).participant
    let asked := (profiles heard).participant
    (stateAt profiles events 1).nodes heard = asked ∧
      (stateAt profiles events 2).nodes prober = (Participant.beginCheck asked.name asking).state ∧
      (stateAt profiles events 3).nodes prober =
        (Participant.receive 0 (firstReply profiles prober heard).packet
          (Participant.beginCheck asked.name asking).state).state := by
  intro events asking asked
  have first : stateAt profiles events 1 =
      (founded profiles).after (.act prober (.beginCheck asked.name) 0) := rfl
  have second : stateAt profiles events 2 =
      (stateAt profiles events 1).after (.deliver (asking.firstPing asked.name) heard 0) := rfl
  have third : stateAt profiles events 3 =
      (stateAt profiles events 2).after
        (.deliver (firstReply profiles prober heard) prober 0) := rfl
  have begun : (stateAt profiles events 2).nodes prober =
      (Participant.beginCheck asked.name asking).state := by
    rw [second, nodes_after, first]
    simp [outcome, Ne.symm different, nodes_after, Deed.perform, Act.outcome, founded, asking]
  refine ⟨?_, begun, ?_⟩
  · rw [first, nodes_after]
    simp [outcome, different, founded, asked]
  · rw [third, nodes_after]
    simp [outcome, begun, Act.outcome]

theorem admits_unhindered
    (distinct : Function.Injective fun node => (profiles node).name)
    (different : prober ≠ heard)
    (pinged : (profiles prober).codec.admits
      ((profiles prober).participant.firstPing (profiles heard).participant.name).packet)
    (replied : (profiles heard).codec.admits (firstReply profiles prober heard).packet)
    {time : Nat}
    {event : Event Node}
    (happens : (unhindered profiles prober heard)[time]? = some event) :
    (stateAt profiles (unhindered profiles prober heard) time).Admits event := by
  rcases nodes_unhindered profiles different with ⟨still, begun, -⟩
  match time with
  | 0 =>
    cases happens
    trivial
  | 1 =>
    cases happens
    refine ⟨List.mem_append_right _ (Participant.firstPing_mem_sent pinged), ?_⟩
    show (profiles heard).participant.name = Participant.name _
    rw [still]
  | 2 =>
    cases happens
    let asking := (profiles prober).participant
    let asked := (profiles heard).participant
    have packet := asking.packet_firstPing asked.name
    have foreign : asking.name ≠ asked.name := by
      rw [Profile.name_participant, Profile.name_participant]
      exact fun same => different (distinct same)
    constructor
    · apply List.mem_append_right
      rw [still, packet]
      exact Participant.replyTo_mem_sent foreign rfl replied
    · show (profiles prober).participant.name = Participant.name _
      rw [begun]
      rfl
  | 3 =>
    cases happens
    trivial
  | time + 4 => cases happens

/--
In any cluster a check may succeed: it does when a node checks another one, their packets can
be encoded, and nothing comes between.
-/
theorem exists_successful_check
    (distinct : Function.Injective fun node => (profiles node).name)
    (different : prober ≠ heard)
    (pinged : (profiles prober).codec.admits
      ((profiles prober).participant.firstPing (profiles heard).participant.name).packet)
    (replied : (profiles heard).codec.admits (firstReply profiles prober heard).packet) :
    ∃ (history : History Node) (check : Nat), history.profiles = profiles ∧
      history.Begins 0 prober (profiles heard).name check ∧ history.Succeeds 3 prober check := by
  let history : History Node :=
    { profiles, events := unhindered profiles prober heard, distinct
      admitted := fun time event happens =>
        admits_unhindered profiles distinct different pinged replied happens }
  refine ⟨history, (profiles prober).participant.nextRequest, rfl, ⟨⟨0, ?_⟩, rfl⟩, ⟨0, rfl⟩, ?_⟩
  · rw [← Profile.name_participant]
    rfl
  · rcases nodes_unhindered profiles different with ⟨-, -, noted⟩
    show (Participant.concludeCheck _ ((stateAt profiles _ 3).nodes prober)).answer = true
    rw [noted, packet_firstReply]
    apply Participant.answer_concludeCheck_of_ack
    rw [Profile.name_participant]
    exact fun same => different (distinct same.symm)

end Unhindered

end Cluster

end ClusterMembership
