import ClusterMembership.Participant.Dissemination
import ClusterMembership.Participant.Probe
import ClusterMembership.Participant.Reception
import ClusterMembership.Proofs.Participant.Backing

/-!
# Acts that leave the table alone

Most of what a participant does leaves its rows as they are: it draws members, keeps
account of its checks, and sends packets.  `Act.Steady` says so of an act at a state,
and that the table backs every packet the act sends.  It is kept under sequencing, so
each act is covered by going through its parts.

What the acts choose, the target of a probe or of gossip, plays no role here.
-/

namespace ClusterMembership

namespace Act

variable {α β : Type} {passed : List GossipEntry} {state : Participant}

/-- An act that leaves the table alone and sends packets the table backs. -/
structure Steady (passed : List GossipEntry) (act : Act α) (state : Participant) : Prop where
  table : state.table.Alike (act state).state.table
  sent : ∀ flight ∈ (act state).sent, flight.packet.BackedBy passed state.table

namespace Steady

/-- An act that sends nothing and keeps the table. -/
theorem of_silent
    {act : Act α}
    (table : (act state).state.table = state.table)
    (sent : (act state).sent = []) :
    Steady passed act state := by
  constructor
  · rw [table]
    exact .refl state.table
  · rw [sent]
    intro flight member
    cases member

theorem pure (answer : α) : Steady passed (Pure.pure answer) state :=
  of_silent rfl rfl

/-- Two acts in a row are steady when each of them is where it takes place. -/
theorem bind
    {first : Act α}
    {next : α → Act β}
    (before : Steady passed first state)
    (after :
      state.table.Alike (first state).state.table →
        Steady passed (next (first state).answer) (first state).state) :
    Steady passed (first >>= next) state := by
  have following := after before.table
  constructor
  · exact before.table.trans following.table
  · intro flight member
    rcases List.mem_append.1 member with earlier | later
    · exact before.sent flight earlier
    · exact before.table.symm.backedBy (following.sent flight later)

/-- Reading the state first changes nothing. -/
theorem read
    {next : Participant → Act β}
    (after : Steady passed (next state) state) :
    Steady passed (Act.state >>= next) state :=
  bind (of_silent rfl rfl) fun _ => after

theorem modify
    {change : Participant → Participant}
    (table : (change state).table = state.table) :
    Steady passed (Act.modify change) state :=
  of_silent table rfl

theorem send
    {target : MemberName}
    {packet : Packet}
    (backed : packet.BackedBy passed state.table) :
    Steady passed (Act.send target packet) state := by
  constructor
  · exact .refl state.table
  · intro flight member
    by_cases admitted : state.codec.admits packet
    · simp only [Act.send, admitted, if_true, List.mem_singleton] at member
      rw [member]
      exact backed
    · simp [Act.send, admitted] at member

theorem each
    {action : α → Act Unit}
    {values : List α}
    (every : ∀ value ∈ values, ∀ mid : Participant,
      state.table.Alike mid.table → Steady passed (action value) mid) :
    Steady passed (Act.each action values) state := by
  induction values generalizing state with
  | nil => exact pure ()
  | cons value rest step =>
    have first := every value List.mem_cons_self state (.refl state.table)
    refine bind first fun alike => step ?_
    intro other member mid later
    exact every other (List.mem_cons_of_mem value member) mid (alike.trans later)

end Steady

end Act

namespace Participant

open Act

variable {passed : List GossipEntry} {state : Participant}

/-! ## Packets with entries -/

theorem steady_freshRequest : Steady passed freshRequest state :=
  .of_silent rfl rfl

/-- A packet is fitted from backed entries. -/
theorem steady_sendFitted
    (target : MemberName)
    {carrier : Carrier}
    {entries : List GossipEntry}
    (source : carrier.source = state.table.own.name)
    (backed : ∀ entry ∈ entries, Table.Backs passed state.table entry) :
    Steady passed (sendFitted target carrier entries) state := by
  refine .read (.send ?_)
  rcases state.codec.exists_fitted_eq_wrap carrier state.settings.maxPacketSize entries with
    ⟨part, sublist, fitted⟩
  rw [fitted]
  exact Carrier.backedBy_wrap source backed sublist

/-- Everything on the side of a ping or an ack is backed. -/
theorem backs_piggyback
    (sound : state.table.Sound)
    (target : MemberName) :
    ∀ entry ∈ state.piggyback target, Table.Backs passed state.table entry := by
  intro entry member
  rcases List.mem_cons.1 member with rfl | gossip
  · exact Table.backs_own passed state.table
  · exact sound.backs_gossip (List.mem_filter.1 gossip).1

theorem steady_sendPing
    (sound : state.table.Sound)
    (target : MemberName)
    (request : Nat) :
    Steady passed (sendPing target request) state :=
  .read (steady_sendFitted target rfl (backs_piggyback sound target))

theorem steady_sendAck
    (sound : state.table.Sound)
    (target : MemberName)
    (request : Nat) :
    Steady passed (sendAck target request) state :=
  .read (steady_sendFitted target rfl (backs_piggyback sound target))

theorem steady_relayPing
    (sound : state.table.Sound)
    (now : Instant)
    (requester : MemberName)
    (request : Nat)
    (target : MemberName) :
    Steady passed (relayPing now requester request target) state := by
  refine .bind steady_freshRequest fun numbered => ?_
  refine .bind (.modify rfl) fun noted => ?_
  exact steady_sendPing (noted.sound (numbered.sound sound)) target _

theorem steady_noteAck (check : Nat) : Steady passed (noteAck check) state := by
  refine .read ?_
  cases state.checks[check]? with
  | none => exact .pure none
  | some found =>
    dsimp only
    split
    · exact .pure none
    · exact .bind (.modify rfl) fun _ => .pure (some check)

/-- What a relay passes on are the entries it was given. -/
theorem steady_forwardAck
    (held : Table.Holds passed state.table)
    (ping : Nat) :
    Steady passed (forwardAck ping passed) state := by
  refine .read ?_
  cases state.relays[ping]? with
  | none => exact .pure ()
  | some relay =>
    refine .bind (.modify rfl) fun _ => ?_
    exact steady_sendFitted relay.requester rfl fun entry member => held.backs member

/-! ## Checks -/

theorem steady_beginCheck
    (sound : state.table.Sound)
    (target : MemberName) :
    Steady passed (beginCheck target) state := by
  refine .bind steady_freshRequest fun numbered => ?_
  refine .bind (.modify rfl) fun noted => ?_
  refine .bind (steady_sendPing (noted.sound (numbered.sound sound)) target _) fun _ => ?_
  exact .pure _

theorem steady_askRelays (request : Nat) : Steady passed (askRelays request) state := by
  refine .read ?_
  cases state.checks[request]? with
  | none => exact .pure false
  | some check =>
    refine .bind (.of_silent rfl rfl) fun _ => ?_
    dsimp only
    split
    · exact .pure false
    · refine .bind steady_freshRequest fun _ => ?_
      refine .bind (.modify rfl) fun _ => ?_
      refine .bind (.each ?_) fun _ => .pure true
      intro relay _ mid alike
      refine .send ⟨?_, ?_, ?_⟩
      · rw [alike.own]
        rfl
      · intro entry member
        cases member
      · intro ack member
        cases member

theorem steady_concludeCheck (request : Nat) : Steady passed (concludeCheck request) state := by
  refine .read ?_
  cases state.checks[request]? with
  | none => exact .pure false
  | some check => exact .bind (.modify rfl) fun _ => .pure _

theorem steady_abandonCheck (request : Nat) : Steady passed (abandonCheck request) state :=
  .modify rfl

/-- Taking the handles of new members is the one change of the table that shows nowhere. -/
theorem steady_syncTargets : Steady passed syncTargets state := by
  refine .bind ⟨⟨[], rfl⟩, ?_⟩ fun _ => .modify rfl
  intro flight member
  cases member

theorem steady_nextProbe : Steady passed nextProbe state :=
  .bind steady_syncTargets fun _ => .of_silent rfl rfl

/-! ## Gossip -/

/-- Backed entries are sent in backed packets, in however many datagrams. -/
theorem steady_disseminate
    (targets : List MemberName)
    {entries : List GossipEntry}
    (backed : ∀ entry ∈ entries, Table.Backs passed state.table entry) :
    Steady passed (disseminate targets entries) state := by
  rw [disseminate]
  split
  · exact .pure _
  · refine .read ?_
    dsimp only
    cases packed :
        state.codec.batches (.gossip state.name) state.settings.maxPacketSize entries with
    | error cause => exact .pure _
    | ok packets =>
      refine .bind (.each ?_) fun _ => .pure _
      intro packet member mid alike
      rcases Codec.exists_eq_wrap_of_mem_batches packed member with ⟨part, sublist, rfl⟩
      refine .each ?_
      intro target _ last later
      refine .send ((alike.trans later).backedBy ?_)
      exact Carrier.backedBy_wrap rfl backed sublist

theorem steady_gossipTo
    (sound : state.table.Sound)
    (target : MemberName) :
    Steady passed (gossipTo target) state := by
  refine .read ?_
  refine .bind (steady_disseminate [target] fun _ member => sound.backs_gossip member) fun _ => ?_
  split <;> exact .pure _

theorem steady_gossipToAll
    (sound : state.table.Sound)
    (targets : List MemberName) :
    Steady passed (gossipToAll targets) state := by
  induction targets generalizing state with
  | nil => exact .pure 0
  | cons target others step =>
    refine .bind (steady_gossipTo sound target) fun alike => ?_
    exact .bind (step (alike.sound sound)) fun _ => .pure _

theorem steady_gossipRound
    (sound : state.table.Sound) :
    Steady passed gossipRound state := by
  refine .bind steady_syncTargets fun synced => ?_
  refine .bind (.of_silent rfl rfl) fun drawn => ?_
  exact steady_gossipToAll (drawn.sound (synced.sound sound)) _

theorem steady_pruneTargets : Steady passed pruneTargets state :=
  .modify rfl

theorem steady_dropStaleRelays (now : Instant) : Steady passed (dropStaleRelays now) state :=
  .modify rfl

end Participant

end ClusterMembership
