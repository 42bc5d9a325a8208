import ClusterMembership.Participant.Dissemination
import ClusterMembership.Participant.Probe
import ClusterMembership.Participant.Reception

/-!
# What is awaited

A participant keeps the checks that are under way, and the request numbers that an ack is awaited
under.  Four things change either of them: a check begins, asks relays, gets its first ack, or is
concluded.  Whatever else a participant does spares them, `Act.Spares`.
-/

namespace ClusterMembership

namespace Participant

/-- The checks under way are the same, and so is what is awaited for them. -/
structure SameChecks (before after : Participant) : Prop where
  settings : after.settings = before.settings
  waiting : after.waiting = before.waiting
  checks : after.checks = before.checks
  numbers : before.nextRequest ≤ after.nextRequest

theorem SameChecks.refl (participant : Participant) : SameChecks participant participant :=
  ⟨rfl, rfl, rfl, Nat.le_refl _⟩

theorem SameChecks.trans
    {first second third : Participant}
    (before : SameChecks first second)
    (after : SameChecks second third) :
    SameChecks first third where
  settings := after.settings.trans before.settings
  waiting := after.waiting.trans before.waiting
  checks := after.checks.trans before.checks
  numbers := Nat.le_trans before.numbers after.numbers

end Participant

/-! ## Acts that spare the checks -/

namespace Act

variable {α β : Type}

/-- An act that leaves the checks, and what is awaited for them, as they are. -/
def Spares (act : Act α) : Prop :=
  ∀ state : Participant, state.SameChecks (act state).state

namespace Spares

theorem pure (answer : α) : Spares (Pure.pure answer) :=
  fun state => .refl state

theorem bind
    {first : Act α}
    {next : α → Act β}
    (before : Spares first)
    (after : ∀ answer, Spares (next answer)) :
    Spares (first >>= next) :=
  fun state => (before state).trans (after _ _)

theorem state : Spares Act.state :=
  fun state => .refl state

theorem modify
    {change : Participant → Participant}
    (same : ∀ state : Participant, state.SameChecks (change state)) :
    Spares (Act.modify change) :=
  same

theorem onTable (change : Table → Table.Outcome α) : Spares (Act.onTable change) :=
  fun _ => ⟨rfl, rfl, rfl, Nat.le_refl _⟩

theorem send (target : MemberName) (packet : Packet) : Spares (Act.send target packet) :=
  fun state => .refl state

theorem each {action : α → Act Unit} (every : ∀ value, Spares (action value)) (values : List α) :
    Spares (Act.each action values) := by
  induction values with
  | nil => exact pure ()
  | cons value rest step => exact bind (every value) fun _ => step

end Spares

end Act

namespace Participant

open Act

theorem spares_freshRequest : Spares freshRequest :=
  .bind .state fun _ => .bind (.modify fun _ => ⟨rfl, rfl, rfl, Nat.le_succ _⟩) fun _ => .pure _

theorem spares_syncTargets : Spares syncTargets :=
  .bind (.onTable _) fun _ => .modify fun _ => ⟨rfl, rfl, rfl, Nat.le_refl _⟩

theorem spares_sendFitted
    (target : MemberName)
    (carrier : Carrier)
    (entries : List GossipEntry) :
    Spares (sendFitted target carrier entries) :=
  .bind .state fun _ => .send _ _

theorem spares_sendPing (target : MemberName) (request : Nat) : Spares (sendPing target request) :=
  .bind .state fun _ => spares_sendFitted _ _ _

theorem spares_sendAck (target : MemberName) (request : Nat) : Spares (sendAck target request) :=
  .bind .state fun _ => spares_sendFitted _ _ _

theorem spares_drawRelays (target : MemberName) : Spares (drawRelays target) :=
  fun _ => ⟨rfl, rfl, rfl, Nat.le_refl _⟩

theorem spares_nextProbe : Spares nextProbe :=
  .bind spares_syncTargets fun _ _ => ⟨rfl, rfl, rfl, Nat.le_refl _⟩

theorem spares_recordProbe (now : Instant) (target : MemberName) (answered : Bool) :
    Spares (recordProbe now target answered) := by
  refine .bind .state fun participant => ?_
  split
  · exact .pure false
  · split
    · exact .pure true
    · exact .bind (.onTable _) fun _ => .pure true

theorem spares_disseminate (targets : List MemberName) (entries : List GossipEntry) :
    Spares (disseminate targets entries) := by
  rw [disseminate]
  split
  · exact .pure _
  · refine .bind .state fun participant => ?_
    dsimp only
    split
    · exact .pure _
    · exact .bind (.each (fun packet => .each (fun target => .send target packet) _) _)
        fun _ => .pure _

theorem spares_gossipToAll (targets : List MemberName) : Spares (gossipToAll targets) := by
  induction targets with
  | nil => exact .pure 0
  | cons target others step =>
    have pushed : Spares (gossipTo target) := by
      refine .bind .state fun participant => .bind (spares_disseminate _ _) fun outcome => ?_
      split <;> exact .pure _
    exact .bind pushed fun _ => .bind step fun _ => .pure _

theorem spares_gossipRound : Spares gossipRound := by
  have drawn : Spares drawGossipTargets := fun _ => ⟨rfl, rfl, rfl, Nat.le_refl _⟩
  exact .bind spares_syncTargets fun _ => .bind drawn fun _ => spares_gossipToAll _

theorem spares_leave (now : Instant) : Spares (Participant.leave now) :=
  .bind (.onTable _) fun _ => .bind .state fun _ => spares_disseminate _ _

theorem spares_sweep (now : Instant) : Spares (sweep now) := by
  have pruned : Spares pruneTargets := .modify fun _ => ⟨rfl, rfl, rfl, Nat.le_refl _⟩
  have forgotten : Spares (dropStaleRelays now) := .modify fun _ => ⟨rfl, rfl, rfl, Nat.le_refl _⟩
  refine .bind .state fun participant => .bind (.onTable _) fun swept => ?_
  dsimp only
  split
  · exact .bind pruned fun _ => .bind forgotten fun _ => .pure _
  · exact .bind forgotten fun _ => .pure _

theorem spares_mergeEntries (now : Instant) (source : MemberName) (entries : List GossipEntry) :
    Spares (mergeEntries now source entries) :=
  .bind (.onTable _) fun _ => .pure _

theorem spares_relayPing
    (now : Instant)
    (requester : MemberName)
    (request : Nat)
    (target : MemberName) :
    Spares (relayPing now requester request target) :=
  .bind spares_freshRequest fun _ =>
    .bind (.modify fun _ => ⟨rfl, rfl, rfl, Nat.le_refl _⟩) fun _ => spares_sendPing _ _

theorem spares_forwardAck (ping : Nat) (gossip : List GossipEntry) :
    Spares (forwardAck ping gossip) := by
  refine .bind .state fun participant => ?_
  split
  · exact .pure ()
  · exact .bind (.modify fun _ => ⟨rfl, rfl, rfl, Nat.le_refl _⟩) fun _ => spares_sendFitted _ _ _

/-! ## Acts of a check -/

section Acts

variable {state : Participant} {check : Nat} {found : Check}

theorem state_sendEach (packet : Packet) (targets : List MemberName) (state : Participant) :
    (Act.each (fun target => Act.send target packet) targets state).state = state := by
  induction targets with
  | nil => rfl
  | cons target targets step => exact step

/-- Send a request to each relay of a check, under a number of its own. -/
def requestRelays
    (check : Nat)
    (found : Check)
    (source : MemberName)
    (relays : List MemberName) :
    Act Bool := do
  let relayed ← freshRequest
  Act.modify fun participant =>
    { participant with
      waiting := participant.waiting.insert relayed check
      checks := participant.checks.insert check { found with relayed := some relayed } }
  Act.each
    (fun relay => Act.send relay { source, payload := .pingRequest relayed found.target }) relays
  return true

/-- What becomes of a participant that requests relays of a check. -/
def requesting (state : Participant) (check : Nat) (found : Check) : Participant :=
  { state with
    nextRequest := state.nextRequest + 1
    waiting := state.waiting.insert state.nextRequest check
    checks := state.checks.insert check { found with relayed := some state.nextRequest } }

theorem state_requestRelays (source : MemberName) (relays : List MemberName) :
    (requestRelays check found source relays state).state = state.requesting check found :=
  state_sendEach _ relays (state.requesting check found)

/-- To ask relays is to draw them, and then to send a request to each, if there is one. -/
theorem askRelays_of_known (known : state.checks[check]? = some found) :
    let relays := (drawRelays found.target state).answer
    let drawn := (drawRelays found.target state).state
    let asks :=
      if relays.isEmpty then (return false) else requestRelays check found state.name relays
    (askRelays check state).answer = (asks drawn).answer ∧
      (askRelays check state).state = (asks drawn).state ∧
      (askRelays check state).sent = (asks drawn).sent := by
  simp only [askRelays, bind, Act.state, known]
  exact ⟨rfl, rfl, rfl⟩

/-- A check that asks relays awaits an ack under one more number, if there is anybody to ask. -/
theorem askRelays_cases (known : state.checks[check]? = some found) :
    ((askRelays check state).answer = false ∧ state.SameChecks (askRelays check state).state) ∨
      ((askRelays check state).answer = true ∧
        (askRelays check state).state.settings = state.settings ∧
        (askRelays check state).state.nextRequest = state.nextRequest + 1 ∧
        (askRelays check state).state.waiting =
          state.waiting.insert state.nextRequest check ∧
        (askRelays check state).state.checks =
          state.checks.insert check { found with relayed := some state.nextRequest }) := by
  obtain ⟨answer, after, -⟩ := askRelays_of_known known
  rw [answer, after]
  by_cases nobody : (drawRelays found.target state).answer.isEmpty = true
  · left
    rw [if_pos nobody]
    exact ⟨rfl, spares_drawRelays found.target state⟩
  · right
    rw [if_neg nobody, state_requestRelays]
    exact ⟨rfl, rfl, rfl, rfl, rfl⟩

theorem state_concludeCheck (known : state.checks[check]? = some found) :
    (concludeCheck check state).answer = found.answered ∧
      (concludeCheck check state).state =
        { state with
          checks := state.checks.erase check
          waiting :=
            match found.relayed with
            | some relayed => (state.waiting.erase check).erase relayed
            | none => state.waiting.erase check } := by
  simp only [concludeCheck, bind, Act.state, known]
  exact ⟨rfl, rfl⟩

/-! ## Acks that arrive -/

/-- The number of the ack that a datagram brings; one under the own name is ignored. -/
def ackOf? (state : Participant) (datagram : Bytes) : Option Nat :=
  match state.codec.decode datagram with
  | .error _ => none
  | .ok packet =>
    if packet.source = state.name then
      none
    else
      match packet.payload with
      | .ack number _ => some number
      | _ => none

/-- What a datagram comes to, as far as checks are concerned. -/
inductive Receives (state : Participant) (datagram : Bytes) (effect : Effect (Option Nat)) : Prop
  /-- No check is answered, unless it has been before. -/
  | aside
      (answer : effect.answer = none)
      (same : state.SameChecks effect.state)
      (vain : ∀ number check found, state.ackOf? datagram = some number →
        state.waiting[number]? = some check → state.checks[check]? = some found →
        found.answered = true)
  /-- The first ack of a check. -/
  | notes {number check : Nat} {found : Check}
      (ack : state.ackOf? datagram = some number)
      (awaited : state.waiting[number]? = some check)
      (known : state.checks[check]? = some found)
      (first : found.answered = false)
      (answer : effect.answer = some check)
      (settings : effect.state.settings = state.settings)
      (numbers : state.nextRequest ≤ effect.state.nextRequest)
      (waiting : effect.state.waiting = state.waiting)
      (checks : effect.state.checks = state.checks.insert check { found with answered := true })

/-- A payload that is no ack answers no check. -/
theorem receiveFrom_aside
    {payload : Payload}
    (noAck : ∀ number gossip, payload ≠ .ack number gossip)
    (now : Instant)
    (source : MemberName)
    (state : Participant) :
    (receiveFrom now source payload state).answer = none ∧
      state.SameChecks (receiveFrom now source payload state).state := by
  cases payload with
  | ping request gossip =>
    have spares : Spares (receiveFrom now source (.ping request gossip)) :=
      .bind (spares_mergeEntries _ _ _) fun _ => .bind (spares_sendAck _ _) fun _ => .pure _
    exact ⟨rfl, spares state⟩
  | pingRequest request target =>
    have chosen : receiveFrom now source (.pingRequest request target) state =
        (if target = state.name then (do sendAck source request; return none)
          else (do relayPing now source request target; return none) : Act (Option Nat)) state :=
      rfl
    rw [chosen]
    split
    · exact ⟨rfl, (Spares.bind (spares_sendAck _ _) fun _ => .pure _) state⟩
    · exact ⟨rfl, (Spares.bind (spares_relayPing _ _ _ _) fun _ => .pure _) state⟩
  | ack number gossip => exact absurd rfl (noAck number gossip)
  | gossip entries =>
    have spares : Spares (receiveFrom now source (.gossip entries)) :=
      .bind (spares_mergeEntries _ _ _) fun _ => .bind .state fun _ =>
        .bind (.send _ _) fun _ => .pure _
    exact ⟨rfl, spares state⟩
  | gossipAck acks =>
    have spares : Spares (receiveFrom now source (.gossipAck acks)) :=
      .bind (.modify fun _ => ⟨rfl, rfl, rfl, Nat.le_refl _⟩) fun _ => .pure _
    exact ⟨rfl, spares state⟩

/-- An ack is noted if it is the first one of its check. -/
theorem noteAck_cases (state : Participant) (check : Nat) :
    ((noteAck check state).answer = none ∧ (noteAck check state).state = state ∧
      ∀ found, state.checks[check]? = some found → found.answered = true) ∨
    ∃ found, state.checks[check]? = some found ∧ found.answered = false ∧
      (noteAck check state).answer = some check ∧
      (noteAck check state).state =
        { state with checks := state.checks.insert check { found with answered := true } } := by
  cases known : state.checks[check]? with
  | none =>
    left
    simp only [noteAck, bind, Act.state, known]
    exact ⟨rfl, rfl, nofun⟩
  | some found =>
    obtain ⟨target, relayed, answered⟩ := found
    cases answered with
    | true =>
      left
      simp only [noteAck, bind, Act.state, known]
      exact ⟨rfl, rfl, fun other same => Option.some.inj same ▸ rfl⟩
    | false =>
      right
      simp only [noteAck, bind, Act.state, known]
      exact ⟨_, rfl, rfl, rfl, rfl⟩

/-- An ack that is awaited is noted, when what comes with it is merged. -/
theorem receives_ack
    {datagram : Bytes}
    {number : Nat}
    (ack : state.ackOf? datagram = some number)
    (now : Instant)
    (source : MemberName)
    (gossip : List GossipEntry) :
    state.Receives datagram (receiveFrom now source (.ack number gossip) state) := by
  have same : state.SameChecks (mergeEntries now source gossip state).state :=
    spares_mergeEntries now source gossip state
  cases awaited : state.waiting[number]? with
  | none =>
    have still : (mergeEntries now source gossip state).state.waiting[number]? = none := by
      rw [same.waiting, awaited]
    have forwards : Spares (do forwardAck number gossip; return (none : Option Nat)) :=
      .bind (spares_forwardAck _ _) fun _ => .pure _
    simp only [receiveFrom, bind, Act.state, still]
    refine .aside rfl (same.trans (forwards _)) ?_
    intro other check found arrived held
    rw [← Option.some.inj (ack.symm.trans arrived), awaited] at held
    cases held
  | some check =>
    have still : (mergeEntries now source gossip state).state.waiting[number]? = some check := by
      rw [same.waiting, awaited]
    simp only [receiveFrom, bind, Act.state, still]
    rcases noteAck_cases (mergeEntries now source gossip state).state check with
      ⟨answer, kept, before⟩ | ⟨found, known, first, answer, noted⟩
    · refine .aside answer (kept.symm ▸ same) ?_
      intro other holder found arrived held knew
      rw [← Option.some.inj (ack.symm.trans arrived), awaited] at held
      rw [← Option.some.inj held, ← same.checks] at knew
      exact before found knew
    · rw [same.checks] at known
      refine .notes ack awaited known first answer ?_ ?_ ?_ ?_
      · exact (congrArg Participant.settings noted).trans same.settings
      · exact Nat.le_trans same.numbers
          (Nat.le_of_eq (congrArg Participant.nextRequest noted).symm)
      · exact (congrArg Participant.waiting noted).trans same.waiting
      · refine (congrArg Participant.checks noted).trans ?_
        exact congrArg (·.insert check { found with answered := true }) same.checks

theorem receives
    (now : Instant)
    (datagram : Bytes)
    (state : Participant) :
    state.Receives datagram (receiveDatagram now datagram state) := by
  cases decoded : state.codec.decode datagram with
  | error cause =>
    simp only [receiveDatagram, bind, Act.state, decoded]
    exact .aside rfl (.refl state) (by simp [ackOf?, decoded])
  | ok packet =>
    have handled : receiveDatagram now datagram state =
        (if packet.source = state.name then return none
          else receiveFrom now packet.source packet.payload : Act (Option Nat)) state := by
      simp only [receiveDatagram, bind, Act.state, decoded]
      rfl
    rw [handled]
    by_cases own : packet.source = state.name
    · rw [if_pos own]
      exact .aside rfl (.refl state) (by simp [ackOf?, decoded, own])
    · rw [if_neg own]
      cases said : packet.payload with
      | ack number gossip =>
        exact receives_ack (by simp [ackOf?, decoded, own, said]) now packet.source gossip
      | _ =>
        have noAck : ∀ number gossip, packet.payload ≠ .ack number gossip := by simp [said]
        obtain ⟨answer, same⟩ := receiveFrom_aside noAck now packet.source state
        rw [said] at answer same
        exact .aside answer same (by simp [ackOf?, decoded, own, said])

end Acts

end Participant

end ClusterMembership
