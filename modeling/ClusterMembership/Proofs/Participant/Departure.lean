import ClusterMembership.Proofs.Cluster.Checking
import ClusterMembership.Proofs.Participant.Sections
import ClusterMembership.Proofs.Participant.Stamping

/-!
# A departure in the course of a probe

A probe waits, and while it waits its target may leave: somebody tells that it is offline, at a
clock that is newer than the row.  If nothing newer is told of the target, `Operation.IsQuiet`,
it stays offline at this clock until the outcome of the probe is recorded.

The outcome is recorded against the row as it is then.  An unanswered probe leaves an offline
member as it is.  But an answer makes it online, under a tick and not under a clock that the
answer carries, so the row is newer than the departure: a probe undoes a departure if and only if
it is answered, even where the departure comes with the answer.
-/

namespace ClusterMembership

namespace Table

/-- A member is held to be offline at a clock. -/
def HasDeparted (table : Table) (name : MemberName) (clock : Nat) : Prop :=
  ∃ row, table.find? name = some row ∧ row.status = .offline ∧ row.clock = clock

/-- An operation tells nothing of a member that is newer than a clock, and drops nobody. -/
def Operation.IsQuiet (operation : Operation) (name : MemberName) (clock : Nat) : Prop :=
  match operation with
  | .apply _ about _ told _ => about = name → told ≤ clock
  | .merge _ _ entry => entry.name = name → entry.clock ≤ clock
  | .expire .. => False
  | .observe _ | .tick | .recordAcks .. | .setMetadata _ | .leave _ | .insert .. | .takeInserted =>
    True

variable {table before after : Table} {name : MemberName} {clock : Nat}

theorem Consistent.hasDeparted_iff_claim (consistent : table.Consistent) (positive : 0 < clock) :
    table.HasDeparted name clock ↔
      (table.report name).claim = { name, clock, status := .offline } := by
  constructor
  · rintro ⟨row, found, status, rfl⟩
    have named := (consistent.find?_eq_some_iff.1 found).2
    simp [report, found, GossipEntry.claim, Member.entry, named, status]
  · intro claimed
    have held : table.clockOf name = clock := congrArg Claim.clock claimed
    rcases consistent.exists_row_of_clockOf_pos (held.symm ▸ positive) with
      ⟨row, member, named, -, reported⟩
    rw [reported] at claimed
    exact ⟨row, consistent.find?_eq_some_iff.2 ⟨member, named⟩, congrArg Claim.status claimed,
      congrArg Claim.clock claimed⟩

/-! ## What is not newer changes no claim -/

/-- Only a claim that is newer changes what is claimed of a member. -/
theorem Advances.claim_eq
    {claims : Claim → Prop}
    (advances : Advances claims before after)
    (consistent : after.Consistent)
    (older : ∀ claim, claims claim → claim.name = name → claim.clock ≤ before.clockOf name) :
    (after.report name).claim = (before.report name).claim := by
  rcases advances.reports name with same | ⟨newer, claimed⟩
  · exact same
  · have behind := older _ claimed (consistent.name_report name)
    exact absurd newer (Nat.not_lt.2 behind)

theorem Sound.claim_perform_of_quiet
    (sound : table.Sound)
    (foreign : name ≠ table.own.name)
    {operation : Operation}
    (quiet : operation.IsQuiet name (table.clockOf name)) :
    ((table.perform operation).report name).claim = (table.report name).claim := by
  have performed := (sound.perform operation).toConsistent
  cases operation with
  | apply now about status told metadata =>
    refine (sound.advances_update .strict now about status told metadata).claim_eq performed ?_
    rintro claim (rfl | own) named
    · exact quiet named
    · exact absurd (named.symm.trans own) foreign
  | merge now source entry =>
    refine (sound.advances_merge now source entry).claim_eq performed ?_
    rintro claim (rfl | own) named
    · exact quiet named
    · exact absurd (named.symm.trans own) foreign
  | observe told =>
    exact congrArg GossipEntry.claim (congrFun (report_congr rfl (other?_congr rfl rfl)) name)
  | tick => exact congrArg GossipEntry.claim (congrFun (report_tick table) name)
  | recordAcks peer acks =>
    exact (sound.grows_recordAcks peer acks).advances.claim_eq performed fun _ none => none.elim
  | expire wall asOf timeouts => exact quiet.elim
  | setMetadata payload =>
    refine (sound.grows_setMetadata payload).advances.claim_eq performed ?_
    intro claim own named
    exact absurd (named.symm.trans own) foreign
  | leave now =>
    refine (sound.grows_leave now).advances.claim_eq performed ?_
    intro claim own named
    exact absurd (named.symm.trans own) foreign
  | insert about now =>
    exact congrArg GossipEntry.claim (congrFun (sound.report_insert about now) name)
  | takeInserted =>
    exact congrArg GossipEntry.claim (congrFun (report_congr rfl (other?_congr rfl rfl)) name)

theorem Sound.claim_performAll_of_quiet
    (sound : table.Sound)
    (foreign : name ≠ table.own.name)
    {operations : List Operation}
    (quiet : ∀ operation ∈ operations, operation.IsQuiet name (table.clockOf name)) :
    ((table.performAll operations).report name).claim = (table.report name).claim := by
  induction operations generalizing table with
  | nil => rfl
  | cons operation rest step =>
    have first := sound.claim_perform_of_quiet foreign (quiet operation List.mem_cons_self)
    have clocks : (table.perform operation).clockOf name = table.clockOf name :=
      congrArg Claim.clock first
    refine (step (sound.perform operation) ?_ ?_).trans first
    · rw [sound.name_perform operation]
      exact foreign
    · intro other among
      rw [clocks]
      exact quiet other (List.mem_cons_of_mem operation among)

/-- A departure that is newer than the row is taken. -/
theorem Sound.hasDeparted_merge
    (sound : table.Sound)
    {departure : GossipEntry}
    (foreign : departure.name ≠ table.own.name)
    (left : departure.status = .offline)
    (newer : table.clockOf departure.name < departure.clock)
    (now : Instant)
    (source : MemberName) :
    (table.merge now source departure).table.HasDeparted departure.name departure.clock := by
  have merged := (sound.merge now source departure).toConsistent
  have positive : 0 < departure.clock := Nat.lt_of_le_of_lt (Nat.zero_le _) newer
  have joined : max (table.report departure.name).clock departure.clock = departure.clock :=
    Nat.max_eq_right (Nat.le_of_lt newer)
  have told : (table.report departure.name).clock < departure.clock := newer
  rw [merged.hasDeparted_iff_claim positive, sound.report_merge now source foreign]
  simp [GossipEntry.claim, GossipEntry.join, told, joined, left, sound.name_report]

/-- A departure stays for as long as nothing newer is told of the member. -/
theorem HasDeparted.performAll
    (departed : table.HasDeparted name clock)
    (sound : table.Sound)
    (foreign : name ≠ table.own.name)
    (positive : 0 < clock)
    {operations : List Operation}
    (quiet : ∀ operation ∈ operations, operation.IsQuiet name clock) :
    (table.performAll operations).HasDeparted name clock := by
  have claimed := (sound.hasDeparted_iff_claim positive).1 departed
  have held : table.clockOf name = clock := congrArg Claim.clock claimed
  rw [(sound.performAll operations).hasDeparted_iff_claim positive, ← claimed]
  apply sound.claim_performAll_of_quiet foreign
  intro operation among
  rw [held]
  exact quiet operation among

/-- A departure that is merged somewhere in a run is held until something newer is told. -/
theorem Reachable.hasDeparted_performAll
    (reachable : table.Reachable)
    {departure : GossipEntry}
    (foreign : departure.name ≠ table.own.name)
    (left : departure.status = .offline)
    {earlier later : List Operation}
    (newer : (table.performAll earlier).clockOf departure.name < departure.clock)
    (quiet : ∀ operation ∈ later, operation.IsQuiet departure.name departure.clock)
    (now : Instant)
    (source : MemberName) :
    (table.performAll (earlier ++ .merge now source departure :: later)).HasDeparted departure.name
      departure.clock := by
  have before := (reachable.performAll earlier).sound
  have merged := before.merge now source departure
  have there : departure.name ≠ (table.performAll earlier).own.name := by
    rw [reachable.sound.name_performAll]
    exact foreign
  have still : departure.name ≠
      ((table.performAll earlier).merge now source departure).table.own.name := by
    have kept := before.name_perform (.merge now source departure)
    exact fun same => there (same.trans kept)
  rw [performAll_append, performAll_cons]
  have taken := before.hasDeparted_merge there left newer now source
  exact taken.performAll merged still (Nat.lt_of_le_of_lt (Nat.zero_le _) newer) quiet

end Table

namespace Participant

variable {state : Participant} {target source : MemberName} {answered : Bool}

/-! ## What is recorded -/

/-- An outcome that does not change the status is not recorded. -/
theorem table_recordProbe_of_unchanged
    {row : Member}
    (known : state.table.find? target = some row)
    (unchanged : probedStatus? answered row.status = none)
    (now : Instant) :
    (recordProbe now target answered state).state.table = state.table := by
  simp [recordProbe, Act.state, bind, pure, known, unchanged]

/-- A departed member is left alone by a probe without an answer, and made online by an answer. -/
theorem table_recordProbe_of_hasDeparted
    (timely : state.table.Timely)
    (foreign : target ≠ state.table.own.name)
    {clock : Nat}
    (departed : state.table.HasDeparted target clock)
    (now : Instant) :
    (recordProbe now target false state).state.table.HasDeparted target clock ∧
      ∃ row, (recordProbe now target true state).state.table.find? target = some row ∧
        row.status = .online ∧ row.clock = state.table.clock + 1 ∧ clock < row.clock := by
  rcases departed with ⟨row, known, offline, rfl⟩
  constructor
  · have unchanged : probedStatus? false row.status = none := by
      rw [offline]
      rfl
    rw [table_recordProbe_of_unchanged known unchanged]
    exact ⟨row, known, offline, rfl⟩
  · have changed : probedStatus? true row.status = some .online := by
      rw [offline]
      rfl
    rcases find?_recordProbe timely foreign known changed now with ⟨-, later, found, status, stamp⟩
    have behind := timely.clock_le (timely.find?_eq_some_iff.1 known).1
    refine ⟨later, found, status, stamp, ?_⟩
    rw [stamp]
    exact Nat.lt_succ_of_le behind

/-! ## What an ack does to the table -/

theorem table_noteAck (state : Participant) (check : Nat) :
    (noteAck check state).state.table = state.table := by
  cases known : state.checks[check]? with
  | none => simp [noteAck, Act.state, bind, pure, known]
  | some found =>
    cases noted : found.answered with
    | true => simp [noteAck, Act.state, bind, pure, known, noted]
    | false => simp [noteAck, Act.state, Act.modify, bind, pure, known, noted]

theorem table_forwardAck (state : Participant) (ping : Nat) (gossip : List GossipEntry) :
    (forwardAck ping gossip state).state.table = state.table := by
  cases known : state.relays[ping]? with
  | none => simp [forwardAck, Act.state, bind, pure, known]
  | some relay => simp [forwardAck, Act.state, Act.modify, bind, known, sendFitted, Act.send]

/-- An ack merges what it carries, and nothing else comes to the table. -/
theorem table_receive_ack
    (foreign : source ≠ state.name)
    (now : Instant)
    (request : Nat)
    (entries : List GossipEntry) :
    (receive now { source, payload := .ack request entries } state).state.table =
      (state.table.mergeAll now source entries).table := by
  have merged : (mergeEntries now source entries state).state.table =
      (state.table.mergeAll now source entries).table := rfl
  rw [receive_of_foreign foreign, ← merged]
  cases awaited : state.waiting[request]? with
  | none =>
    have still : (mergeEntries now source entries state).state.waiting[request]? = none := awaited
    simp [receiveFrom, Act.state, bind, pure, still, table_forwardAck]
  | some check =>
    have still : (mergeEntries now source entries state).state.waiting[request]? = some check :=
      awaited
    simp [receiveFrom, Act.state, bind, still, table_noteAck]

theorem table_concludeCheck (state : Participant) (request : Nat) :
    (concludeCheck request state).state.table = state.table := by
  cases known : state.checks[request]? with
  | none => simp [concludeCheck, Act.state, bind, pure, known]
  | some check => simp [concludeCheck, Act.state, Act.modify, bind, pure, known]

end Participant

/-! ## Departures between the sections of a probe -/

/-- A section tells nothing of a member that is newer than a clock, and drops nobody. -/
def Section.IsQuiet (current : Section) (name : MemberName) (clock : Nat) : Prop :=
  ∀ operation ∈ current.operations, operation.IsQuiet name clock

namespace Participant

variable {state : Participant} {target : MemberName}

/-- What there is when a check of a member has begun, and after some sections. -/
def probing
    (state : Participant)
    (target : MemberName)
    (hands : List (List Handle))
    (sections : List Section) :
    Juncture :=
  Juncture.afterAll ⟨(beginCheck target state).state, hands⟩ sections

/-- A check begins with nothing on the table. -/
theorem table_probing
    (state : Participant)
    (target : MemberName)
    (hands : List (List Handle))
    (sections : List Section) :
    (state.probing target hands sections).participant.table =
      state.table.performAll (sections.flatMap Section.operations) :=
  Juncture.table_afterAll _ _

/--
A probe undoes a departure if and only if it is answered.  Let the check of a member have begun,
and let any sections follow; then the departure of the member is merged, at a clock that is newer
than the one the table holds; then let any sections follow that tell nothing of the member that
is newer than the departure, and drop nobody.  When the outcome comes to be recorded, the member
is held to be offline at the clock of the departure.

If there was no answer, this stays so.  If there was one, the member is online afterwards, at a
tick of the node's own clock, which is newer than the departure.
-/
theorem departure_lasts_iff_unanswered
    (reachable : state.table.Reachable)
    (foreign : target ≠ state.name)
    (hands : List (List Handle))
    {earlier later : List Section}
    {departure : GossipEntry}
    (about : departure.name = target)
    (left : departure.status = .offline)
    (newer : (state.probing target hands earlier).participant.table.clockOf target <
      departure.clock)
    (quiet : ∀ current ∈ later, current.IsQuiet target departure.clock)
    (mergedAt recordedAt : Instant)
    (source : MemberName)
    (answered : Bool) :
    let departs : Section := .operate (.merge mergedAt source departure) (by simp)
    let reached := (state.probing target hands (earlier ++ departs :: later)).participant
    let recorded := (recordProbe recordedAt target answered reached).state.table
    reached.table.HasDeparted target departure.clock ∧
    (recorded.HasDeparted target departure.clock ↔ answered = false) ∧
    (answered = true →
      ∃ row, recorded.find? target = some row ∧ row.status = .online ∧
        row.clock = reached.table.clock + 1 ∧ departure.clock < row.clock) := by
  subst about
  intro departs reached recorded
  have operations : (earlier ++ departs :: later).flatMap Section.operations =
      earlier.flatMap Section.operations ++
        .merge mergedAt source departure :: later.flatMap Section.operations := by
    rw [List.flatMap_append, List.flatMap_cons]
    rfl
  have departed : reached.table.HasDeparted departure.name departure.clock := by
    rw [table_probing] at newer
    rw [table_probing, operations]
    refine reachable.hasDeparted_performAll foreign left newer ?_ mergedAt source
    intro operation among
    rcases List.mem_flatMap.1 among with ⟨current, member, does⟩
    exact quiet current member operation does
  have timely : reached.table.Timely := by
    rw [table_probing]
    exact (reachable.performAll _).timely
  have another : departure.name ≠ reached.table.own.name := by
    rw [table_probing, reachable.sound.name_performAll]
    exact foreign
  rcases table_recordProbe_of_hasDeparted timely another departed recordedAt with
    ⟨unanswered, row, found, online, stamp, beyond⟩
  refine ⟨departed, ?_, ?_⟩
  · cases answered with
    | false => exact ⟨fun _ => rfl, fun _ => unanswered⟩
    | true =>
      refine ⟨?_, fun impossible => nomatch impossible⟩
      rintro ⟨other, present, offline, -⟩
      rw [found] at present
      cases present
      exact nomatch online.symm.trans offline
  · rintro rfl
    exact ⟨row, found, online, stamp, beyond⟩

/-! ## An answer that undoes a departure -/

/-- A participant that knows one member, which is online at clock 3. -/
def watcher : Participant :=
  .start {} { signer := { mac := Hmac.mac [0] } }
    ((Table.start { text := "10.0.0.1:7946" } [] [] 0).merge 0 { text := "10.0.0.2:7946" }
      { name := { text := "10.0.0.2:7946" }, clock := 3, status := .online, metadata := none }).table
    default

/-- The entry by which the member leaves. -/
def leaving : GossipEntry where
  name := { text := "10.0.0.2:7946" }
  clock := 5
  status := .offline
  metadata := none

theorem reachable_watcher : watcher.table.Reachable :=
  (Table.reachable_start _ _ _ _).perform (.merge 0 _ _)

theorem foreign_watcher : leaving.name ≠ watcher.name := by
  have kept : watcher.name = (Table.start { text := "10.0.0.1:7946" } [] [] 0).own.name :=
    (Table.sound_start _ _ _ _).name_perform (.merge 0 _ _)
  rw [kept, Table.own_start]
  decide

theorem clockOf_watcher : watcher.table.clockOf leaving.name = 3 := by
  have started := Table.sound_start { text := "10.0.0.1:7946" } [] [] 0
  have known : ({ name := leaving.name, clock := 3, status := .online, metadata := none } :
      GossipEntry).name ≠ (Table.start { text := "10.0.0.1:7946" } [] [] 0).own.name := by
    rw [Table.own_start]
    decide
  have merged := started.report_merge 0 leaving.name known
  rw [Table.report_start_other [] [] 0 (show leaving.name ≠ { text := "10.0.0.1:7946" } by decide)]
    at merged
  exact congrArg GossipEntry.clock merged

/-- The member leaves while it is probed: without an answer it is offline, with one it is online. -/
theorem departure_lasts_iff_unanswered_watcher :
    let departs : Section := .operate (.merge 1 leaving.name leaving) (by simp)
    let reached := (watcher.probing leaving.name [] [departs, .drawGossip]).participant
    (recordProbe 2 leaving.name false reached).state.table.HasDeparted leaving.name 5 ∧
      ∃ row, (recordProbe 2 leaving.name true reached).state.table.find? leaving.name = some row ∧
        row.status = .online ∧ 5 < row.clock := by
  intro departs reached
  have newer : (watcher.probing leaving.name [] []).participant.table.clockOf leaving.name <
      leaving.clock := by
    rw [table_probing]
    exact Nat.lt_of_le_of_lt (Nat.le_of_eq clockOf_watcher) (by decide)
  have quiet : ∀ current ∈ [Section.drawGossip], current.IsQuiet leaving.name leaving.clock := by
    intro current member
    cases List.mem_singleton.1 member
    intro operation none
    cases none
  have holds := departure_lasts_iff_unanswered reachable_watcher foreign_watcher [] rfl rfl newer
    quiet 1 2 leaving.name
  rcases (holds true).2.2 rfl with ⟨row, found, online, -, beyond⟩
  exact ⟨(holds false).2.1.2 rfl, row, found, online, beyond⟩

/--
The ack of a probe carries the departure of the member that sends it.  The departure is merged,
and the probe, which is answered, makes the member online again.
-/
theorem departure_is_undone_by_answer :
    let begun := (beginCheck leaving.name watcher).state
    let packet : Packet :=
      { source := leaving.name, payload := .ack watcher.nextRequest [leaving] }
    let told := (receive 1 packet begun).state
    let concluded := concludeCheck watcher.nextRequest told
    let recorded := (recordProbe 1 leaving.name concluded.answer concluded.state).state.table
    watcher.table.Reachable ∧ begun.table.clockOf leaving.name < leaving.clock ∧
      told.table.HasDeparted leaving.name leaving.clock ∧
      ¬recorded.HasDeparted leaving.name leaving.clock := by
  intro begun packet told concluded recorded
  have answered : concluded.answer = true :=
    answer_concludeCheck_of_ack foreign_watcher leaving.name [leaving] 1
  have newer : begun.table.clockOf leaving.name < leaving.clock :=
    Nat.lt_of_le_of_lt (Nat.le_of_eq clockOf_watcher) (by decide)
  have another : leaving.name ≠ begun.name := foreign_watcher
  have merged : told.table = (watcher.table.merge 1 leaving.name leaving).table :=
    table_receive_ack another 1 watcher.nextRequest [leaving]
  have reached := reachable_watcher.perform (.merge 1 leaving.name leaving)
  have departed : told.table.HasDeparted leaving.name leaving.clock := by
    rw [merged]
    exact reachable_watcher.sound.hasDeparted_merge foreign_watcher rfl newer 1 leaving.name
  have table : concluded.state.table = told.table := table_concludeCheck told watcher.nextRequest
  have timely : concluded.state.table.Timely := by
    rw [table, merged]
    exact reached.timely
  have foreign : leaving.name ≠ concluded.state.table.own.name := by
    rw [table, merged]
    have kept := reachable_watcher.sound.name_perform (.merge 1 leaving.name leaving)
    exact kept.symm ▸ foreign_watcher
  rw [← table] at departed
  rcases (table_recordProbe_of_hasDeparted timely foreign departed 1).2 with ⟨row, found, online, -⟩
  rw [table] at departed
  refine ⟨reachable_watcher, newer, departed, ?_⟩
  rintro ⟨other, present, offline, -⟩
  have same : recorded.find? leaving.name = some row := by
    rw [← found, ← answered]
  rw [same] at present
  cases present
  exact nomatch online.symm.trans offline

end Participant

end ClusterMembership
