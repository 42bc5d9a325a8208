import ClusterMembership.Proofs.Table.Expiry
import Mathlib.Data.List.Chain

/-!
# Strict and lenient updates

An update of the node itself is strict and an entry of another node is taken leniently.  The two
differ only where the update is newer and the transition table forbids the move from the status
that the row has; a strict update fails there, and all that remains of it is that its clock was
seen, `Consistent.update_strict_of_rejected`.  Everywhere else it is the same update,
`update_strict_eq_lenient`.

So as long as nothing is merged the status of a row only makes moves that the transition table
allows: strict updates check it, and the moves of a sweep and the departure of the node itself are
in the table, `Reachable.permits_perform`.
-/

namespace ClusterMembership

namespace Member

theorem permits_iff {member : Member} {status : Status} :
    member.permits status = true ↔
      (0 < member.clock → member.status.canTransition status = true) := by
  rw [permits, isObserved, Bool.or_eq_true, Bool.not_eq_true', decide_eq_false_iff_not,
    imp_iff_not_or]

theorem permits_self (member : Member) : member.permits member.status = true := by
  rw [permits, Status.canTransition]
  simp

end Member

namespace Table

variable
    {table : Table}
    {name : MemberName}
    {status : Status}
    {clock : Nat}
    {now : Instant}
    {metadata : Option Metadata}
    {row : Member}

/-! ## What a strict update turns away -/

theorem rejects_strict_iff :
    Policy.strict.rejects row status clock = true ↔
      0 < row.clock ∧ row.clock < clock ∧ row.status.canTransition status = false := by
  rw [Policy.rejects, Bool.and_eq_true, Bool.and_eq_true, Bool.not_eq_true',
    ← Bool.not_eq_true (row.permits status), Member.permits_iff, Member.isOlderThan]
  simp only [decide_eq_true_eq, true_and, not_forall, Bool.not_eq_true, exists_prop]
  exact and_left_comm

theorem rejects_lenient (row : Member) (status : Status) (clock : Nat) :
    Policy.lenient.rejects row status clock = false :=
  rfl

/-- A strict update fails just if the row that there is turns it away. -/
theorem Consistent.answer_apply_eq_error_iff
    (consistent : table.Consistent)
    {cause : GossipError} :
    (table.apply now name status clock metadata).answer = .error cause ↔
      name ≠ table.own.name ∧ ∃ row, table.find? name = some row ∧ 0 < row.clock ∧
        row.clock < clock ∧ row.status.canTransition status = false ∧
        cause = .invalidTransition name row.status status := by
  by_cases own : name = table.own.name
  · rw [own, apply, update_own]
    exact iff_of_false (by simp) fun turned => turned.1 rfl
  rw [apply, consistent.answer_update_other .strict now status clock metadata own,
    find?_of_foreign own, rowFor, and_iff_right own]
  cases known : table.other? name with
  | none =>
    -- Nothing is known of a new row, so nothing is forbidden to it.
    rw [if_neg fun rejected => Nat.lt_irrefl 0 (rejects_strict_iff.1 rejected).1]
    exact iff_of_false (by simp) (by simp)
  | some row =>
    simp only [Option.getD_some, Option.some.injEq, exists_eq_left']
    by_cases rejected : Policy.strict.rejects row status clock = true
    · rw [if_pos rejected]
      rcases rejects_strict_iff.1 rejected with ⟨observed, newer, forbidden⟩
      simp [observed, newer, forbidden, eq_comm]
    · rw [if_neg rejected]
      refine iff_of_false (by simp) fun turned => rejected ?_
      exact rejects_strict_iff.2 ⟨turned.1, turned.2.1, turned.2.2.1⟩

/-- Of a strict update that fails only its clock was seen. -/
theorem Consistent.apply_of_error
    (consistent : table.Consistent)
    {cause : GossipError}
    (failed : (table.apply now name status clock metadata).answer = .error cause) :
    table.apply now name status clock metadata =
      { answer := .error cause, table := table.observe clock, changes := [] } := by
  rcases consistent.answer_apply_eq_error_iff.1 failed with
    ⟨foreign, row, found, observed, newer, forbidden, rfl⟩
  have known : table.other? name = some row := (find?_of_foreign foreign).symm.trans found
  have rows : table.rowFor name now = row := by rw [rowFor, known, Option.getD_some]
  have rejected : Policy.strict.rejects row status clock = true :=
    rejects_strict_iff.2 ⟨observed, newer, forbidden⟩
  have kept : ((table.observe clock).insert name now).2 = table.observe clock :=
    (consistent.observe clock).insert_known now known
  rw [apply, consistent.update_eq_of_foreign .strict now status clock metadata foreign]
  simp only [rows, rejected, if_true, kept]

/-- A strict update that does not fail is the lenient one. -/
theorem Consistent.apply_of_ok
    (consistent : table.Consistent)
    {changed : Bool}
    (accepted : (table.apply now name status clock metadata).answer = .ok changed) :
    table.apply now name status clock metadata =
      table.update .lenient now name status clock metadata := by
  by_cases own : name = table.own.name
  · rw [own, apply, update_own, update_own]
  have taken : ¬Policy.strict.rejects (table.rowFor name now) status clock = true := by
    intro rejected
    rw [apply, consistent.answer_update_other .strict now status clock metadata own,
      if_pos rejected] at accepted
    cases accepted
  rw [apply, consistent.update_eq_of_foreign .strict now status clock metadata own,
    consistent.update_eq_of_foreign .lenient now status clock metadata own]
  simp only [taken, rejects_lenient, Bool.false_eq_true, if_false]

/-! ## Receipts do not bear on updates -/

/-- The same table with other receipts. -/
def withAcks (table : Table) (acks : Std.ExtHashMap (MemberName × MemberName) Nat) : Table :=
  { table with acks }

section Receipts

variable (acks : Std.ExtHashMap (MemberName × MemberName) Nat)

theorem refute_withAcks (table : Table) (status : Status) (clock : Nat) :
    (table.withAcks acks).refute status clock = (table.refute status clock).withAcks acks := by
  rw [refute_eq, refute_eq, withAcks]
  split <;> rfl

theorem place_withAcks (table : Table) (member : Member) :
    (table.withAcks acks).place member =
      ((table.place member).1, (table.place member).2.withAcks acks) := by
  rw [place, place, withAcks]
  dsimp only
  split <;> rfl

theorem insert_withAcks (table : Table) (name : MemberName) (now : Instant) :
    ((table.withAcks acks).insert name now).2 = (table.insert name now).2.withAcks acks := by
  have own : (table.withAcks acks).isOwn name = table.isOwn name := rfl
  have handle : (table.withAcks acks).handle? name = table.handle? name := rfl
  rw [insert, insert, own, handle, place_withAcks]
  split
  · rfl
  · split <;> rfl

theorem setOther_withAcks (table : Table) (member : Member) :
    (table.withAcks acks).setOther member = (table.setOther member).withAcks acks := by
  rw [setOther, setOther, withAcks]
  dsimp only
  split <;> rfl

/-- An update does the same whatever receipts there are, and keeps them. -/
theorem Consistent.update_withAcks
    (consistent : table.Consistent)
    (policy : Policy) :
    (table.withAcks acks).update policy now name status clock metadata =
      { table.update policy now name status clock metadata with
        table := (table.update policy now name status clock metadata).table.withAcks acks } := by
  have observed : (table.withAcks acks).observe clock = (table.observe clock).withAcks acks := rfl
  by_cases own : name = table.own.name
  · subst own
    rw [update_own]
    have answered := @update_own (table.withAcks acks) policy now status clock metadata
    rw [observed, refute_withAcks] at answered
    exact answered
  · have consistentToo : (table.withAcks acks).Consistent :=
      consistent.of_sameArena rfl rfl rfl rfl
    have foreign : name ≠ (table.withAcks acks).own.name := own
    have rows : (table.withAcks acks).rowFor name now = table.rowFor name now := rfl
    rw [consistent.update_eq_of_foreign policy now status clock metadata own,
      consistentToo.update_eq_of_foreign policy now status clock metadata foreign]
    simp only [observed, rows, insert_withAcks, setOther_withAcks]
    split <;> rfl

/-- Merging an entry is the lenient update with the receipt of it in addition. -/
theorem Consistent.merge_eq_update
    (consistent : table.Consistent)
    {changed : Bool}
    (source : MemberName)
    (accepted : (table.update .lenient now name status clock metadata).answer = .ok changed) :
    table.merge now source { name, clock, status, metadata } =
      { answer := changed
        table := (table.update .lenient now name status clock metadata).table.withAcks
          (table.recordAck source name clock).acks
        changes := (table.update .lenient now name status clock metadata).changes } := by
  have recorded : table.recordAck source name clock =
      table.withAcks (table.recordAck source name clock).acks := rfl
  rw [merge]
  dsimp only
  rw [recorded, consistent.update_withAcks]
  simp only [accepted]
  rfl

end Receipts

/-! ## One operation -/

section Step

variable
    {operation : Operation}
    {later : Member}
    {subject : Subject}

/-- The operation takes an entry of another node. -/
def Operation.Merges (operation : Operation) : Prop :=
  ∃ now source entry, operation = .merge now source entry

theorem permits_updated_strict
    (row : Member)
    (now : Instant)
    (status : Status)
    (clock : Nat)
    (metadata : Option Metadata) :
    row.permits (row.updated .strict now status clock metadata).status = true := by
  have merged (member : Member) : (member.mergeMetadata? metadata).status = member.status :=
    Member.status_mergeMetadata? member metadata
  rw [Member.updated]
  split
  · exact row.permits_self
  · rename_i taken
    rw [merged, Member.accept]
    split
    · rename_i newer
      rw [Policy.rejects, newer] at taken
      simpa using taken
    · exact row.permits_self

/-- A sweep moves a row on as the transition table allows, or leaves it. -/
theorem Timely.permits_expire
    (timely : table.Timely)
    {wall asOf : Instant}
    {timeouts : Timeouts}
    (before : table.other? name = some row)
    (after : (table.expire wall asOf timeouts).table.other? name = some later) :
    row.permits later.status = true := by
  rcases timely.other?_eq_some_iff.1 before with ⟨member, rfl⟩
  cases due : timeouts.step asOf row with
  | advance status =>
    rw [timely.other?_expire_of_movesOn member (Timeouts.step_eq_advance_iff.1 due)] at after
    cases after
    exact permits_of_step due
  | prune =>
    rw [timely.other?_expire_of_runsOut member (Timeouts.step_eq_prune_iff.1 due)] at after
    cases after
  | stay =>
    rw [timely.other?_expire_of_stays member] at after
    · cases after
      exact row.permits_self
    · intro status moves
      rw [moves.step_eq] at due
      cases due
    · intro runsOut
      rw [runsOut.step_eq] at due
      cases due

/-- A row that an operation leaves alone is permitted what it is. -/
theorem permits_of_kept
    {changed : Table}
    (before : table.other? name = some row)
    (after : changed.other? name = some later)
    (kept : changed.other? name = table.other? name) :
    row.permits later.status = true := by
  rw [kept, before] at after
  cases after
  exact row.permits_self

/-- A strict update moves a row on as the transition table allows, or leaves it. -/
theorem Timely.permits_apply
    (timely : table.Timely)
    {about : MemberName}
    (before : table.other? name = some row)
    (after : (table.apply now about status clock metadata).table.other? name = some later) :
    row.permits later.status = true := by
  by_cases own : about = table.own.name
  · subst own
    have arena := @arena_update_own table .strict now status clock metadata
    exact permits_of_kept before after (congrFun (other?_congr arena.1 arena.2.1) name)
  · have moved := timely.other?_update .strict now status clock metadata own name
    by_cases same : name = about
    · subst same
      rw [if_pos rfl, rowFor, before, Option.getD_some] at moved
      cases moved.symm.trans after
      exact permits_updated_strict row now status clock metadata
    · rw [if_neg same] at moved
      exact permits_of_kept before after moved

theorem Timely.permits_perform_other
    (timely : table.Timely)
    (unmerged : ¬operation.Merges)
    (before : table.other? name = some row)
    (after : (table.perform operation).other? name = some later) :
    row.permits later.status = true := by
  have kept := permits_of_kept before after
  cases operation with
  | apply now about status clock metadata => exact timely.permits_apply before after
  | merge now source entry => exact absurd ⟨now, source, entry, rfl⟩ unmerged
  | observe clock => exact kept (congrFun (other?_congr rfl rfl) name)
  | tick => exact kept (congrFun (other?_congr rfl rfl) name)
  | recordAcks peer acks =>
    rcases recordAcks_eq table peer acks with ⟨recorded, same⟩
    apply kept
    rw [Table.perform, same]
    exact congrFun (other?_congr rfl rfl) name
  | expire wall asOf timeouts => exact timely.permits_expire before after
  | setMetadata payload => exact kept (congrFun (other?_congr rfl rfl) name)
  | leave now =>
    have arena := arena_leave table now
    exact kept (congrFun (other?_congr arena.1 arena.2) name)
  | insert about now =>
    apply kept
    by_cases own : about = table.own.name
    · rw [Table.perform, own, insert_own]
    · rw [Table.perform, timely.other?_insert now own]
      split
      · rename_i same
        rw [← same, before, Option.getD_some]
      · rfl
  | takeInserted => exact kept (congrFun (other?_congr rfl rfl) name)

theorem Reachable.permits_perform_own (reachable : table.Reachable) (operation : Operation) :
    table.own.permits (table.perform operation).own.status = true := by
  rcases reachable.sound.perform_cases operation with defends | ⟨payload, rfl⟩ | ⟨now, rfl, present⟩
  · rw [defends.status]
    exact table.own.permits_self
  · rw [Table.perform, reachable.sound.own_setMetadata]
    exact table.own.permits_self
  · have online : table.own.status = .online := by
      rw [reachable.announced, present]
      rfl
    rw [Table.perform, own_leave present, Member.permits_iff, online]
    exact fun _ => rfl

/-- Without merging, no operation makes a forbidden move. -/
theorem Reachable.permits_perform
    (reachable : table.Reachable)
    (unmerged : ¬operation.Merges)
    (before : table.row? subject = some row)
    (after : (table.perform operation).row? subject = some later) :
    row.permits later.status = true := by
  cases subject with
  | own =>
    cases before
    cases after
    exact reachable.permits_perform_own operation
  | handle handle =>
    have sound := reachable.sound
    have named : later.name = row.name := sound.name_resolve?_perform before after
    have known := (sound.resolve?_eq_some_iff.1 before).2
    have knownAfter := ((sound.perform operation).resolve?_eq_some_iff.1 after).2
    rw [named] at knownAfter
    exact reachable.timely.permits_perform_other unmerged known knownAfter

end Step

/-! ## The course of a member -/

section Course

variable
    {operation : Operation}
    {operations : List Operation}
    {subject : Subject}
    {later : Member}

/-- The status of a member that was observed and is in the table. -/
def standing? (table : Table) (subject : Subject) : Option Status :=
  (table.row? subject).bind fun row => if 0 < row.clock then some row.status else none

/-- The statuses of a member, before the operations and after each of them. -/
def course (table : Table) (operations : List Operation) (subject : Subject) : List Status :=
  (operations.scanl perform table).filterMap fun stage => stage.standing? subject

theorem standing?_eq_some_iff :
    table.standing? subject = some status ↔
      ∃ row, table.row? subject = some row ∧ 0 < row.clock ∧ row.status = status := by
  simp [standing?, Option.bind_eq_some_iff]

theorem course_nil (table : Table) (subject : Subject) :
    table.course [] subject = (table.standing? subject).toList := by
  rw [course, List.scanl_nil]
  cases standing : table.standing? subject <;> simp [standing]

theorem course_cons
    (table : Table)
    (operation : Operation)
    (rest : List Operation)
    (subject : Subject) :
    table.course (operation :: rest) subject =
      (table.standing? subject).toList ++ (table.perform operation).course rest subject := by
  rw [course, List.scanl_cons, course]
  cases standing : table.standing? subject <;> simp [standing]

/-- Whatever is on the course, the member is in the table then. -/
theorem exists_of_mem_course (among : status ∈ table.course operations subject) :
    ∃ earlier row, earlier <+: operations ∧ (table.performAll earlier).row? subject = some row := by
  induction operations generalizing table with
  | nil =>
    rw [course_nil, Option.mem_toList] at among
    rcases standing?_eq_some_iff.1 among with ⟨row, found, -⟩
    exact ⟨[], row, List.nil_prefix, found⟩
  | cons operation rest step =>
    rw [course_cons, List.mem_append, Option.mem_toList] at among
    rcases among with now | later
    · rcases standing?_eq_some_iff.1 now with ⟨row, found, -⟩
      exact ⟨[], row, List.nil_prefix, found⟩
    · rcases step later with ⟨earlier, row, within, found⟩
      exact ⟨operation :: earlier, row, List.cons_prefix_cons.2 ⟨rfl, within⟩, found⟩

/-- What comes next on the course of an observed member is the status that the operation left. -/
theorem Reachable.next_on_course
    (reachable : table.Reachable)
    (before : table.row? subject = some row)
    (observed : 0 < row.clock)
    (next : status ∈ ((table.perform operation).course operations subject).head?) :
    ∃ later, (table.perform operation).row? subject = some later ∧ later.status = status := by
  -- A member that is gone does not come back to its handle, so nothing is left of its course.
  have present : ∃ later, (table.perform operation).row? subject = some later := by
    rcases exists_of_mem_course (List.mem_of_mem_head? next) with ⟨earlier, last, -, found⟩
    cases subject with
    | own => exact ⟨_, rfl⟩
    | handle handle => exact reachable.sound.resolves_perform before found
  rcases present with ⟨later, found⟩
  refine ⟨later, found, ?_⟩
  have after : (table.performAll [operation]).row? subject = some later := found
  have follows : later.Follows row := reachable.follows_performAll before after
  have standing : (table.perform operation).standing? subject = some later.status :=
    standing?_eq_some_iff.2 ⟨later, found, Nat.lt_of_lt_of_le observed follows.clock, rfl⟩
  cases operations with
  | nil =>
    rw [course_nil, standing] at next
    exact Option.some.inj next
  | cons following rest =>
    rw [course_cons, standing] at next
    exact Option.some.inj next

/-- Without merging, the course of a member is a path in the transition table. -/
theorem Reachable.isChain_course
    (reachable : table.Reachable)
    (unmerged : ∀ operation ∈ operations, ¬operation.Merges)
    (subject : Subject) :
    (table.course operations subject).IsChain
      (fun source target => source.canTransition target = true) := by
  induction operations generalizing table with
  | nil =>
    rw [course_nil]
    cases table.standing? subject with
    | none => exact .nil
    | some status => exact .singleton status
  | cons operation rest step =>
    have others := step (reachable.perform operation) fun other among =>
      unmerged other (List.mem_cons_of_mem operation among)
    rw [course_cons]
    cases standing : table.standing? subject with
    | none => exact others
    | some status =>
      rcases standing?_eq_some_iff.1 standing with ⟨row, before, observed, rfl⟩
      refine List.isChain_cons.2 ⟨fun next following => ?_, others⟩
      rcases reachable.next_on_course before observed following with ⟨later, after, rfl⟩
      have permitted :=
        reachable.permits_perform (unmerged operation List.mem_cons_self) before after
      exact Member.permits_iff.1 permitted observed

end Course

/--
Strict application is legal, it fails without a trace but for the clock, and otherwise it is
merging.  In any table that some node may have:

A strict update fails just if it is about another member that is known and was observed, is newer
than what its row has, and the transition table forbids the move; the error says which move of
whom.  Then the logical clock has seen the clock of the update, and that is all: no row, no
receipt, no handle and nothing else of the table is different, and nobody is notified.

If it does not fail, then merging the same entry, from whatever source, gives the same answer and
the same notifications, and leaves the same table with the receipt of the entry in addition; the
strict update records no receipt.

So as long as nothing is merged, the statuses of a member, from when it was observed until it is
dropped, are a path in the transition table, whatever else is done.
-/
theorem strict_application_is_legal
    (reachable : table.Reachable)
    (now : Instant)
    (name : MemberName)
    (status : Status)
    (clock : Nat)
    (metadata : Option Metadata) :
    let applied := table.apply now name status clock metadata
    (∀ cause, applied.answer = .error cause ↔
      name ≠ table.own.name ∧ ∃ row, table.find? name = some row ∧ 0 < row.clock ∧
        row.clock < clock ∧ row.status.canTransition status = false ∧
        cause = .invalidTransition name row.status status) ∧
    (∀ cause, applied.answer = .error cause →
      applied.table = { table with clock := max table.clock clock } ∧ applied.changes = []) ∧
    (∀ changed, applied.answer = .ok changed → applied.table.acks = table.acks ∧
      ∀ source,
        let merged := table.merge now source { name, clock, status, metadata }
        merged.answer = changed ∧ merged.changes = applied.changes ∧
          merged.table =
            { applied.table with acks := (table.recordAck source name clock).acks }) ∧
    ∀ operations, (∀ operation ∈ operations, ¬operation.Merges) → ∀ subject,
      (table.course operations subject).IsChain
        (fun source target => source.canTransition target = true) := by
  intro applied
  have consistent := reachable.sound.toConsistent
  refine ⟨fun cause => consistent.answer_apply_eq_error_iff, fun cause failed => ?failed,
    fun changed accepted => ⟨consistent.acks_update .strict now status clock metadata name,
      fun source => ?merged⟩, fun operations => reachable.isChain_course⟩
  case failed =>
    have whole : applied = _ := consistent.apply_of_error failed
    rw [whole]
    exact ⟨rfl, rfl⟩
  case merged =>
    have lenient : applied = table.update .lenient now name status clock metadata :=
      consistent.apply_of_ok accepted
    rw [lenient] at accepted ⊢
    rw [consistent.merge_eq_update source accepted]
    exact ⟨rfl, rfl, rfl⟩

/--
A member is online at clock five.  To be unavailable at clock six is forbidden to it, and to be
suspect then is not; a sweep follows.
-/
theorem strict_application_is_legal_suspicion :
    let name : MemberName := { text := "10.0.0.1:7946" }
    let peer : MemberName := { text := "10.0.0.2:7946" }
    let table := (start name [] [] 0).perform (.apply 7 peer .online 5 none)
    let sweep : Operation := .expire 20 20 { suspect := 5, unavailable := 5, retention := 5 }
    (table.apply 9 peer .unavailable 6 none).answer =
      .error (.invalidTransition peer .online .unavailable) ∧
    (table.apply 9 peer .unavailable 6 none).changes = [] ∧
    (table.merge 9 peer { name := peer, clock := 6, status := .suspect, metadata := none }).answer =
      true ∧
    (table.course [.apply 9 peer .suspect 6 none, sweep] (.handle ⟨0, 0⟩)).IsChain
      (fun source target => source.canTransition target = true) := by
  intro name peer table sweep
  have started := reachable_start name [] [] 0
  have reachable : table.Reachable := started.perform (.apply 7 peer .online 5 none)
  have apart : peer ≠ (start name [] [] 0).own.name := by
    rw [own_start]
    decide
  have foreign : peer ≠ table.own.name := by
    rw [started.sound.name_perform]
    exact apart
  have known : table.other? peer = some
      { name := peer, status := .online, clock := 5, statusTime := 7, metadata := .unknown } := by
    have applied := started.sound.other?_update .strict 7 .online 5 none apart peer
    have alone : (start name [] [] 0).other? peer = none := by simp [start, other?]
    rw [if_pos rfl, rowFor, alone] at applied
    exact applied
  have rows : table.rowFor peer 9 =
      { name := peer, status := .online, clock := 5, statusTime := 7, metadata := .unknown } := by
    rw [rowFor, known, Option.getD_some]
  have suspected : (table.apply 9 peer .suspect 6 none).answer = .ok true := by
    rw [apply, reachable.sound.answer_update_other .strict 9 .suspect 6 none foreign, rows]
    rfl
  have refused := strict_application_is_legal reachable 9 peer .unavailable 6 none
  have taken := strict_application_is_legal reachable 9 peer .suspect 6 none
  have failed : (table.apply 9 peer .unavailable 6 none).answer =
      .error (.invalidTransition peer .online .unavailable) := by
    refine (refused.1 _).2 ⟨foreign, _, (find?_of_foreign foreign).trans known, ?_⟩
    decide
  refine ⟨failed, (refused.2.1 _ failed).2, ((taken.2.2.1 true suspected).2 peer).1, ?_⟩
  refine taken.2.2.2 _ (fun operation among => ?_) _
  rintro ⟨now, source, entry, rfl⟩
  simp [sweep] at among

end Table

end ClusterMembership
