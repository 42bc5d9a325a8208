import ClusterMembership.Proofs.Table.Expiry

/-!
# How long a member is retained

A sweep drops a member when its row has been offline for the retention.  The time of a status is
kept for as long as the status is, so the row really has been offline for all of this time,
`Table.Lasting`, through however many merges and sweeps.

But a row of which nothing was heard is offline, too, from its insertion on.  If the first thing
that is heard of the member is that it left, the status stays and its time with it: so the
retention counts from the insertion of the row, and not from the update that was accepted.  The
member has been observed to be offline for the whole retention exactly where it had been observed
that long ago.
-/

namespace ClusterMembership

namespace Table

/-- An operation at an instant, which is the time that it puts into rows, if it puts any. -/
structure Dated where
  instant : Instant
  operation : Operation
  agrees : ∀ put, operation.instant? = some put → put = instant

/-- The table after a number of dated operations. -/
def performDated (table : Table) (diary : List Dated) : Table :=
  table.performAll (diary.map Dated.operation)

/-- No instant is before an earlier one, nor before the start. -/
def Chronological (startedAt : Instant) (diary : List Dated) : Prop :=
  (startedAt :: diary.map Dated.instant).Pairwise (· ≤ ·)

instance (startedAt : Instant) (diary : List Dated) : Decidable (Chronological startedAt diary) :=
  inferInstanceAs (Decidable (List.Pairwise (· ≤ ·) (startedAt :: diary.map Dated.instant)))

/-- The instant of the last operation, or of the start. -/
def latest (startedAt : Instant) (diary : List Dated) : Instant :=
  (diary.map Dated.instant).getLastD startedAt

/--
A member that a handle was issued for has had a property for some duration: it had it at an
instant that is so long ago, and after every operation since.
-/
def Lasting
    (table : Table)
    (startedAt : Instant)
    (diary : List Dated)
    (handle : Handle)
    (now : Instant)
    (duration : Nat)
    (property : Member → Prop) :
    Prop :=
  ∃ earlier later, diary = earlier ++ later ∧ latest startedAt earlier + duration ≤ now ∧
    ∀ sofar rest, later = sofar ++ rest →
      ∃ row, (table.performDated (earlier ++ sofar)).resolve? handle = some row ∧ property row

/-! ## Instants -/

section Instants

variable {startedAt : Instant}

theorem latest_mem (startedAt : Instant) (diary : List Dated) :
    latest startedAt diary ∈ startedAt :: diary.map Dated.instant :=
  List.getLastD_mem_cons

@[simp]
theorem latest_concat (startedAt : Instant) (diary : List Dated) (entry : Dated) :
    latest startedAt (diary ++ [entry]) = entry.instant := by
  simp [latest]

/-- What was done earlier was not done at a later instant. -/
theorem Chronological.latest_le
    {earlier later : List Dated}
    (chronological : Chronological startedAt (earlier ++ later)) :
    latest startedAt earlier ≤ latest startedAt (earlier ++ later) := by
  rcases List.eq_nil_or_concat later with rfl | ⟨middle, last, rfl⟩
  · exact Nat.le_of_eq (by rw [List.append_nil])
  · rw [List.concat_eq_append, ← List.append_assoc] at chronological ⊢
    rw [latest_concat]
    have before := latest_mem startedAt earlier
    rw [Chronological, List.map_append, ← List.cons_append, List.pairwise_append] at chronological
    refine chronological.2.2 _ ?_ _ (List.mem_map.2 ⟨last, List.mem_singleton_self last, rfl⟩)
    rw [List.map_append, ← List.cons_append]
    exact List.mem_append_left _ before

end Instants

/-! ## Who is dropped -/

section Dropped

variable
    {table : Table}
    {wall asOf : Instant}
    {timeouts : Timeouts}
    {handle : Handle}
    {row : Member}

/-- A handle does not survive a sweep exactly where its member has been offline for long enough. -/
theorem Reachable.resolve?_expire_eq_none_iff
    (reachable : table.Reachable)
    (resolves : table.resolve? handle = some row) :
    (table.expire wall asOf timeouts).table.resolve? handle = none ↔
      timeouts.RunsOut asOf row := by
  have sound := reachable.sound
  have swept := sound.perform (.expire wall asOf timeouts)
  rcases sound.resolve?_eq_some_iff.1 resolves with ⟨held, known⟩
  have member := (sound.other?_eq_some_iff.1 known).1
  constructor
  · intro expired
    by_contra stays
    have kept : ∀ time, 0 ≤ time → time < 1 →
        ¬table.DroppedAt [.expire wall asOf timeouts] time row.name := by
      rintro time - first ⟨operation, performed, drops⟩
      obtain rfl : time = 0 := by omega
      cases performed
      exact stays ((sound.dropped_iff_runsOut member).1 drops)
    have still : (table.tableAt [.expire wall asOf timeouts] 1).handle? row.name = some handle :=
      reachable.held_of_not_dropped (Nat.zero_le 1) held kept
    rcases swept.resolve?_of_handle? still with ⟨later, found, -⟩
    have none : (table.perform (.expire wall asOf timeouts)).resolve? handle = none := expired
    rw [none] at found
    cases found
  · intro runsOut
    rcases (sound.rearranges_perform (.expire wall asOf timeouts)).resolve?_or_vacated
      sound.toConsistent swept.toConsistent resolves with ⟨later, found, named⟩ | vacated
    · have gone : (table.perform (.expire wall asOf timeouts)).other? row.name = none :=
        reachable.timely.other?_expire_of_runsOut member runsOut
      have present := (swept.resolve?_eq_some_iff.1 found).2
      rw [named, gone] at present
      cases present
    · exact resolve?_eq_none_of_vacated vacated

end Dropped

/-! ## What has lasted -/

section Lasting

variable
    {name : MemberName}
    {metadata : Bytes}
    {seeds : List MemberName}
    {startedAt now : Instant}
    {diary : List Dated}
    {handle : Handle}
    {row : Member}

/-- A status has lasted for as long as its time says. -/
theorem exists_lasting_status
    (chronological : Chronological startedAt diary)
    (current : latest startedAt diary ≤ now)
    (resolves : ((start name metadata seeds startedAt).performDated diary).resolve? handle =
      some row)
    {duration : Nat}
    (elapsed : duration ≤ now - row.statusTime) :
    (start name metadata seeds startedAt).Lasting startedAt diary handle now duration
      (fun later => later.status = row.status) := by
  have found : ((start name metadata seeds startedAt).performDated diary).row? (.handle handle) =
      some row := resolves
  rcases exists_steady name metadata seeds startedAt found with
    ⟨before, after, split, steady, origin⟩
  rcases List.map_eq_append_iff.1 split with ⟨earlier, later, rfl, rfl, rfl⟩
  have time : latest startedAt earlier = row.statusTime := by
    rcases origin with ⟨nothing, time⟩ | ⟨others, operation, last, put, -⟩
    · rw [List.map_eq_nil_iff.1 nothing]
      exact time.symm
    · rcases List.map_eq_append_iff.1 last with ⟨sofar, ending, rfl, rfl, single⟩
      rcases List.map_eq_singleton_iff.1 single with ⟨entry, rfl, rfl⟩
      rw [latest_concat]
      exact (entry.agrees _ put).symm
  refine ⟨earlier, later, rfl, ?_, ?_⟩
  · have past := Nat.le_trans chronological.latest_le current
    rw [time] at past ⊢
    exact Nat.add_le_of_le_sub' past elapsed
  · rintro sofar rest rfl
    rcases steady (sofar.map Dated.operation) (rest.map Dated.operation) (List.map_append) with
      ⟨old, found, status, -⟩
    refine ⟨old, ?_, status⟩
    rw [performDated, List.map_append, performAll_append]
    exact found

/-- A member that is in the table at two moments has not been forgotten in between. -/
theorem Reachable.clock_le_performDated
    {table : Table}
    (reachable : table.Reachable)
    {earlier more : List Dated}
    {heard : Member}
    (before : (table.performDated earlier).resolve? handle = some heard)
    (after : (table.performDated (earlier ++ more)).resolve? handle = some row) :
    heard.clock ≤ row.clock := by
  rw [performDated, List.map_append, performAll_append] at after
  have present : (table.performDated earlier).row? (.handle handle) = some heard := before
  exact ((reachable.performAll (earlier.map Dated.operation)).follows_performAll present after).clock

/-- What has lasted has lasted with the member observed, if it was observed that long ago. -/
theorem Lasting.observed
    {table : Table}
    {property : Member → Prop}
    {duration : Nat}
    (lasting : table.Lasting startedAt diary handle now duration property)
    (reachable : table.Reachable)
    {earlier later : List Dated}
    (split : diary = earlier ++ later)
    (long : latest startedAt earlier + duration ≤ now)
    {heard : Member}
    (found : (table.performDated earlier).resolve? handle = some heard)
    (observed : 0 < heard.clock) :
    table.Lasting startedAt diary handle now duration
      (fun row => 0 < row.clock ∧ property row) := by
  rcases lasting with ⟨since, following, same, ago, holds⟩
  -- Both have been the case from the later one of the two moments on.
  rcases List.append_eq_append_iff.1 (split.symm.trans same) with
    ⟨middle, rfl, rfl⟩ | ⟨middle, rfl, rfl⟩
  · refine ⟨earlier ++ middle, following, same, ago, ?_⟩
    intro sofar rest whole
    rcases holds sofar rest whole with ⟨row, resolves, has⟩
    have further := resolves
    rw [List.append_assoc] at further
    have newer := reachable.clock_le_performDated found further
    exact ⟨row, resolves, Nat.lt_of_lt_of_le observed newer, has⟩
  · refine ⟨since ++ middle, later, split, long, ?_⟩
    rintro sofar rest rfl
    rcases holds (middle ++ sofar) rest (List.append_assoc _ _ _).symm with ⟨row, resolves, has⟩
    rw [← List.append_assoc] at resolves
    have newer := reachable.clock_le_performDated found resolves
    exact ⟨row, resolves, Nat.lt_of_lt_of_le observed newer, has⟩

end Lasting

/--
Whoever a sweep drops has been offline for the whole retention, in every run in which time does
not go back, with any seeds and whatever was done: merges, updates and sweeps.  Its row is
observed.  But it need not have been observed for all of this time: it has been observed and
offline for the whole retention if and only if it had been observed at some moment that long ago.
A row of which nothing was heard counts as offline from its insertion on, and goes on to count if
the first update that is accepted says that the member is offline.  A member whose row was never
without an observation is not concerned.
-/
theorem retention_counts_from_observation_iff
    (name : MemberName)
    (metadata : Bytes)
    (seeds : List MemberName)
    {startedAt now : Instant}
    {diary : List Dated}
    (chronological : Chronological startedAt diary)
    (current : latest startedAt diary ≤ now)
    (wall : Instant)
    (timeouts : Timeouts)
    {handle : Handle}
    {row : Member}
    (before : ((start name metadata seeds startedAt).performDated diary).resolve? handle = some row)
    (after : (((start name metadata seeds startedAt).performDated diary).expire wall now
      timeouts).table.resolve? handle = none) :
    let start := start name metadata seeds startedAt
    row.status = .offline ∧ 0 < row.clock ∧
    start.Lasting startedAt diary handle now timeouts.retention
      (fun row => row.status = .offline) ∧
    (start.Lasting startedAt diary handle now timeouts.retention
        (fun row => 0 < row.clock ∧ row.status = .offline) ↔
      ∃ earlier later heard, diary = earlier ++ later ∧
        latest startedAt earlier + timeouts.retention ≤ now ∧
        (start.performDated earlier).resolve? handle = some heard ∧ 0 < heard.clock) ∧
    ((∀ earlier later held, diary = earlier ++ later →
        (start.performDated earlier).resolve? handle = some held → 0 < held.clock) →
      start.Lasting startedAt diary handle now timeouts.retention
        (fun row => 0 < row.clock ∧ row.status = .offline)) := by
  intro start
  have started : start.Reachable := reachable_start name metadata seeds startedAt
  have runsOut := ((started.performAll _).resolve?_expire_eq_none_iff before).1 after
  have lasting := exists_lasting_status chronological current before runsOut.elapsed
  rw [runsOut.current] at lasting
  refine ⟨runsOut.current, runsOut.observed, lasting, ⟨?_, ?_⟩, ?_⟩
  · rintro ⟨earlier, later, split, long, holds⟩
    rcases holds [] later rfl with ⟨heard, found, observed, -⟩
    rw [List.append_nil] at found
    exact ⟨earlier, later, heard, split, long, found, observed⟩
  · rintro ⟨earlier, later, heard, split, long, found, observed⟩
    exact lasting.observed started split long found observed
  · intro always
    have ⟨earlier, later, split, long, holds⟩ := lasting
    rcases holds [] later rfl with ⟨held, found, -⟩
    rw [List.append_nil] at found
    exact lasting.observed started split long found (always earlier later held split found)

/-- A node that starts with a seed. -/
def seeded : Table :=
  start { text := "10.0.0.1:7946" } [] [{ text := "10.0.0.2:7946" }] 0

/-- What somebody else tells of the seed when it has left. -/
def seedFarewell : GossipEntry where
  name := { text := "10.0.0.2:7946" }
  clock := 5
  status := .offline
  metadata := none

/-- The farewell is the first that is heard of the seed. -/
def lateFarewell : List Dated :=
  [{ instant := 300
     operation := .merge 300 { text := "10.0.0.3:7946" } seedFarewell
     agrees := fun _ put => (Option.some.inj put).symm }]

/-- Timeouts with a retention that ends, counted from the start, when the farewell comes. -/
def seedTimeouts : Timeouts :=
  { suspect := 100, unavailable := 200, retention := 300 }

theorem other?_seeded :
    seeded.other? seedFarewell.name = some (Member.unobserved seedFarewell.name 0) := by
  have foreign : seedFarewell.name ≠ (start { text := "10.0.0.1:7946" } [] [] 0).own.name := by
    rw [own_start]
    decide
  have empty : (start { text := "10.0.0.1:7946" } [] [] 0).other? seedFarewell.name = none := by
    simp [start, other?]
  have inserted :=
    (consistent_start { text := "10.0.0.1:7946" } [] [] 0).other?_insert 0 foreign seedFarewell.name
  rw [if_pos rfl, empty] at inserted
  rw [seeded, start_eq_performAll]
  exact inserted

/-- The seed is dropped as soon as it is heard of. -/
theorem exists_dropped_seed :
    ∃ handle row, (seeded.performDated lateFarewell).resolve? handle = some row ∧
      ((seeded.performDated lateFarewell).expire 300 300 seedTimeouts).table.resolve? handle =
        none := by
  have started : seeded.Reachable := reachable_start _ _ _ _
  have reachable : (seeded.performDated lateFarewell).Reachable := started.performAll _
  have foreign : seedFarewell.name ≠ seeded.own.name := by
    rw [seeded, own_start]
    decide
  have heard := started.sound.other?_merge 300 { text := "10.0.0.3:7946" } foreign seedFarewell.name
  rw [if_pos rfl, rowFor, other?_seeded] at heard
  cases held : (seeded.performDated lateFarewell).handle? seedFarewell.name with
  | none =>
    have unknown := (reachable.sound.handle?_eq_none_iff seedFarewell.name).1 held
    cases heard.symm.trans unknown
  | some handle =>
    rcases reachable.sound.resolve?_of_handle? held with ⟨row, resolves, -, known⟩
    cases Option.some.inj (heard.symm.trans known)
    exact ⟨handle, _, resolves,
      (reachable.resolve?_expire_eq_none_iff resolves).2 ⟨by decide, rfl, by decide⟩⟩

/-- The row of the dropped seed has been offline for the whole retention, from its insertion on. -/
theorem retention_counts_from_observation_iff_seed :
    ∃ handle, Chronological 0 lateFarewell ∧
      seeded.Lasting 0 lateFarewell handle 300 300 (fun row => row.status = .offline) := by
  have chronological : Chronological 0 lateFarewell := by decide
  rcases exists_dropped_seed with ⟨handle, row, before, after⟩
  have holds := retention_counts_from_observation_iff { text := "10.0.0.1:7946" } []
    [{ text := "10.0.0.2:7946" }] chronological (Nat.le_refl 300) 300 seedTimeouts before after
  exact ⟨handle, chronological, holds.2.2.1⟩

/--
A seed that is first heard of when it has left is dropped at once, although it has not been
observed to be offline for any time.
-/
theorem dropped_without_retention :
    ∃ handle row, Chronological 0 lateFarewell ∧ latest 0 lateFarewell ≤ 300 ∧
      (seeded.performDated lateFarewell).resolve? handle = some row ∧
      ((seeded.performDated lateFarewell).expire 300 300 seedTimeouts).table.resolve? handle =
        none ∧
      ¬seeded.Lasting 0 lateFarewell handle 300 seedTimeouts.retention
        (fun row => 0 < row.clock ∧ row.status = .offline) := by
  rcases exists_dropped_seed with ⟨handle, row, before, after⟩
  refine ⟨handle, row, by decide, Nat.le_refl 300, before, after, ?_⟩
  rintro ⟨earlier, later, split, long, holds⟩
  cases earlier with
  | nil =>
    -- At the start, the row of the seed is not observed.
    rcases holds [] later rfl with ⟨old, found, observed, -⟩
    have known := ((reachable_start _ _ _ _).sound.resolve?_eq_some_iff.1 found).2
    rw [other?_start known] at observed
    exact Nat.lt_irrefl 0 observed
  | cons first rest =>
    -- After the farewell, no time has passed.
    rw [lateFarewell, List.cons_append, List.cons.injEq] at split
    rcases split with ⟨rfl, ends⟩
    rw [(List.nil_eq_append_iff.1 ends).1] at long
    exact absurd long (by decide)

end Table

end ClusterMembership
