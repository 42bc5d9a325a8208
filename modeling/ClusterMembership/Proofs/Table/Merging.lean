import ClusterMembership.Proofs.Table.Operation

/-!
# Merging takes the newest

Entries arrive from several peers, in any order and more than once.  Merged one after the
other, they leave for each member the newest of what was held and what was told: the status
with the newest clock, and apart from it the metadata with the newest metadata clock.  On a
tie the first one stays, and what was held comes before everything told.

`newest` is this choice from a list.  Where equal clocks mean equal values, it only depends
on which values there are, so neither the order of arrival nor a repetition matters.
-/

namespace ClusterMembership

/-! ## The newest of a list -/

section Newest

variable {α : Type} (clock : α → Nat)

/-- The first value with the newest clock, where the held value comes before the others. -/
def newest (held : α) (values : List α) : α :=
  values.foldl (fun best value => if clock best < clock value then value else best) held

@[simp]
theorem newest_nil (held : α) : newest clock held [] = held :=
  rfl

theorem newest_cons (held value : α) (values : List α) :
    newest clock held (value :: values) =
      newest clock (if clock held < clock value then value else held) values :=
  rfl

/-- The newest clock is the maximum of all clocks. -/
theorem clock_newest (held : α) (values : List α) :
    clock (newest clock held values) = (values.map clock).foldl max (clock held) := by
  induction values generalizing held with
  | nil => rfl
  | cons value values step =>
    rw [newest_cons, step, List.map_cons, List.foldl_cons]
    congr 1
    split
    · rename_i newer
      exact (Nat.max_eq_right (Nat.le_of_lt newer)).symm
    · rename_i older
      exact (Nat.max_eq_left (Nat.le_of_not_lt older)).symm

theorem newest_eq_or_mem (held : α) (values : List α) :
    newest clock held values = held ∨ newest clock held values ∈ values := by
  induction values generalizing held with
  | nil => exact Or.inl rfl
  | cons value values step =>
    rw [newest_cons]
    rcases step (if clock held < clock value then value else held) with same | member
    · rw [same]
      split
      · exact Or.inr List.mem_cons_self
      · exact Or.inl rfl
    · exact Or.inr (List.mem_cons_of_mem _ member)

theorem le_clock_newest (held : α) (values : List α) :
    clock held ≤ clock (newest clock held values) := by
  induction values generalizing held with
  | nil => exact Nat.le_refl _
  | cons value values step =>
    rw [newest_cons]
    refine Nat.le_trans ?_ (step _)
    split
    · rename_i newer
      exact Nat.le_of_lt newer
    · exact Nat.le_refl _

theorem le_clock_newest_of_mem {value : α} {values : List α} (member : value ∈ values) (held : α) :
    clock value ≤ clock (newest clock held values) := by
  induction values generalizing held with
  | nil => cases member
  | cons first values step =>
    rw [newest_cons]
    rcases List.mem_cons.1 member with rfl | later
    · refine Nat.le_trans ?_ (le_clock_newest clock _ values)
      split
      · exact Nat.le_refl _
      · rename_i older
        exact Nat.le_of_not_lt older
    · exact step later _

/-- What is held stays when nothing is newer. -/
theorem newest_eq_held
    {held : α}
    {values : List α}
    (attained : clock held = clock (newest clock held values)) :
    newest clock held values = held := by
  induction values with
  | nil => rfl
  | cons value values step =>
    have listed : value ∈ value :: values := List.mem_cons_self
    have bounded := le_clock_newest_of_mem clock listed held
    have older : ¬clock held < clock value := by omega
    rw [newest_cons, if_neg older] at attained ⊢
    exact step attained

theorem newest_append (held : α) (earlier later : List α) :
    newest clock held (earlier ++ later) = newest clock (newest clock held earlier) later :=
  List.foldl_append

/-- Otherwise it gives way to the first value with the newest clock. -/
theorem find?_newest
    {held : α}
    {values : List α}
    (overtaken : clock held ≠ clock (newest clock held values)) :
    values.find? (fun value => clock value = clock (newest clock held values)) =
      some (newest clock held values) := by
  induction values generalizing held with
  | nil => exact absurd rfl overtaken
  | cons value values step =>
    rw [newest_cons] at overtaken ⊢
    by_cases newer : clock held < clock value
    · rw [if_pos newer]
      by_cases attained : clock value = clock (newest clock value values)
      · rw [List.find?_cons_of_pos (by simpa using attained), newest_eq_held clock attained]
      · rw [List.find?_cons_of_neg (by simpa using attained)]
        exact step attained
    · rw [if_neg newer] at overtaken ⊢
      have above := le_clock_newest clock held values
      have passed : clock value ≠ clock (newest clock held values) := by omega
      rw [List.find?_cons_of_neg (by simpa using passed)]
      exact step overtaken

/-- Where equal clocks mean equal values, only the values matter, not their order or number. -/
theorem newest_congr
    {held : α}
    {left right : List α}
    (same : ∀ value, value ∈ left ↔ value ∈ right)
    (agree : ∀ first ∈ left, ∀ second ∈ left, clock first = clock second → first = second) :
    newest clock held left = newest clock held right := by
  have bounded : ∀ {first second : List α}, (∀ value, value ∈ first → value ∈ second) →
      clock (newest clock held first) ≤ clock (newest clock held second) := by
    intro first second included
    rcases newest_eq_or_mem clock held first with kept | member
    · rw [kept]
      exact le_clock_newest clock held second
    · exact le_clock_newest_of_mem clock (included _ member) held
  have clocks : clock (newest clock held left) = clock (newest clock held right) :=
    Nat.le_antisymm (bounded fun value => (same value).1) (bounded fun value => (same value).2)
  by_cases attained : clock held = clock (newest clock held left)
  · rw [newest_eq_held clock attained, newest_eq_held clock (attained.trans clocks)]
  · have member : newest clock held left ∈ left :=
      (newest_eq_or_mem clock held left).resolve_left fun kept => attained (by rw [kept])
    have other : newest clock held right ∈ right :=
      (newest_eq_or_mem clock held right).resolve_left fun kept =>
        attained (by rw [clocks, kept])
    exact agree _ member _ ((same _).2 other) clocks

end Newest

namespace Table

/-! ## Deliveries -/

/-- An entry that is merged: when, whom it came from, and what it says. -/
structure Delivery where
  time : Instant
  source : MemberName
  entry : GossipEntry

/-- Who said what, whenever it was. -/
def Delivery.told (delivery : Delivery) : MemberName × GossipEntry :=
  (delivery.source, delivery.entry)

/-- The table after a number of entries were merged, in order. -/
def mergeEach (table : Table) (deliveries : List Delivery) : Table :=
  deliveries.foldl
    (fun table delivery => (table.merge delivery.time delivery.source delivery.entry).table) table

/-- The entries about a member among those delivered, in order. -/
def entriesAbout (name : MemberName) (deliveries : List Delivery) : List GossipEntry :=
  (deliveries.map Delivery.entry).filter fun entry => entry.name = name

@[simp]
theorem mergeEach_nil (table : Table) : table.mergeEach [] = table :=
  rfl

@[simp]
theorem mergeEach_cons (table : Table) (delivery : Delivery) (rest : List Delivery) :
    table.mergeEach (delivery :: rest) =
      (table.merge delivery.time delivery.source delivery.entry).table.mergeEach rest :=
  rfl

/-- The entries of one packet are merged as deliveries of its source. -/
theorem table_mergeAll
    (table : Table)
    (now : Instant)
    (source : MemberName)
    (entries : List GossipEntry) :
    (table.mergeAll now source entries).table =
      table.mergeEach (entries.map fun entry => { time := now, source, entry }) := by
  induction entries generalizing table with
  | nil => rfl
  | cons entry rest step => exact step (table.merge now source entry).table

section Rows

variable {table : Table} {name : MemberName}

/-- An entry about somebody else, the node itself included, leaves the row of a member. -/
theorem Consistent.other?_merge_elsewhere
    (consistent : table.Consistent)
    (now : Instant)
    (source : MemberName)
    {entry : GossipEntry}
    (elsewhere : name ≠ entry.name) :
    (table.merge now source entry).table.other? name = table.other? name := by
  by_cases own : entry.name = table.own.name
  · have arena := @arena_update_own (table.recordAck source entry.name entry.clock) .lenient now
      entry.status entry.clock entry.metadata
    have merged : (table.merge now source entry).table =
        ((table.recordAck source entry.name entry.clock).update .lenient now
          (table.recordAck source entry.name entry.clock).own.name entry.status entry.clock
          entry.metadata).table := by
      rw [table_merge, own]
      rfl
    rw [merged, other?_congr arena.1 arena.2.1]
    exact congrFun (other?_congr rfl rfl) name
  · rw [consistent.other?_merge now source own, if_neg elsewhere]

/-- The metadata that are held of another member. -/
def metadataOf (table : Table) (name : MemberName) : Metadata :=
  ((table.other? name).map Member.metadata).getD .unknown

theorem metadata_rowFor (table : Table) (name : MemberName) (now : Instant) :
    (table.rowFor name now).metadata = table.metadataOf name := by
  rw [rowFor, metadataOf]
  cases table.other? name <;> rfl

theorem claim_join (held incoming : GossipEntry) (named : incoming.name = held.name) :
    (held.join incoming).claim = newest Claim.clock held.claim [incoming.claim] := by
  rw [newest_cons, newest_nil]
  by_cases newer : held.clock < incoming.clock
  · have joined : max held.clock incoming.clock = incoming.clock :=
      Nat.max_eq_right (Nat.le_of_lt newer)
    simp [GossipEntry.claim, GossipEntry.join, newer, joined, named]
  · have joined : max held.clock incoming.clock = held.clock :=
      Nat.max_eq_left (Nat.le_of_not_lt newer)
    simp [GossipEntry.claim, GossipEntry.join, newer, joined]

theorem metadata_updated
    (member : Member)
    (now : Instant)
    (status : Status)
    (clock : Nat)
    (metadata : Option Metadata) :
    (member.updated .lenient now status clock metadata).metadata =
      newest Metadata.clock member.metadata metadata.toList := by
  have moved : (member.accept status clock now).metadata = member.metadata := by
    rw [Member.accept]
    split <;> rfl
  have taken : member.updated .lenient now status clock metadata =
      (member.accept status clock now).mergeMetadata? metadata := by
    simp [Member.updated, Policy.rejects]
  rw [taken]
  cases metadata with
  | none => exact moved
  | some metadata =>
    rw [Member.mergeMetadata?, Member.mergeMetadata, moved, Option.toList, newest_cons, newest_nil]
    split
    · rfl
    · exact moved

/-! ## What a number of deliveries leaves -/

theorem entriesAbout_cons (name : MemberName) (delivery : Delivery) (rest : List Delivery) :
    entriesAbout name (delivery :: rest) =
      if delivery.entry.name = name then delivery.entry :: entriesAbout name rest
      else entriesAbout name rest := by
  rw [entriesAbout, List.map_cons, List.filter_cons]
  simp [entriesAbout]

variable (deliveries : List Delivery)

/-- The claim that is left is the newest one. -/
theorem Sound.claim_mergeEach (sound : table.Sound) (foreign : name ≠ table.own.name) :
    ((table.mergeEach deliveries).report name).claim =
      newest Claim.clock (table.report name).claim
        ((entriesAbout name deliveries).map GossipEntry.claim) := by
  induction deliveries generalizing table with
  | nil => rfl
  | cons delivery rest step =>
    have merged := sound.merge delivery.time delivery.source delivery.entry
    have own := (sound.advances_merge delivery.time delivery.source delivery.entry).own
    have later := step merged (by rw [own]; exact foreign)
    rw [mergeEach_cons, later, entriesAbout_cons]
    by_cases about : delivery.entry.name = name
    · subst about
      rw [if_pos rfl, List.map_cons, sound.report_merge _ _ foreign,
        claim_join _ _ (sound.name_report _).symm]
      rfl
    · rw [if_neg about, sound.report_merge_elsewhere _ _ _ (Ne.symm about)]

/-- The metadata that are left are the newest ones, whatever became of the claims. -/
theorem Sound.metadataOf_mergeEach (sound : table.Sound) (foreign : name ≠ table.own.name) :
    (table.mergeEach deliveries).metadataOf name =
      newest Metadata.clock (table.metadataOf name)
        ((entriesAbout name deliveries).filterMap GossipEntry.metadata) := by
  induction deliveries generalizing table with
  | nil => rfl
  | cons delivery rest step =>
    have merged := sound.merge delivery.time delivery.source delivery.entry
    have own := (sound.advances_merge delivery.time delivery.source delivery.entry).own
    have later := step merged (by rw [own]; exact foreign)
    rw [mergeEach_cons, later, entriesAbout_cons]
    by_cases about : delivery.entry.name = name
    · subst about
      have row := sound.other?_merge delivery.time delivery.source foreign delivery.entry.name
      rw [if_pos rfl] at row
      have taken : (table.merge delivery.time delivery.source delivery.entry).table.metadataOf
          delivery.entry.name =
            newest Metadata.clock (table.metadataOf delivery.entry.name)
              delivery.entry.metadata.toList := by
        rw [metadataOf, row, Option.map_some, Option.getD_some, metadata_updated, metadata_rowFor]
      have listed : (delivery.entry :: entriesAbout delivery.entry.name rest).filterMap
          GossipEntry.metadata =
            delivery.entry.metadata.toList ++
              (entriesAbout delivery.entry.name rest).filterMap GossipEntry.metadata := by
        rw [List.filterMap_cons]
        cases delivery.entry.metadata <;> rfl
      rw [if_pos rfl, listed, newest_append, taken]
    · have row := sound.other?_merge_elsewhere delivery.time delivery.source (Ne.symm about)
      rw [if_neg about, metadataOf, row]
      rfl

/-- A member is known when it was known before or anything was told about it. -/
theorem Sound.isSome_other?_mergeEach (sound : table.Sound) (foreign : name ≠ table.own.name) :
    ((table.mergeEach deliveries).other? name).isSome ↔
      (table.other? name).isSome ∨ entriesAbout name deliveries ≠ [] := by
  induction deliveries generalizing table with
  | nil => simp [entriesAbout]
  | cons delivery rest step =>
    have merged := sound.merge delivery.time delivery.source delivery.entry
    have own := (sound.advances_merge delivery.time delivery.source delivery.entry).own
    have later := step merged (by rw [own]; exact foreign)
    rw [mergeEach_cons, later, entriesAbout_cons]
    by_cases about : delivery.entry.name = name
    · subst about
      rw [sound.other?_merge _ _ foreign, if_pos rfl]
      simp
    · rw [if_neg about, sound.other?_merge_elsewhere _ _ (Ne.symm about)]

/-- The clocks a peer has told for a member, in order. -/
def receiptsOf (peer name : MemberName) (deliveries : List Delivery) : List Nat :=
  ((deliveries.map Delivery.told).filter fun told => told.1 = peer ∧ told.2.name = name).map
    fun told => told.2.clock

theorem receiptsOf_cons (peer name : MemberName) (delivery : Delivery) (rest : List Delivery) :
    receiptsOf peer name (delivery :: rest) =
      if delivery.source = peer ∧ delivery.entry.name = name then
        delivery.entry.clock :: receiptsOf peer name rest
      else
        receiptsOf peer name rest := by
  rw [receiptsOf, List.map_cons, List.filter_cons]
  by_cases here : delivery.source = peer ∧ delivery.entry.name = name
  · simp [here, Delivery.told, receiptsOf]
  · simp only [Delivery.told, here, decide_false, Bool.false_eq_true, if_false]
    rfl

theorem Sound.acks_merge
    (sound : table.Sound)
    (delivery : Delivery) :
    (table.merge delivery.time delivery.source delivery.entry).table.acks =
      table.acks.insert (delivery.source, delivery.entry.name)
        (max (table.acked delivery.source delivery.entry.name) delivery.entry.clock) := by
  have recorded := sound.recordAck delivery.source delivery.entry.name delivery.entry.clock
  rw [table_merge, recorded.acks_update]
  rfl

/-- The ack that is left of a peer is the newest of what was recorded and what it told. -/
theorem Sound.acks_mergeEach (sound : table.Sound) (peer name : MemberName) :
    (table.mergeEach deliveries).acks[(peer, name)]? =
      if receiptsOf peer name deliveries = [] then
        table.acks[(peer, name)]?
      else
        some (newest id (table.acked peer name) (receiptsOf peer name deliveries)) := by
  induction deliveries generalizing table with
  | nil => rfl
  | cons delivery rest step =>
    have merged := sound.merge delivery.time delivery.source delivery.entry
    have acks := sound.acks_merge delivery
    rw [mergeEach_cons, step merged, receiptsOf_cons, acked, acks, Std.ExtHashMap.getElem?_insert]
    by_cases here : delivery.source = peer ∧ delivery.entry.name = name
    · rcases here with ⟨rfl, rfl⟩
      have taken : ∀ held told : Nat, max held told = if held < told then told else held := by
        intro held told
        split <;> omega
      simp only [beq_self_eq_true, if_true, Option.getD_some, and_self, reduceCtorEq, if_false,
        newest_cons, id_eq, taken]
      split
      · rename_i none
        rw [none, newest_nil]
      · rfl
    · have other : ((delivery.source, delivery.entry.name) == (peer, name)) = false :=
        beq_eq_false_iff_ne.2 fun same => here (Prod.mk.inj same)
      simp only [other, Bool.false_eq_true, if_false, here]
      rfl

end Rows

/-! ## Order and repetition -/

/-- Entries about one member agree when a clock stands for one status or one payload. -/
structure Agree (entries : List GossipEntry) : Prop where
  status : ∀ first ∈ entries, ∀ second ∈ entries,
    first.clock = second.clock → first.status = second.status
  payload : ∀ first ∈ entries, ∀ second ∈ entries,
    ∀ held ∈ first.metadata, ∀ told ∈ second.metadata,
      held.clock = told.clock → held.payload = told.payload

section Rearranged

variable {table : Table} {name : MemberName} {first second : List Delivery}

theorem mem_entriesAbout {entry : GossipEntry} {deliveries : List Delivery} :
    entry ∈ entriesAbout name deliveries ↔
      entry.name = name ∧ ∃ source, (source, entry) ∈ deliveries.map Delivery.told := by
  simp only [entriesAbout, List.mem_filter, List.mem_map, decide_eq_true_eq, Delivery.told,
    Prod.mk.injEq]
  constructor
  · rintro ⟨⟨delivery, member, rfl⟩, named⟩
    exact ⟨named, delivery.source, delivery, member, rfl, rfl⟩
  · rintro ⟨named, source, delivery, member, -, rfl⟩
    exact ⟨⟨delivery, member, rfl⟩, named⟩

theorem entriesAbout_same
    (name : MemberName)
    (same : ∀ told, told ∈ first.map Delivery.told ↔ told ∈ second.map Delivery.told)
    (entry : GossipEntry) :
    entry ∈ entriesAbout name first ↔ entry ∈ entriesAbout name second := by
  rw [mem_entriesAbout, mem_entriesAbout]
  simp only [same]

/-- Rows of one member that make the same claim with the same metadata differ in times only. -/
theorem change_eq {left right : Member}
    (claim : left.entry.claim = right.entry.claim)
    (metadata : left.metadata = right.metadata) :
    left.change = right.change := by
  simp only [GossipEntry.claim, Member.entry, Claim.mk.injEq] at claim
  simp only [Member.change, claim, metadata]

theorem Agree.claims
    {entries : List GossipEntry}
    (agree : Agree entries)
    (about : ∀ entry ∈ entries, entry.name = name) :
    ∀ left ∈ entries.map GossipEntry.claim, ∀ right ∈ entries.map GossipEntry.claim,
      left.clock = right.clock → left = right := by
  intro left leftMember right rightMember clocks
  rcases List.mem_map.1 leftMember with ⟨held, heldMember, rfl⟩
  rcases List.mem_map.1 rightMember with ⟨told, toldMember, rfl⟩
  have names : held.name = told.name := (about held heldMember).trans (about told toldMember).symm
  have statuses := agree.status held heldMember told toldMember clocks
  exact Claim.mk.injEq .. ▸ ⟨names, clocks, statuses⟩

theorem Agree.metadata
    {entries : List GossipEntry}
    (agree : Agree entries) :
    ∀ left ∈ entries.filterMap GossipEntry.metadata,
      ∀ right ∈ entries.filterMap GossipEntry.metadata,
        left.clock = right.clock → left = right := by
  intro left leftMember right rightMember clocks
  rcases List.mem_filterMap.1 leftMember with ⟨held, heldMember, heldSome⟩
  rcases List.mem_filterMap.1 rightMember with ⟨told, toldMember, toldSome⟩
  have payloads := agree.payload held heldMember told toldMember left heldSome right toldSome clocks
  exact Metadata.mk.injEq .. ▸ ⟨clocks, payloads⟩

theorem Sound.name_own_mergeEach (sound : table.Sound) (deliveries : List Delivery) :
    (table.mergeEach deliveries).own.name = table.own.name := by
  induction deliveries generalizing table with
  | nil => rfl
  | cons delivery rest step =>
    have merged := sound.merge delivery.time delivery.source delivery.entry
    have own := (sound.advances_merge delivery.time delivery.source delivery.entry).own
    exact (step merged).trans own

/-- Deliveries that tell the same leave the same of every other member. -/
theorem Sound.change_mergeEach
    (sound : table.Sound)
    (foreign : name ≠ table.own.name)
    (same : ∀ told, told ∈ first.map Delivery.told ↔ told ∈ second.map Delivery.told)
    (agree : Agree (entriesAbout name first)) :
    ((table.mergeEach first).other? name).map Member.change =
      ((table.mergeEach second).other? name).map Member.change := by
  have entries := entriesAbout_same name same
  have claims : ((table.mergeEach first).report name).claim =
      ((table.mergeEach second).report name).claim := by
    rw [sound.claim_mergeEach first foreign, sound.claim_mergeEach second foreign]
    apply newest_congr
    · intro claim
      simp only [List.mem_map, entries]
    · exact agree.claims fun entry member => (mem_entriesAbout.1 member).1
  have metadata : (table.mergeEach first).metadataOf name =
      (table.mergeEach second).metadataOf name := by
    rw [sound.metadataOf_mergeEach first foreign, sound.metadataOf_mergeEach second foreign]
    apply newest_congr
    · intro metadata
      simp only [List.mem_filterMap, entries]
    · exact agree.metadata
  have known : ((table.mergeEach first).other? name).isSome ↔
      ((table.mergeEach second).other? name).isSome := by
    rw [sound.isSome_other?_mergeEach first foreign, sound.isSome_other?_mergeEach second foreign]
    simp only [ne_eq, List.eq_nil_iff_forall_not_mem, entries]
  have still : ∀ deliveries, name ≠ (table.mergeEach deliveries).own.name := by
    intro deliveries
    rw [sound.name_own_mergeEach deliveries]
    exact foreign
  rw [report_other (still first), report_other (still second)] at claims
  rw [metadataOf, metadataOf] at metadata
  cases left : (table.mergeEach first).other? name with
  | none =>
    rw [left] at known
    cases right : (table.mergeEach second).other? name with
    | none => rfl
    | some row => simp [right] at known
  | some row =>
    cases right : (table.mergeEach second).other? name with
    | none => simp [left, right] at known
    | some other =>
      rw [left, right] at claims metadata
      exact congrArg some (change_eq claims metadata)

theorem mem_receiptsOf {peer : MemberName} {deliveries : List Delivery} {clock : Nat} :
    clock ∈ receiptsOf peer name deliveries ↔
      ∃ told ∈ deliveries.map Delivery.told,
        (told.1 = peer ∧ told.2.name = name) ∧ told.2.clock = clock := by
  rw [receiptsOf, List.mem_map]
  simp only [List.mem_filter, decide_eq_true_eq, and_assoc]

/-- Deliveries that tell the same leave the same acks. -/
theorem Sound.acks_mergeEach_congr
    (sound : table.Sound)
    (same : ∀ told, told ∈ first.map Delivery.told ↔ told ∈ second.map Delivery.told) :
    (table.mergeEach first).acks = (table.mergeEach second).acks := by
  ext1 key
  rcases key with ⟨peer, name⟩
  have receipts : ∀ clock,
      clock ∈ receiptsOf peer name first ↔ clock ∈ receiptsOf peer name second := by
    intro clock
    simp only [mem_receiptsOf, same]
  have none : receiptsOf peer name first = [] ↔ receiptsOf peer name second = [] := by
    simp only [List.eq_nil_iff_forall_not_mem, receipts]
  have newestReceipt : newest id (table.acked peer name) (receiptsOf peer name first) =
      newest id (table.acked peer name) (receiptsOf peer name second) :=
    newest_congr id receipts fun _ _ _ _ clocks => clocks
  rw [sound.acks_mergeEach, sound.acks_mergeEach, newestReceipt]
  simp only [none]

end Rearranged

/--
Merging takes the newest of what is held of a member and what is told about it, for the
status and for the metadata apart, and the first on a tie.  So where the entries about a
member agree, merging the same in another order, or some of it again, leaves the same of the
member; and the recorded acks are the same in any case.  What is held needs not agree with
the entries, since it wins every tie.
-/
theorem merging_takes_newest {table : Table} (reachable : table.Reachable)
    (deliveries : List Delivery) :
    let after := table.mergeEach deliveries
    (∀ (name : MemberName) (now : Instant), name ≠ table.own.name →
      let told := entriesAbout name deliveries
      let offered := told.filterMap GossipEntry.metadata
      let held := table.rowFor name now
      let final := after.rowFor name now
      ((after.other? name).isSome ↔ (table.other? name).isSome ∨ told ≠ []) ∧
      final.clock = (told.map GossipEntry.clock).foldl max held.clock ∧
      (held.clock = final.clock → final.status = held.status) ∧
      (held.clock ≠ final.clock →
        ∃ entry, told.find? (fun entry => entry.clock = final.clock) = some entry ∧
          final.status = entry.status) ∧
      final.metadata.clock = (offered.map Metadata.clock).foldl max held.metadata.clock ∧
      (held.metadata.clock = final.metadata.clock → final.metadata = held.metadata) ∧
      (held.metadata.clock ≠ final.metadata.clock →
        offered.find? (fun metadata => metadata.clock = final.metadata.clock) =
          some final.metadata)) ∧
    (∀ rearranged : List Delivery,
      (∀ told, told ∈ deliveries.map Delivery.told ↔ told ∈ rearranged.map Delivery.told) →
      (∀ name : MemberName, name ≠ table.own.name → Agree (entriesAbout name deliveries) →
        (after.other? name).map Member.change =
          ((table.mergeEach rearranged).other? name).map Member.change) ∧
      after.acks = (table.mergeEach rearranged).acks) := by
  intro after
  have sound := reachable.sound
  constructor
  · intro name now foreign told offered held final
    have still : name ≠ after.own.name := by
      rw [sound.name_own_mergeEach deliveries]
      exact foreign
    have claim : final.entry.claim =
        newest Claim.clock held.entry.claim (told.map GossipEntry.claim) := by
      rw [← report_eq_entry_rowFor now foreign, ← report_eq_entry_rowFor now still]
      exact sound.claim_mergeEach deliveries foreign
    have metadata : final.metadata = newest Metadata.clock held.metadata offered := by
      rw [metadata_rowFor, metadata_rowFor]
      exact sound.metadataOf_mergeEach deliveries foreign
    have clocks : (told.map GossipEntry.claim).map Claim.clock = told.map GossipEntry.clock := by
      rw [List.map_map]
      rfl
    refine ⟨sound.isSome_other?_mergeEach deliveries foreign, ?_, ?_, ?_, ?_, ?_, ?_⟩
    · have newestClock := clock_newest Claim.clock held.entry.claim (told.map GossipEntry.claim)
      rw [← claim, clocks] at newestClock
      exact newestClock
    · intro attained
      have kept : final.entry.claim = held.entry.claim := by
        rw [claim]
        apply newest_eq_held
        rw [← claim]
        exact attained
      exact congrArg Claim.status kept
    · intro overtaken
      have passed : Claim.clock held.entry.claim ≠
          Claim.clock (newest Claim.clock held.entry.claim (told.map GossipEntry.claim)) := by
        rw [← claim]
        exact overtaken
      have found := find?_newest Claim.clock passed
      rw [← claim, List.find?_map] at found
      rcases Option.map_eq_some_iff.1 found with ⟨entry, first, same⟩
      exact ⟨entry, first, (congrArg Claim.status same).symm⟩
    · rw [metadata]
      exact clock_newest Metadata.clock held.metadata offered
    · intro attained
      rw [metadata] at attained ⊢
      exact newest_eq_held Metadata.clock attained
    · intro overtaken
      rw [metadata] at overtaken ⊢
      exact find?_newest Metadata.clock overtaken
  · intro rearranged same
    refine ⟨?_, sound.acks_mergeEach_congr same⟩
    intro name foreign agree
    exact sound.change_mergeEach foreign same agree

/--
A newer suspicion and newer metadata arrive in different entries, and a claim about the node
itself in between: the row takes the best of both, in either order.
-/
theorem merging_takes_newest_suspicion :
    let own : MemberName := { text := "10.0.0.1:7946" }
    let peer : MemberName := { text := "10.0.0.2:7946" }
    let suspicion : GossipEntry :=
      { name := peer, clock := 7, status := .suspect,
        metadata := some { clock := 2, payload := some [1] } }
    let renewal : GossipEntry :=
      { name := peer, clock := 5, status := .online,
        metadata := some { clock := 3, payload := some [2] } }
    let accusation : GossipEntry :=
      { name := own, clock := 9, status := .offline, metadata := none }
    let table := start own [] [] 0
    let deliveries : List Delivery :=
      [⟨0, peer, suspicion⟩, ⟨1, peer, accusation⟩, ⟨2, peer, renewal⟩]
    let rearranged : List Delivery :=
      [⟨3, peer, renewal⟩, ⟨4, peer, renewal⟩, ⟨5, peer, accusation⟩, ⟨6, peer, suspicion⟩]
    let final := (table.mergeEach deliveries).rowFor peer 0
    final.clock = 7 ∧ final.status = .suspect ∧
      final.metadata = { clock := 3, payload := some [2] } ∧
      ((table.mergeEach deliveries).other? peer).map Member.change =
        ((table.mergeEach rearranged).other? peer).map Member.change := by
  intro own peer suspicion renewal accusation table deliveries rearranged final
  rcases merging_takes_newest (reachable_start own [] [] 0) deliveries with ⟨rows, order⟩
  have foreign : peer ≠ table.own.name := by
    rw [own_start]
    decide
  have told : entriesAbout peer deliveries = [suspicion, renewal] := rfl
  have held : table.rowFor peer 0 = Member.unobserved peer 0 := rowFor_start own [] [] 0 peer
  rcases rows peer 0 foreign with ⟨-, clock, -, status, version, -, metadata⟩
  rw [told, held] at clock status version metadata
  have newestClock : final.clock = 7 := clock
  have newestVersion : final.metadata.clock = 3 := version
  refine ⟨newestClock, ?_, ?_, ?_⟩
  · have overtaken : (Member.unobserved peer 0).clock ≠ final.clock := by
      rw [newestClock]
      decide
    rcases status overtaken with ⟨entry, found, taken⟩
    rw [newestClock] at found
    cases found
    exact taken
  · have overtaken : (Member.unobserved peer 0).metadata.clock ≠ final.metadata.clock := by
      rw [newestVersion]
      decide
    have found := metadata overtaken
    rw [newestVersion] at found
    exact (Option.some.inj found).symm
  · have same : ∀ told, told ∈ deliveries.map Delivery.told ↔
        told ∈ rearranged.map Delivery.told := by
      intro told
      simp only [deliveries, rearranged, List.map_cons, List.map_nil, List.mem_cons,
        List.not_mem_nil, Delivery.told]
      grind
    refine (order rearranged same).1 peer foreign ?_
    rw [told]
    constructor <;> decide

end Table

end ClusterMembership
