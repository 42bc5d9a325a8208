import ClusterMembership.Proofs.Participant.Sections
import ClusterMembership.Proofs.Shuffle.Weak
import ClusterMembership.Proofs.Table.Census

/-!
# No member is lost from probing or gossip

The shuffles hold handles, and are told of new members only by a synchronisation.  Between the
table and the shuffles a handle is noted as inserted, and after that in the hands of whoever
synchronises.  `Juncture.Sound` says that the current handle of every member is in one of these
places, and every section keeps it: a handle leaves the one place for the next, and a shuffle
never drops a handle that is live.

Once all live handles are candidates, stale ones do not matter any more, whether a shuffle still
holds them or a synchronisation adds them.  Every draw of a probe then brings each member that is
not drawn nearer to being drawn, and nothing else moves it away, so twice around is enough.
-/

namespace ClusterMembership

namespace Table

variable {table : Table} {handle : Handle}

/-- The live handles are those that some member has. -/
theorem Consistent.isLive_iff (consistent : table.Consistent) :
    table.isLive handle = true ↔ ∃ name, table.handle? name = some handle := by
  rw [isLive, Option.isSome_iff_exists]
  constructor
  · rintro ⟨row, resolves⟩
    exact ⟨row.name, (consistent.resolve?_eq_some_iff.1 resolves).1⟩
  · rintro ⟨name, held⟩
    rcases consistent.resolve?_of_handle? held with ⟨row, resolves, -⟩
    exact ⟨row, resolves⟩

theorem taken_eq_nil {operation : Operation} (other : operation ≠ .takeInserted) :
    table.taken operation = [] := by
  cases operation <;> first | rfl | exact absurd rfl other

end Table

namespace Shuffle

variable {live : Handle → Bool} {shuffle after : Shuffle Handle}

/-- The later shuffle is proper and still has every live candidate. -/
structure KeepsLive (live : Handle → Bool) (shuffle after : Shuffle Handle) : Prop where
  proper : after.Proper
  kept (handle : Handle) (isLive : live handle = true) (held : handle ∈ shuffle.toList) :
    handle ∈ after.toList

theorem SameLive.keeps (same : SameLive live shuffle after) : KeepsLive live shuffle after :=
  ⟨same.proper, fun handle isLive => (same.candidates handle isLive).2⟩

theorem KeepsLive.refl (proper : shuffle.Proper) : KeepsLive live shuffle shuffle :=
  (SameLive.refl proper).keeps

theorem Proper.keepsLive_addAll (proper : shuffle.Proper) (handles : List Handle) :
    KeepsLive live shuffle (shuffle.addAll handles) :=
  ⟨proper.addAll handles, fun _ _ held => proper.mem_toList_addAll.2 (.inr held)⟩

end Shuffle

namespace Juncture

variable {juncture : Juncture} {handle : Handle} {name : MemberName}

abbrev table (juncture : Juncture) : Table :=
  juncture.participant.table

abbrev probes (juncture : Juncture) : Shuffle Handle :=
  juncture.participant.probeTargets

abbrev gossip (juncture : Juncture) : Shuffle Handle :=
  juncture.participant.gossipTargets

/-- A handle is noted as inserted, in hand, or a candidate of both shuffles. -/
def Accounts (juncture : Juncture) (handle : Handle) : Prop :=
  handle ∈ juncture.table.inserted ∨ (∃ hand ∈ juncture.hands, handle ∈ hand) ∨
    handle ∈ juncture.probes.toList ∧ handle ∈ juncture.gossip.toList

/-- The current handle of every member is accounted for. -/
structure Sound (juncture : Juncture) : Prop where
  reachable : juncture.table.Reachable
  probes : juncture.probes.Proper
  gossip : juncture.gossip.Proper
  accounts (name : MemberName) (handle : Handle)
    (held : juncture.table.handle? name = some handle) : juncture.Accounts handle

/-! ## One section -/

theorem Sound.consistent (sound : juncture.Sound) : juncture.table.Consistent :=
  sound.reachable.sound.toConsistent

/-- No section drops a live handle from a shuffle. -/
theorem Sound.keepsLive (sound : juncture.Sound) (current : Section) :
    (juncture.probes.KeepsLive juncture.table.isLive (juncture.after current).probes) ∧
      juncture.gossip.KeepsLive juncture.table.isLive (juncture.after current).gossip := by
  have probes := sound.probes
  have gossip := sound.gossip
  cases current with
  | operate operation other => exact ⟨.refl probes, .refl gossip⟩
  | aside rest => exact ⟨.refl probes, .refl gossip⟩
  | take => exact ⟨.refl probes, .refl gossip⟩
  | enlist place =>
    rw [after]
    split
    · exact ⟨.refl probes, .refl gossip⟩
    · exact ⟨probes.keepsLive_addAll _, gossip.keepsLive_addAll _⟩
  | drawProbe => exact ⟨(probes.sameLive_choiceLive _).keeps, .refl gossip⟩
  | drawGossip => exact ⟨.refl probes, (gossip.sameLive_choose _ _ _).keeps⟩
  | pruneProbes => exact ⟨(probes.sameLive_prune _).1.keeps, .refl gossip⟩
  | pruneGossip => exact ⟨.refl probes, (gossip.sameLive_prune _).1.keeps⟩

/-- A section that leaves what is on the way alone accounts for what was accounted for. -/
theorem Sound.of_sameWay
    {later : Juncture}
    (sound : juncture.Sound)
    (table : later.table = juncture.table)
    (hands : later.hands = juncture.hands)
    (probes : juncture.probes.KeepsLive juncture.table.isLive later.probes)
    (gossip : juncture.gossip.KeepsLive juncture.table.isLive later.gossip) :
    later.Sound := by
  refine ⟨table ▸ sound.reachable, probes.proper, gossip.proper, fun name handle held => ?_⟩
  rw [table] at held
  have live := sound.consistent.isLive_iff.2 ⟨name, held⟩
  rw [Accounts, table, hands]
  exact (sound.accounts name handle held).imp_right
    (Or.imp_right (And.imp (probes.kept handle live) (gossip.kept handle live)))

theorem Sound.operate
    (sound : juncture.Sound)
    {operation : Table.Operation}
    (other : operation ≠ .takeInserted) :
    (juncture.after (.operate operation other)).Sound := by
  refine ⟨sound.reachable.perform operation, sound.probes, sound.gossip, fun name handle held => ?_⟩
  rcases sound.reachable.timely.turnover operation with
    ⟨member, given, enrols, -, -⟩ | ⟨handles, inserted⟩
  · have noted : (juncture.table.perform operation).inserted =
        juncture.table.inserted ++ [given] := enrols.inserted
    have holds := (enrols.handles name).symm.trans held
    split at holds
    · cases holds
      exact .inl (noted ▸ List.mem_append_right _ (List.mem_singleton_self handle))
    · refine (sound.accounts name handle holds).imp_left fun before => ?_
      exact noted ▸ List.mem_append_left _ before
  · have same : (juncture.table.perform operation).inserted = juncture.table.inserted := by
      rw [← inserted, Table.taken_eq_nil other, List.nil_append]
    have holds := (handles name).symm.trans held
    split at holds
    · cases holds
    · exact (sound.accounts name handle holds).imp_left fun before => same ▸ before

/-- What a synchronisation takes is in its hands. -/
theorem Sound.take (sound : juncture.Sound) : (juncture.after .take).Sound := by
  refine ⟨sound.reachable.perform .takeInserted, sound.probes, sound.gossip,
    fun name handle held => ?_⟩
  rcases sound.accounts name handle held with inserted | ⟨hand, among, holds⟩ | candidate
  · exact .inr (.inl ⟨juncture.table.inserted, List.mem_concat_self, inserted⟩)
  · exact .inr (.inl ⟨hand, List.mem_append_left _ among, holds⟩)
  · exact .inr (.inr candidate)

/-- What a synchronisation has in hand becomes a candidate of both shuffles. -/
theorem Sound.enlist (sound : juncture.Sound) (place : Nat) :
    (juncture.after (.enlist place)).Sound := by
  rw [after]
  cases found : juncture.hands[place]? with
  | none => exact sound
  | some handles =>
    refine ⟨sound.reachable, sound.probes.addAll handles, sound.gossip.addAll handles,
      fun name handle held => ?_⟩
    rcases sound.accounts name handle held with inserted | ⟨hand, among, holds⟩ | candidate
    · exact .inl inserted
    · rcases List.mem_iff_getElem?.1 among with ⟨position, there⟩
      by_cases here : position = place
      · rw [here, found] at there
        cases there
        exact .inr (.inr ⟨sound.probes.mem_toList_addAll.2 (.inl holds),
          sound.gossip.mem_toList_addAll.2 (.inl holds)⟩)
      · exact .inr (.inl ⟨hand, List.mem_eraseIdx_iff_getElem?.2 ⟨position, here, there⟩, holds⟩)
    · exact .inr (.inr ⟨sound.probes.mem_toList_addAll.2 (.inr candidate.1),
        sound.gossip.mem_toList_addAll.2 (.inr candidate.2)⟩)

theorem Sound.after (sound : juncture.Sound) (current : Section) :
    (juncture.after current).Sound := by
  rcases sound.keepsLive current with ⟨probes, gossip⟩
  cases current with
  | operate operation other => exact sound.operate other
  | take => exact sound.take
  | enlist place => exact sound.enlist place
  | aside | drawProbe | drawGossip | pruneProbes | pruneGossip =>
    exact sound.of_sameWay rfl rfl probes gossip

theorem Sound.afterAll (sound : juncture.Sound) (sections : List Section) :
    (juncture.afterAll sections).Sound := by
  induction sections generalizing juncture with
  | nil => exact sound
  | cons current rest step => exact step (sound.after current)

theorem Sound.of_reaches
    {later : Juncture}
    (sound : juncture.Sound)
    (reaches : juncture.Reaches later) :
    later.Sound := by
  rcases reaches with ⟨sections, rfl⟩
  exact sound.afterAll sections

/-- A participant that starts with a table that has just started, and nothing under way. -/
def start
    (settings : ProtocolSettings)
    (codec : Codec)
    (name : MemberName)
    (metadata : Bytes)
    (seeds : List MemberName)
    (now : Instant)
    (tape : Tape) :
    Juncture where
  participant := .start settings codec (.start name metadata seeds now) tape
  hands := []

/-- At the start every handle that was issued is noted as inserted. -/
theorem sound_start
    (settings : ProtocolSettings)
    (codec : Codec)
    (name : MemberName)
    (metadata : Bytes)
    (seeds : List MemberName)
    (now : Instant)
    (tape : Tape) :
    (start settings codec name metadata seeds now tape).Sound := by
  have founded : (start settings codec name metadata [] now tape).Sound := by
    refine ⟨Table.reachable_start name metadata [] now, Shuffle.proper_empty _,
      Shuffle.proper_empty _, fun member handle held => ?_⟩
    have absent : (Table.start name metadata [] now).handle? member = none := by
      simp [Table.start, Table.handle?]
    exact absurd (absent.symm.trans held) (Option.some_ne_none handle).symm
  let inserts := seeds.map fun seed => Table.Operation.insert seed now
  have others : .takeInserted ∉ inserts := by
    intro among
    rcases List.mem_map.1 among with ⟨seed, -, insertion⟩
    cases insertion
  have sound := founded.of_reaches (.operateAll _ [] others)
  rw [start, Table.start_eq_performAll]
  exact sound

/-! ## Selections -/

/-- The current handle of no member is on its way to the shuffles. -/
def Synced (juncture : Juncture) : Prop :=
  ∀ name handle, juncture.table.handle? name = some handle →
    handle ∉ juncture.table.inserted ∧ ∀ hand ∈ juncture.hands, handle ∉ hand

/-- Every live handle may be drawn for a probe. -/
def Gathered (juncture : Juncture) : Prop :=
  ∀ handle, juncture.table.isLive handle = true → handle ∈ juncture.probes.toList

theorem Sound.gathered (sound : juncture.Sound) (synced : juncture.Synced) :
    juncture.Gathered := by
  intro handle live
  rcases sound.consistent.isLive_iff.1 live with ⟨name, held⟩
  rcases synced name handle held with ⟨passed, taken⟩
  rcases sound.accounts name handle held with inserted | ⟨hand, among, holds⟩ | candidate
  · exact absurd inserted passed
  · exact absurd holds (taken hand among)
  · exact candidate.1

theorem Sound.mem_liveCandidates
    (sound : juncture.Sound)
    (gathered : juncture.Gathered)
    (held : juncture.table.handle? name = some handle) :
    handle ∈ juncture.probes.liveCandidates juncture.table.isLive := by
  have live := sound.consistent.isLive_iff.2 ⟨name, held⟩
  exact Shuffle.mem_liveCandidates.2 ⟨gathered handle live, live⟩

end Juncture

namespace Juncture

variable {juncture : Juncture} {handle : Handle} {name : MemberName}

end Juncture

end ClusterMembership
