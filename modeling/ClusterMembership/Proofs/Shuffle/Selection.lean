import ClusterMembership.Proofs.Shuffle.Weak
import Mathlib.Data.List.Induction

/-!
# Selection ends, covers the deck and loses no live candidate

A draw among the live ones goes on until a live handle comes, however many stale ones are in its
way.  Each of these is dropped, so the draws come to an end, and what they end with is what the
bounded draw of the model gives, `Proper.drawsLive_iff`.

A selection makes as many draws as there were candidates at first.  The draws follow the live deck,
or one new order of all live candidates if the deck is spent; either way `Comes` tells what the
next draws give, and `Chooses.covers` that a selection takes what it may of that, in that order.
What comes after that may repeat it, and is taken only if it does not.
-/

namespace ClusterMembership

namespace Shuffle

theorem append_prefix_of_nil
    {α : Type}
    {first more all : List α}
    (nothing : more = [])
    (kept : first <+: all) :
    first ++ more <+: all := by
  rw [nothing, List.append_nil]
  exact kept

variable
    {α : Type}
    [DecidableEq α]
    [Hashable α]
    {live accept : α → Bool}
    {shuffle after : Shuffle α}
    {item : α}
    {attempts draws count : Nat}
    {chosen coming : List α}

/-! ## What a shuffle is used for -/

/-- What is done with a shuffle of handles; each time others may be live and accepted. -/
inductive Use (α : Type) where
  | add (item : α)
  | discard (item : α)
  | choice (live : α → Bool)
  | choose (live accept : α → Bool) (count : Nat)
  | prune (live : α → Bool)

/-- What a use leaves; a discard that fails leaves everything. -/
def used (shuffle : Shuffle α) : Use α → Shuffle α
  | .add item => (shuffle.add item).2
  | .discard item => shuffle.without item
  | .choice live => (shuffle.choiceLive live).2
  | .choose live accept count => (shuffle.choose live accept count).2
  | .prune live => (shuffle.prune live).2

/-- The shuffle was empty at first, with some outcome of chance before it, and was used since. -/
def Reachable (shuffle : Shuffle α) : Prop :=
  ∃ (tape : Tape) (uses : List (Use α)), uses.foldl used (empty tape) = shuffle

theorem Proper.used (proper : shuffle.Proper) (use : Use α) : (shuffle.used use).Proper := by
  cases use with
  | add item => exact proper.add item
  | discard item => exact proper.without item
  | choice live => exact (proper.sameLive_choiceLive live).proper
  | choose live accept count => exact (proper.sameLive_choose live accept count).proper
  | prune live => exact (proper.sameLive_prune live).1.proper

theorem Reachable.proper (reachable : shuffle.Reachable) : shuffle.Proper := by
  rcases reachable with ⟨tape, uses, rfl⟩
  induction uses using List.reverseRecOn with
  | nil => exact proper_empty tape
  | append_singleton uses use step =>
    rw [List.foldl_append]
    exact step.used use

/-! ## Drawing until a live one comes -/

/--
What drawing ends with that goes on until a live handle comes or there is no candidate left, and
drops each stale handle that it meets.  Nothing bounds the number of draws.
-/
inductive DrawsLive (live : α → Bool) : Shuffle α → Option α × Shuffle α → Prop
  /-- There is no candidate left. -/
  | spent {shuffle after : Shuffle α}
      (draw : shuffle.choice = (none, after)) :
      DrawsLive live shuffle (none, after)
  /-- A live handle comes. -/
  | found {shuffle after : Shuffle α} {item : α}
      (draw : shuffle.choice = (some item, after))
      (isLive : live item = true) :
      DrawsLive live shuffle (some item, after)
  /-- A stale handle comes, and drawing goes on without it. -/
  | dropped {shuffle after : Shuffle α} {item : α} {result : Option α × Shuffle α}
      (draw : shuffle.choice = (some item, after))
      (stale : ¬live item = true)
      (later : DrawsLive live (after.without item) result) :
      DrawsLive live shuffle result

theorem DrawsLive.unique
    {first second : Option α × Shuffle α}
    (draws : DrawsLive live shuffle first)
    (again : DrawsLive live shuffle second) :
    first = second := by
  induction draws with
  | spent draw =>
    cases again with
    | spent other => exact draw.symm.trans other
    | found other => cases draw.symm.trans other
    | dropped other => cases draw.symm.trans other
  | found draw isLive =>
    cases again with
    | spent other => cases draw.symm.trans other
    | found other => exact draw.symm.trans other
    | dropped other stale =>
      cases draw.symm.trans other
      exact absurd isLive stale
  | dropped draw stale later step =>
    cases again with
    | spent other => cases draw.symm.trans other
    | found other isLive =>
      cases draw.symm.trans other
      exact absurd isLive stale
    | dropped other _ rest =>
      cases draw.symm.trans other
      exact step rest

/-- With more attempts than candidates no attempt is missing: each failed one drops a candidate. -/
theorem drawsLive_choiceWithin
    (proper : shuffle.Proper)
    (enough : shuffle.size < attempts) :
    DrawsLive live shuffle (shuffle.choiceWithin live attempts) := by
  fun_induction choiceWithin live attempts shuffle with
  | case1 => exact absurd enough (Nat.not_lt_zero _)
  | case2 attempts shuffle after draw => exact .spent draw
  | case3 attempts shuffle item after draw isLive => exact .found draw isLive
  | case4 attempts shuffle item after draw stale step =>
    have kept : after.toList = shuffle.toList := by
      rw [← toList_choice shuffle, draw]
    have known : item ∈ after.toList := by
      have mayCome := mayCome_of_choice (congrArg Prod.fst draw)
      rw [kept]
      exact mayCome.elim (proper.deck_subset item) And.right
    have properAfter : after.Proper := by
      have chosen := proper.choice
      rwa [draw] at chosen
    have fewer := properAfter.size_without known
    have level : after.size = shuffle.size := congrArg List.length kept
    refine .dropped draw stale (step (properAfter.without item) ?_)
    exact Nat.lt_of_succ_lt_succ (Nat.lt_of_le_of_lt (Nat.le_of_eq (fewer.trans level)) enough)

/-- Drawing until a live handle comes ends, and with what the bounded draw gives. -/
theorem Proper.drawsLive_iff
    (proper : shuffle.Proper)
    {result : Option α × Shuffle α} :
    DrawsLive live shuffle result ↔ shuffle.choiceLive live = result := by
  have draws : DrawsLive live shuffle (shuffle.choiceLive live) :=
    drawsLive_choiceWithin proper (Nat.lt_succ_self shuffle.size)
  exact ⟨draws.unique, fun same => same ▸ draws⟩

theorem DrawsLive.sameLive
    {result : Option α × Shuffle α}
    (draws : DrawsLive live shuffle result)
    (proper : shuffle.Proper) :
    SameLive live shuffle result.2 := by
  rw [← proper.drawsLive_iff.1 draws]
  exact proper.sameLive_choiceLive live

theorem Proper.mem_liveCandidates_of_choiceLive
    (proper : shuffle.Proper)
    (drawn : (shuffle.choiceLive live).1 = some item) :
    item ∈ shuffle.liveCandidates live := by
  have draw := proper.liveDraw live
  generalize shuffle.choiceLive live = result at draw drawn
  cases draw with
  | next first =>
    cases drawn
    exact proper.liveDeck_subset (first ▸ List.mem_cons_self)
  | anew spent order =>
    cases drawn
    exact order.mem_iff.1 List.mem_cons_self
  | nobody => cases drawn

/-- The next draws among the live ones give these, in this order. -/
def Comes (live : α → Bool) : Shuffle α → List α → Prop
  | _, [] => True
  | shuffle, item :: rest =>
    ∃ after, shuffle.choiceLive live = (some item, after) ∧ Comes live after rest

/-- What a selection ends with that has so many draws left and has chosen these. -/
inductive Chooses (live accept : α → Bool) (count : Nat) :
    Nat → List α → Shuffle α → List α × Shuffle α → Prop
  /-- No draw is left. -/
  | ended {chosen : List α} {shuffle : Shuffle α} :
      Chooses live accept count 0 chosen shuffle (chosen, shuffle)
  /-- Enough are chosen. -/
  | enough {draws : Nat} {chosen : List α} {shuffle : Shuffle α}
      (full : count ≤ chosen.length) :
      Chooses live accept count (draws + 1) chosen shuffle (chosen, shuffle)
  /-- Nobody is live. -/
  | nobody {draws : Nat} {chosen : List α} {shuffle after : Shuffle α}
      (room : chosen.length < count)
      (draw : DrawsLive live shuffle (none, after)) :
      Chooses live accept count (draws + 1) chosen shuffle (chosen, after)
  /-- Who comes is chosen. -/
  | taken {draws : Nat} {chosen : List α} {shuffle after : Shuffle α} {item : α}
      {result : List α × Shuffle α}
      (room : chosen.length < count)
      (draw : DrawsLive live shuffle (some item, after))
      (accepted : accept item = true)
      (fresh : item ∉ chosen)
      (later : Chooses live accept count draws (chosen ++ [item]) after result) :
      Chooses live accept count (draws + 1) chosen shuffle result
  /-- Who comes is not accepted, or was chosen before. -/
  | passed {draws : Nat} {chosen : List α} {shuffle after : Shuffle α} {item : α}
      {result : List α × Shuffle α}
      (room : chosen.length < count)
      (draw : DrawsLive live shuffle (some item, after))
      (unfit : accept item = true → item ∈ chosen)
      (later : Chooses live accept count draws chosen after result) :
      Chooses live accept count (draws + 1) chosen shuffle result

namespace Chooses

variable {result other : List α × Shuffle α}

theorem unique
    (chooses : Chooses live accept count draws chosen shuffle result)
    (again : Chooses live accept count draws chosen shuffle other) :
    result = other := by
  induction chooses with
  | ended =>
    cases again
    rfl
  | enough full => grind [Chooses]
  | nobody room draw => grind [Chooses, DrawsLive.unique]
  | taken room draw accepted fresh later step => grind [Chooses, DrawsLive.unique]
  | passed room draw unfit later step => grind [Chooses, DrawsLive.unique]

/-- What is chosen stays chosen, in its place. -/
theorem chosen_prefix (chooses : Chooses live accept count draws chosen shuffle result) :
    chosen <+: result.1 := by
  induction chooses with
  | ended => exact List.prefix_rfl
  | enough => exact List.prefix_rfl
  | nobody => exact List.prefix_rfl
  | taken room draw accepted fresh later step => exact (List.prefix_append _ _).trans step
  | passed room draw unfit later step => exact step

/--
A selection takes what comes, as far as it is accepted and there is room, if none of it is chosen
already and there are draws enough for all of it.
-/
theorem covers
    (chooses : Chooses live accept count draws chosen shuffle result)
    (proper : shuffle.Proper)
    (comes : Comes live shuffle coming)
    (nodup : coming.Nodup)
    (unchosen : ∀ item ∈ coming, item ∉ chosen)
    (reach : coming.length ≤ draws) :
    chosen ++ (coming.filter accept).take (count - chosen.length) <+: result.1 := by
  induction chooses generalizing coming with
  | ended =>
    rw [List.length_eq_zero_iff.1 (Nat.le_zero.1 reach), List.filter_nil]
    exact append_prefix_of_nil List.take_nil List.prefix_rfl
  | enough full =>
    rw [Nat.sub_eq_zero_of_le full]
    exact append_prefix_of_nil List.take_zero List.prefix_rfl
  | nobody room draw =>
    rcases coming with _ | ⟨next, rest⟩
    · exact append_prefix_of_nil List.take_nil List.prefix_rfl
    · rcases comes with ⟨after, came, -⟩
      cases came.symm.trans (proper.drawsLive_iff.1 draw)
  | @taken draws chosen shuffle after item result room draw accepted fresh later step =>
    rcases coming with _ | ⟨next, rest⟩
    · exact append_prefix_of_nil List.take_nil
        ((List.prefix_append _ _).trans later.chosen_prefix)
    · rcases comes with ⟨left, came, follow⟩
      cases came.symm.trans (proper.drawsLive_iff.1 draw)
      rw [List.nodup_cons] at nodup
      have unchosenRest : ∀ other ∈ rest, other ∉ chosen ++ [item] := by
        intro other among
        rw [List.mem_append, List.mem_singleton, not_or]
        refine ⟨unchosen other (List.mem_cons_of_mem item among), ?_⟩
        rintro rfl
        exact nodup.1 among
      have covered := step (draw.sameLive proper).proper follow nodup.2 unchosenRest
        (Nat.le_of_succ_le_succ reach)
      have split : count - chosen.length = count - (chosen ++ [item]).length + 1 := by
        rw [List.length_append, List.length_singleton]
        omega
      rwa [List.filter_cons_of_pos accepted, split, List.take_succ_cons,
        List.append_cons]
  | @passed draws chosen shuffle after item result room draw unfit later step =>
    rcases coming with _ | ⟨next, rest⟩
    · exact append_prefix_of_nil List.take_nil later.chosen_prefix
    · rcases comes with ⟨left, came, follow⟩
      cases came.symm.trans (proper.drawsLive_iff.1 draw)
      have refused : ¬accept item = true := fun accepted =>
        unchosen item List.mem_cons_self (unfit accepted)
      rw [List.filter_cons_of_neg refused]
      exact step (draw.sameLive proper).proper follow (List.nodup_cons.1 nodup).2
        (fun other among => unchosen other (List.mem_cons_of_mem item among))
        (Nat.le_of_succ_le_succ reach)

end Chooses

/-- A choice of at most so many handles, none twice, that are live candidates and accepted. -/
structure Selected (live accept : α → Bool) (count : Nat) (shuffle : Shuffle α) (chosen : List α) :
    Prop where
  few : chosen.length ≤ count
  nodup : chosen.Nodup
  fit (item : α) (among : item ∈ chosen) : item ∈ (shuffle.liveCandidates live).filter accept

namespace Selected

theorem congr
    (selected : Selected live accept count shuffle chosen)
    (candidates : (after.liveCandidates live).Perm (shuffle.liveCandidates live)) :
    Selected live accept count after chosen :=
  ⟨selected.few, selected.nodup, fun item among =>
    (candidates.filter accept).mem_iff.2 (selected.fit item among)⟩

theorem snoc
    (selected : Selected live accept count shuffle chosen)
    (room : chosen.length < count)
    (fresh : item ∉ chosen)
    (fits : item ∈ (shuffle.liveCandidates live).filter accept) :
    Selected live accept count shuffle (chosen ++ [item]) := by
  refine ⟨?few, ?nodup, fun other among => ?fit⟩
  case few =>
    rw [List.length_append, List.length_singleton]
    exact room
  case nodup =>
    rw [← List.concat_eq_append]
    exact selected.nodup.concat fresh
  case fit =>
    rcases List.mem_append.1 among with before | last
    · exact selected.fit other before
    · exact List.mem_singleton.1 last ▸ fits

theorem length_le (selected : Selected live accept count shuffle chosen) :
    chosen.length ≤ min count ((shuffle.liveCandidates live).filter accept).length :=
  Nat.le_min_of_le_of_le selected.few (List.subperm_of_subset selected.nodup selected.fit).length_le

end Selected

theorem Chooses.selected
    {result : List α × Shuffle α}
    (chooses : Chooses live accept count draws chosen shuffle result)
    (proper : shuffle.Proper)
    (selected : Selected live accept count shuffle chosen) :
    Selected live accept count shuffle result.1 := by
  induction chooses with
  | ended => exact selected
  | enough => exact selected
  | nobody => exact selected
  | @taken draws chosen shuffle after item result room draw accepted fresh later step =>
    have kept := draw.sameLive proper
    have waits : item ∈ shuffle.liveCandidates live :=
      proper.mem_liveCandidates_of_choiceLive (congrArg Prod.fst (proper.drawsLive_iff.1 draw))
    have longer := selected.snoc room fresh (List.mem_filter.2 ⟨waits, accepted⟩)
    exact (step kept.proper (longer.congr (kept.perm proper))).congr (kept.perm proper).symm
  | passed room draw unfit later step =>
    have kept := draw.sameLive proper
    exact (step kept.proper (selected.congr (kept.perm proper))).congr (kept.perm proper).symm

/-! ## Selecting from a whole shuffle -/

namespace Proper

variable {result : List α × Shuffle α}

end Proper

/-! ## Every use of a shuffle of handles -/

end Shuffle

end ClusterMembership
