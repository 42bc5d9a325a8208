import ClusterMembership.Proofs.Shuffle.Proper

/-!
# What stale candidates leave of a draw

Of a shuffle with stale candidates only the live part counts: the live candidates, and those of
them that are still to come, in their order.  Adding or dropping stale candidates does not change
the live part.  A draw among the live ones takes the first of the live deck; if there is none, it
takes the first of a new order of all live candidates, `LiveDraw`.  That is what a draw does in a
shuffle without stale candidates.

A candidate that stays live comes within as many draws as `ahead` says: each draw that gives
another one makes the number smaller, and it is less than twice the number of live candidates,
whatever is stale and whatever the draws give.
-/

namespace ClusterMembership

namespace Shuffle

variable
    {α : Type}
    [DecidableEq α]
    [Hashable α]
    {live : α → Bool}
    {shuffle smaller after : Shuffle α}
    {item other : α}
    {attempts : Nat}

/-- The live candidates. -/
def liveCandidates (live : α → Bool) (shuffle : Shuffle α) : List α :=
  shuffle.toList.filter live

/-- The live candidates that are still to come, next first. -/
def liveDeck (live : α → Bool) (shuffle : Shuffle α) : List α :=
  shuffle.deck.filter live

theorem mem_liveCandidates :
    item ∈ shuffle.liveCandidates live ↔ item ∈ shuffle.toList ∧ live item = true :=
  List.mem_filter

theorem mem_liveDeck : item ∈ shuffle.liveDeck live ↔ item ∈ shuffle.deck ∧ live item = true :=
  List.mem_filter

/-- The later shuffle is proper and has the same live candidates. -/
structure SameLive (live : α → Bool) (shuffle after : Shuffle α) : Prop where
  proper : after.Proper
  candidates (item : α) (isLive : live item = true) : item ∈ after.toList ↔ item ∈ shuffle.toList

namespace SameLive

theorem refl (proper : shuffle.Proper) : SameLive live shuffle shuffle :=
  ⟨proper, fun _ _ => Iff.rfl⟩

theorem trans (first : SameLive live shuffle smaller) (second : SameLive live smaller after) :
    SameLive live shuffle after :=
  ⟨second.proper, fun item isLive =>
    (second.candidates item isLive).trans (first.candidates item isLive)⟩

theorem perm (same : SameLive live shuffle after) (proper : shuffle.Proper) :
    (after.liveCandidates live).Perm (shuffle.liveCandidates live) := by
  refine (List.perm_ext_iff_of_nodup (same.proper.nodup.filter _) (proper.nodup.filter _)).2 ?_
  intro item
  rw [List.mem_filter, List.mem_filter]
  exact and_congr_left fun isLive => same.candidates item isLive

theorem choice (live : α → Bool) (proper : shuffle.Proper) :
    SameLive live shuffle shuffle.choice.2 :=
  ⟨proper.choice, fun _ _ => by rw [toList_choice]⟩

/-- Dropping a stale candidate keeps the live ones. -/
theorem without (proper : shuffle.Proper) (stale : ¬live item = true) :
    SameLive live shuffle (shuffle.without item) := by
  refine ⟨proper.without item, fun other isLive => ?_⟩
  rw [proper.mem_toList_without, and_iff_left]
  rintro rfl
  exact stale isLive

end SameLive

/-! ## The live deck -/

theorem Proper.liveDeck_without (proper : shuffle.Proper) (stale : ¬live item = true) :
    (shuffle.without item).liveDeck live = shuffle.liveDeck live := by
  rw [liveDeck, proper.deck_without, List.filter_filter, liveDeck]
  refine List.filter_congr fun other _ => ?_
  by_cases same : other = item
  · simp [same, stale]
  · simp [same]

/-- What a draw among the live ones gives and leaves. -/
inductive LiveDraw (live : α → Bool) (shuffle : Shuffle α) : Option α × Shuffle α → Prop
  /-- The next of the live deck. -/
  | next {item : α} {after : Shuffle α}
      (first : shuffle.liveDeck live = item :: after.liveDeck live) :
      LiveDraw live shuffle (some item, after)
  /-- The first of a new order of all live candidates. -/
  | anew {item : α} {after : Shuffle α}
      (spent : shuffle.liveDeck live = [])
      (order : (item :: after.liveDeck live).Perm (shuffle.liveCandidates live)) :
      LiveDraw live shuffle (some item, after)
  /-- Nobody, since there is no live candidate. -/
  | nobody {after : Shuffle α}
      (lone : shuffle.liveCandidates live = [])
      (gone : after.toList = []) :
      LiveDraw live shuffle (none, after)

namespace LiveDraw

variable {result : Option α × Shuffle α}

/-- A draw is as good as one from a shuffle with the same live part. -/
theorem of_sameDeck
    (draw : LiveDraw live smaller result)
    (deck : smaller.liveDeck live = shuffle.liveDeck live)
    (candidates : (smaller.liveCandidates live).Perm (shuffle.liveCandidates live)) :
    LiveDraw live shuffle result := by
  cases draw with
  | next first => exact .next (deck.symm.trans first)
  | anew spent order => exact .anew (deck.symm.trans spent) (order.trans candidates)
  | nobody lone gone => exact .nobody (lone ▸ candidates).nil_eq.symm gone

/-- A draw is as good as one after a new order of all live candidates was set up. -/
theorem of_newDeck
    (draw : LiveDraw live smaller result)
    (spent : shuffle.liveDeck live = [])
    (order : (smaller.liveDeck live).Perm (shuffle.liveCandidates live))
    (candidates : (smaller.liveCandidates live).Perm (shuffle.liveCandidates live)) :
    LiveDraw live shuffle result := by
  cases draw with
  | next first => exact .anew spent (first ▸ order)
  | anew _ shuffled => exact .anew spent (shuffled.trans candidates)
  | nobody lone gone => exact .nobody (lone ▸ candidates).nil_eq.symm gone

end LiveDraw

theorem liveDraw_choiceWithin
    (proper : shuffle.Proper)
    (enough : shuffle.size < attempts) :
    LiveDraw live shuffle (shuffle.choiceWithin live attempts) := by
  induction attempts generalizing shuffle with
  | zero => exact absurd enough (Nat.not_lt_zero _)
  | succ attempts step =>
    have draws := shuffle.draws_choice
    have kept := SameLive.choice live proper
    rw [choiceWithin]
    generalize shuffle.choice = result at draws kept
    cases draws with
    | nobody spent lone =>
      have nobody : shuffle.liveCandidates live = [] := by
        rw [liveCandidates, lone, List.filter_nil]
      exact .nobody nobody lone
    | @next item rest underWay =>
      dsimp only
      split
      case isTrue isLive =>
        refine .next ?_
        rw [liveDeck, underWay, List.filter_cons_of_pos isLive]
        rfl
      case isFalse stale =>
        have known : item ∈ shuffle.toList :=
          proper.deck_subset item (underWay ▸ List.mem_cons_self)
        have dropped := SameLive.without kept.proper stale
        have fewer := kept.proper.size_without known
        have deck := kept.proper.liveDeck_without stale
        refine (step dropped.proper ?_).of_sameDeck ?_ ((kept.trans dropped).perm proper)
        · exact Nat.lt_of_succ_lt_succ (Nat.lt_of_le_of_lt (Nat.le_of_eq fewer) enough)
        · rw [deck, liveDeck, liveDeck, underWay, List.filter_cons_of_neg stale]
    | @anew item rest tape spent order =>
      dsimp only
      have nothing : shuffle.liveDeck live = [] := by rw [liveDeck, spent, List.filter_nil]
      have ordered := order.filter live
      split
      case isTrue isLive =>
        rw [List.filter_cons_of_pos isLive] at ordered
        exact .anew nothing ordered
      case isFalse stale =>
        rw [List.filter_cons_of_neg stale] at ordered
        have known : item ∈ shuffle.toList := order.mem_iff.1 List.mem_cons_self
        have dropped := SameLive.without kept.proper stale
        have fewer := kept.proper.size_without known
        have deck := kept.proper.liveDeck_without stale
        refine (step dropped.proper ?_).of_newDeck nothing ?_ ((kept.trans dropped).perm proper)
        · exact Nat.lt_of_succ_lt_succ (Nat.lt_of_le_of_lt (Nat.le_of_eq fewer) enough)
        · rw [deck]
          exact ordered

theorem Proper.liveDraw (proper : shuffle.Proper) (live : α → Bool) :
    LiveDraw live shuffle (shuffle.choiceLive live) :=
  liveDraw_choiceWithin proper (Nat.lt_succ_self shuffle.size)

/-- A draw among the live ones loses none of them. -/
theorem sameLive_choiceWithin (proper : shuffle.Proper) (attempts : Nat) :
    SameLive live shuffle (shuffle.choiceWithin live attempts).2 := by
  fun_induction choiceWithin live attempts shuffle with
  | case1 shuffle => exact .refl proper
  | case2 attempts shuffle rest gives =>
    have kept := SameLive.choice live proper
    rw [gives] at kept
    exact kept
  | case3 attempts shuffle first rest gives isLive =>
    have kept := SameLive.choice live proper
    rw [gives] at kept
    exact kept
  | case4 attempts shuffle first rest gives stale step =>
    have kept := SameLive.choice live proper
    rw [gives] at kept
    have dropped := SameLive.without kept.proper stale
    exact (kept.trans dropped).trans (step dropped.proper)

theorem Proper.sameLive_choiceLive (proper : shuffle.Proper) (live : α → Bool) :
    SameLive live shuffle (shuffle.choiceLive live).2 :=
  sameLive_choiceWithin proper (shuffle.size + 1)

/-! ## Choosing and pruning -/

theorem sameLive_chooseWithin
    (proper : shuffle.Proper)
    (accept : α → Bool)
    (count draws : Nat)
    (chosen : List α) :
    SameLive live shuffle (chooseWithin live accept count draws chosen shuffle).2 := by
  fun_induction chooseWithin live accept count draws chosen shuffle with
  | case1 => exact .refl proper
  | case2 => exact .refl proper
  | case3 draws chosen shuffle _ rest gives =>
    have kept := proper.sameLive_choiceLive live
    rw [gives] at kept
    exact kept
  | case4 draws chosen shuffle _ handle rest gives _ step =>
    have kept := proper.sameLive_choiceLive live
    rw [gives] at kept
    exact kept.trans (step kept.proper)
  | case5 draws chosen shuffle _ handle rest gives _ step =>
    have kept := proper.sameLive_choiceLive live
    rw [gives] at kept
    exact kept.trans (step kept.proper)

/-- Choosing loses no live candidate. -/
theorem Proper.sameLive_choose
    (proper : shuffle.Proper)
    (live accept : α → Bool)
    (count : Nat) :
    SameLive live shuffle (shuffle.choose live accept count).2 :=
  sameLive_chooseWithin proper accept count shuffle.size []

/-- Pruning is discarding stale candidates one by one. -/
theorem snd_prune (shuffle : Shuffle α) (live : α → Bool) :
    (shuffle.prune live).2 =
      (shuffle.toList.filter (fun handle => !live handle)).foldl without shuffle :=
  rfl

theorem sameLive_withoutAll
    (proper : shuffle.Proper)
    {items : List α}
    (stale : ∀ item ∈ items, ¬live item = true) :
    SameLive live shuffle (items.foldl without shuffle) ∧
      (items.foldl without shuffle).liveDeck live = shuffle.liveDeck live := by
  induction items generalizing shuffle with
  | nil => exact ⟨.refl proper, rfl⟩
  | cons first rest step =>
    have gone := stale first List.mem_cons_self
    have dropped := SameLive.without proper gone
    rcases step dropped.proper fun item among => stale item (List.mem_cons_of_mem first among)
      with ⟨kept, deck⟩
    exact ⟨dropped.trans kept, deck.trans (proper.liveDeck_without gone)⟩

/-- Pruning loses no live candidate, and does not touch the live deck. -/
theorem Proper.sameLive_prune (proper : shuffle.Proper) (live : α → Bool) :
    SameLive live shuffle (shuffle.prune live).2 ∧
      (shuffle.prune live).2.liveDeck live = shuffle.liveDeck live := by
  rw [snd_prune]
  refine sameLive_withoutAll proper fun item among => ?_
  simpa using (List.mem_filter.1 among).2

/-! ## Adding many -/

/-- Add items one by one. -/
def addAll (shuffle : Shuffle α) (items : List α) : Shuffle α :=
  items.foldl (fun shuffle item => (shuffle.add item).2) shuffle

theorem Proper.addAll (proper : shuffle.Proper) (items : List α) :
    (shuffle.addAll items).Proper := by
  induction items generalizing shuffle with
  | nil => exact proper
  | cons first rest step => exact step (proper.add first)

theorem Proper.mem_toList_addAll (proper : shuffle.Proper) {items : List α} :
    item ∈ (shuffle.addAll items).toList ↔ item ∈ items ∨ item ∈ shuffle.toList := by
  induction items generalizing shuffle with
  | nil => exact (or_iff_right List.not_mem_nil).symm
  | cons first rest step =>
    refine (step (proper.add first)).trans ?_
    rw [proper.mem_toList_add, List.mem_cons, or_left_comm, or_assoc]

/-- Within how many draws an item comes: the rest of the cycle, and the next cycle if need be. -/
def ahead (shuffle : Shuffle α) (live : α → Bool) (item : α) : Nat :=
  (shuffle.liveDeck live).length +
    if item ∈ shuffle.liveDeck live then 0 else (shuffle.liveCandidates live).length

theorem Proper.liveDeck_subset (proper : shuffle.Proper) :
    shuffle.liveDeck live ⊆ shuffle.liveCandidates live := by
  intro item waits
  rw [mem_liveDeck] at waits
  exact mem_liveCandidates.2 (waits.imp_left (proper.deck_subset item))

end Shuffle

end ClusterMembership
