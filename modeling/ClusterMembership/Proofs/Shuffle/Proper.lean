import ClusterMembership.Shuffle.Weak
import Mathlib.Data.List.Nodup
import Mathlib.Data.List.Perm.Basic

/-!
# What the operations of a shuffle do

A shuffle holds every candidate twice, in the array and in the index, and those that are still to
come a third time in the deck.  It is proper if the three agree: the index is the inverse of the
array, and the deck has candidates only, none of them twice.  Of the operations, only a discard
puts this at risk, since it moves the last candidate of the array into the gap.

Every operation on a proper shuffle is then described by what it does to the candidates and to
the deck, as sets and where it matters as lists; nothing behind this module looks at the index.
-/

namespace ClusterMembership

namespace Tape

/-- A random insertion splits the list somewhere. -/
theorem insert_split {α : Type} (value : α) (values : List α) (tape : Tape) :
    ∃ before after, values = before ++ after ∧
      (tape.insert value values).1 = before ++ value :: after :=
  ⟨_, _, (List.take_append_drop _ values).symm, rfl⟩

end Tape

namespace Shuffle

variable
    {α : Type}
    [DecidableEq α]
    [Hashable α]
    {shuffle : Shuffle α}
    {item other : α}

/-- The index is the inverse of the array. -/
structure Indexed (shuffle : Shuffle α) : Prop where
  index (item : α) (position : Nat) :
    shuffle.positions[item]? = some position ↔ shuffle.candidates[position]? = some item

/-- The index is the inverse of the array, and the deck has candidates only, none twice. -/
structure Proper (shuffle : Shuffle α) : Prop extends Indexed shuffle where
  deck_nodup : shuffle.deck.Nodup
  deck_subset (item : α) (waits : item ∈ shuffle.deck) : item ∈ shuffle.toList

theorem proper_empty (tape : Tape) : (empty tape : Shuffle α).Proper where
  index item position := by simp [empty]
  deck_nodup := List.nodup_nil
  deck_subset _ waits := absurd waits List.not_mem_nil

theorem getElem?_toList (shuffle : Shuffle α) (position : Nat) :
    shuffle.toList[position]? = shuffle.candidates[position]? :=
  Array.getElem?_toList

theorem mem_toList_iff :
    item ∈ shuffle.toList ↔ ∃ position : Nat, shuffle.candidates[position]? = some item := by
  rw [List.mem_iff_getElem?]
  exact exists_congr fun position => by rw [getElem?_toList]

namespace Indexed

theorem lookup_eq_none_iff (indexed : shuffle.Indexed) :
    shuffle.positions[item]? = none ↔ item ∉ shuffle.toList := by
  rw [mem_toList_iff, Option.eq_none_iff_forall_ne_some, not_exists]
  exact forall_congr' fun position => not_congr (indexed.index item position)

theorem contains_iff (indexed : shuffle.Indexed) :
    shuffle.contains item = true ↔ item ∈ shuffle.toList := by
  rw [← not_iff_not, ← indexed.lookup_eq_none_iff, contains,
    Std.ExtHashMap.contains_eq_isSome_getElem?, Bool.not_eq_true, Option.isSome_eq_false_iff,
    Option.isNone_iff_eq_none]

/-- No candidate has two positions, since the index has one for each. -/
theorem position_unique
    (indexed : shuffle.Indexed)
    {first second : Nat}
    (here : shuffle.candidates[first]? = some item)
    (there : shuffle.candidates[second]? = some item) :
    first = second := by
  rw [← indexed.index] at here there
  exact Option.some.inj (here.symm.trans there)

theorem nodup (indexed : shuffle.Indexed) : shuffle.toList.Nodup := by
  rw [List.nodup_iff_getElem?_ne_getElem?]
  intro first second before inside same
  have found : shuffle.toList[second]? = some shuffle.toList[second] :=
    List.getElem?_eq_getElem inside
  have level : first = second := by
    rw [found, getElem?_toList] at same
    rw [getElem?_toList] at found
    exact indexed.position_unique same found
  exact absurd level (Nat.ne_of_lt before)

end Indexed

/-! ## Adding -/

theorem Indexed.add_known (indexed : shuffle.Indexed) (known : item ∈ shuffle.toList) :
    shuffle.add item = (false, shuffle) :=
  if_pos (indexed.contains_iff.2 known)

theorem Indexed.add_fresh (indexed : shuffle.Indexed) (fresh : item ∉ shuffle.toList) :
    (shuffle.add item).1 = true ∧
      (shuffle.add item).2.positions = shuffle.positions.insert item shuffle.candidates.size ∧
      (shuffle.add item).2.candidates = shuffle.candidates.push item := by
  rw [add, if_neg (mt indexed.contains_iff.1 fresh)]
  dsimp only
  split <;> exact ⟨rfl, rfl, rfl⟩

theorem Indexed.add_eq_false_iff (indexed : shuffle.Indexed) :
    (shuffle.add item).1 = false ↔ item ∈ shuffle.toList := by
  by_cases known : item ∈ shuffle.toList
  · exact iff_of_true (by rw [indexed.add_known known]) known
  · rw [(indexed.add_fresh known).1]
    exact iff_of_false Bool.noConfusion known

/-- An item that joins while nothing is to come does not come in this cycle. -/
theorem Indexed.deck_add_spent (indexed : shuffle.Indexed) (spent : shuffle.deck = []) :
    (shuffle.add item).2.deck = [] := by
  by_cases known : item ∈ shuffle.toList
  · rw [indexed.add_known known, spent]
  · rw [add, if_neg (mt indexed.contains_iff.1 known)]
    dsimp only
    rw [spent, if_pos List.isEmpty_nil]

/-- An item that joins a cycle under way comes somewhere between the others. -/
theorem Indexed.deck_add_underWay
    (indexed : shuffle.Indexed)
    (fresh : item ∉ shuffle.toList)
    (underWay : shuffle.deck ≠ []) :
    ∃ before after, shuffle.deck = before ++ after ∧
      (shuffle.add item).2.deck = before ++ item :: after := by
  rw [add, if_neg (mt indexed.contains_iff.1 fresh)]
  dsimp only
  rw [if_neg (mt List.isEmpty_iff.1 underWay)]
  exact Tape.insert_split item shuffle.deck shuffle.tape

theorem Indexed.mem_toList_add (indexed : shuffle.Indexed) :
    other ∈ (shuffle.add item).2.toList ↔ other = item ∨ other ∈ shuffle.toList := by
  by_cases known : item ∈ shuffle.toList
  · rw [indexed.add_known known]
    exact ⟨.inr, Or.rec (fun same => same ▸ known) id⟩
  · rw [toList, (indexed.add_fresh known).2.2, Array.toList_push, List.mem_append,
      List.mem_singleton, or_comm]
    rfl

theorem Indexed.mem_deck_add (indexed : shuffle.Indexed) (fresh : item ∉ shuffle.toList) :
    other ∈ (shuffle.add item).2.deck ↔
      (other = item ∧ shuffle.deck ≠ []) ∨ other ∈ shuffle.deck := by
  by_cases spent : shuffle.deck = []
  · simp [indexed.deck_add_spent spent, spent]
  · rcases indexed.deck_add_underWay fresh spent with ⟨before, after, split, joined⟩
    rw [joined, split, List.mem_append, List.mem_cons, List.mem_append, ← split]
    simp only [spent, ne_eq, not_false_eq_true, and_true]
    exact or_left_comm

theorem Indexed.add (indexed : shuffle.Indexed) (item : α) : (shuffle.add item).2.Indexed := by
  by_cases known : item ∈ shuffle.toList
  · rw [indexed.add_known known]
    exact indexed
  rcases indexed.add_fresh known with ⟨-, positions, candidates⟩
  constructor
  intro queried position
  rw [positions, candidates, Std.ExtHashMap.getElem?_insert, Array.getElem?_push]
  by_cases last : position = shuffle.candidates.size
  · rw [if_pos last, last]
    split
    · rename_i here
      simp [eq_of_beq here]
    · rename_i elsewhere
      rw [indexed.index, Array.getElem?_eq_none (Nat.le_refl _)]
      simpa using fun same : item = queried => elsewhere (beq_iff_eq.2 same)
  · rw [if_neg last, ← indexed.index]
    split
    · rename_i here
      rw [← eq_of_beq here, indexed.lookup_eq_none_iff.2 known]
      simpa using fun same => last same.symm
    · exact Iff.rfl

theorem Proper.add (proper : shuffle.Proper) (item : α) : (shuffle.add item).2.Proper := by
  by_cases known : item ∈ shuffle.toList
  · rw [proper.add_known known]
    exact proper
  refine ⟨proper.toIndexed.add item, ?nodup, fun queried waits => ?subset⟩
  case nodup =>
    by_cases spent : shuffle.deck = []
    · rw [proper.deck_add_spent spent]
      exact List.nodup_nil
    · rcases proper.deck_add_underWay known spent with ⟨before, after, split, joined⟩
      rw [joined, List.nodup_middle, List.nodup_cons, ← split]
      exact ⟨fun waits => known (proper.deck_subset item waits), proper.deck_nodup⟩
  case subset =>
    rw [proper.mem_toList_add]
    exact ((proper.mem_deck_add known).1 waits).imp And.left (proper.deck_subset queried)

/-! ## Discarding -/

/-- What a discard leaves, whether or not there is something to discard. -/
def without (shuffle : Shuffle α) (item : α) : Shuffle α :=
  (shuffle.discard? item).getD shuffle

namespace Indexed

theorem discard?_eq_none_iff (indexed : shuffle.Indexed) :
    shuffle.discard? item = none ↔ item ∉ shuffle.toList := by
  rw [← indexed.lookup_eq_none_iff, discard?]
  split
  · rename_i absent
    exact iff_of_true rfl absent
  · rename_i position found
    rw [found]
    dsimp only
    split <;> exact iff_of_false (Option.some_ne_none _) (Option.some_ne_none _)

theorem without_unknown (indexed : shuffle.Indexed) (unknown : item ∉ shuffle.toList) :
    shuffle.without item = shuffle := by
  rw [without, indexed.discard?_eq_none_iff.2 unknown, Option.getD_none]

theorem discard?_known (indexed : shuffle.Indexed) (known : item ∈ shuffle.toList) :
    shuffle.discard? item = some (shuffle.without item) := by
  have something : shuffle.discard? item ≠ none := fun absent =>
    indexed.discard?_eq_none_iff.1 absent known
  rcases Option.ne_none_iff_exists'.1 something with ⟨smaller, found⟩
  rw [without, found, Option.getD_some]

theorem discard_known [ToString α] (indexed : shuffle.Indexed) (known : item ∈ shuffle.toList) :
    shuffle.discard item = .ok (shuffle.without item) := by
  rw [discard, indexed.discard?_known known]

theorem discard_eq_error_iff [ToString α] (indexed : shuffle.Indexed) :
    shuffle.discard item = .error (.notFound s!"shuffle candidate {item}") ↔
      item ∉ shuffle.toList := by
  by_cases unknown : item ∉ shuffle.toList
  · refine iff_of_true ?_ unknown
    rw [discard, indexed.discard?_eq_none_iff.2 unknown]
  · rw [indexed.discard_known (not_not.1 unknown)]
    exact iff_of_false (fun refused => nomatch refused) unknown

variable
    {position : Nat}
    {last : α}

/-- A discard moves the last candidate into the gap. -/
theorem without_known
    (indexed : shuffle.Indexed)
    (found : shuffle.candidates[position]? = some item)
    (back : shuffle.candidates.back? = some last) :
    (shuffle.without item).candidates = (shuffle.candidates.setIfInBounds position last).pop ∧
      (shuffle.without item).positions =
        (if position < shuffle.candidates.size - 1 then
          (shuffle.positions.erase item).insert last position
        else
          shuffle.positions.erase item) ∧
      (shuffle.without item).deck = shuffle.deck.filter (· ≠ item) := by
  have held := (indexed.index item position).2 found
  simp [without, discard?, held, back]

/-- A candidate has a position, and then there is a last candidate. -/
theorem exists_last (known : item ∈ shuffle.toList) :
    ∃ (position : Nat) (last : α), shuffle.candidates[position]? = some item ∧
      shuffle.candidates.back? = some last := by
  rcases mem_toList_iff.1 known with ⟨position, found⟩
  rcases Array.getElem?_eq_some_iff.1 found with ⟨inside, -⟩
  have back : shuffle.candidates.back? = some shuffle.candidates[shuffle.candidates.size - 1] := by
    rw [Array.back?_eq_getElem?]
    exact Array.getElem?_eq_getElem (by omega)
  exact ⟨position, _, found, back⟩

/-- The candidate that goes is the last one exactly if it stands at the end. -/
theorem eq_last_iff
    (indexed : shuffle.Indexed)
    (found : shuffle.candidates[position]? = some item)
    (back : shuffle.candidates.back? = some last) :
    last = item ↔ ¬position < shuffle.candidates.size - 1 := by
  rw [Array.back?_eq_getElem?] at back
  rcases Array.getElem?_eq_some_iff.1 found with ⟨inside, -⟩
  constructor
  · rintro rfl
    have level := indexed.position_unique found back
    omega
  · intro atEnd
    have level : position = shuffle.candidates.size - 1 := by omega
    rw [← level, found] at back
    exact (Option.some.inj back).symm

theorem candidate_without
    (indexed : shuffle.Indexed)
    (found : shuffle.candidates[position]? = some item)
    (back : shuffle.candidates.back? = some last)
    (place : Nat) :
    (shuffle.without item).candidates[place]? =
      if place < shuffle.candidates.size - 1 then
        if position = place then some last else shuffle.candidates[place]?
      else
        none := by
  rcases Array.getElem?_eq_some_iff.1 found with ⟨inside, -⟩
  rw [(indexed.without_known found back).1, Array.getElem?_pop, Array.size_setIfInBounds,
    Array.getElem?_setIfInBounds, if_pos inside]

theorem lookup_without
    (indexed : shuffle.Indexed)
    (found : shuffle.candidates[position]? = some item)
    (back : shuffle.candidates.back? = some last)
    (queried : α) :
    (shuffle.without item).positions[queried]? =
      if queried = item then none
      else if queried = last then some position
      else shuffle.positions[queried]? := by
  have ends := indexed.eq_last_iff found back
  rw [(indexed.without_known found back).2.1]
  split
  · rename_i before
    have differ : ¬last = item := fun same => ends.1 same before
    rw [Std.ExtHashMap.getElem?_insert, Std.ExtHashMap.getElem?_erase]
    grind
  · rename_i atEnd
    rw [Std.ExtHashMap.getElem?_erase]
    grind

end Indexed

/-- The index is right again after the last candidate has filled the gap. -/
theorem Indexed.without (indexed : shuffle.Indexed) (item : α) :
    (shuffle.without item).Indexed := by
  by_cases unknown : item ∉ shuffle.toList
  · rw [indexed.without_unknown unknown]
    exact indexed
  rcases exists_last (not_not.1 unknown) with ⟨position, last, found, back⟩
  have ends := indexed.eq_last_iff found back
  have atEnd : shuffle.candidates[shuffle.candidates.size - 1]? = some last := by
    rw [← Array.back?_eq_getElem?, back]
  constructor
  intro queried place
  rw [indexed.lookup_without found back, indexed.candidate_without found back]
  by_cases gone : queried = item
  · have elsewhere (here : shuffle.candidates[place]? = some item) : position = place :=
      indexed.position_unique found here
    grind
  by_cases moved : queried = last
  · have elsewhere (here : shuffle.candidates[place]? = some last) :
        place = shuffle.candidates.size - 1 := indexed.position_unique here atEnd
    grind
  · rw [if_neg gone, if_neg moved, indexed.index]
    grind

theorem Indexed.mem_toList_without (indexed : shuffle.Indexed) :
    other ∈ (shuffle.without item).toList ↔ other ∈ shuffle.toList ∧ other ≠ item := by
  by_cases unknown : item ∉ shuffle.toList
  · rw [indexed.without_unknown unknown]
    exact (and_iff_left_of_imp fun held (same : other = item) => unknown (same ▸ held)).symm
  rcases exists_last (not_not.1 unknown) with ⟨position, last, found, back⟩
  have lastHeld : last ∈ shuffle.toList :=
    mem_toList_iff.2 ⟨_, Array.back?_eq_getElem?.symm.trans back⟩
  rw [← not_iff_not, ← (indexed.without item).lookup_eq_none_iff,
    indexed.lookup_without found back, not_and_or, not_not, ← indexed.lookup_eq_none_iff]
  split
  case isTrue gone => exact iff_of_true rfl (.inr gone)
  case isFalse stays =>
    rw [or_iff_left stays]
    split
    case isTrue moved =>
      subst moved
      rw [indexed.lookup_eq_none_iff]
      exact iff_of_false (Option.some_ne_none _) (not_not.2 lastHeld)
    case isFalse => exact Iff.rfl

theorem Indexed.size_without (indexed : shuffle.Indexed) (known : item ∈ shuffle.toList) :
    (shuffle.without item).size + 1 = shuffle.size := by
  rcases exists_last known with ⟨position, last, found, back⟩
  rcases Array.getElem?_eq_some_iff.1 found with ⟨inside, -⟩
  rw [size, (indexed.without_known found back).1, Array.size_pop, Array.size_setIfInBounds, size]
  omega

theorem Proper.deck_without (proper : shuffle.Proper) :
    (shuffle.without item).deck = shuffle.deck.filter (· ≠ item) := by
  by_cases unknown : item ∉ shuffle.toList
  · rw [proper.without_unknown unknown]
    refine (List.filter_eq_self.2 fun queried waits => decide_eq_true ?_).symm
    rintro rfl
    exact unknown (proper.deck_subset queried waits)
  · rcases Indexed.exists_last (not_not.1 unknown) with ⟨position, last, found, back⟩
    exact (proper.without_known found back).2.2

theorem Proper.mem_deck_without (proper : shuffle.Proper) :
    other ∈ (shuffle.without item).deck ↔ other ∈ shuffle.deck ∧ other ≠ item := by
  rw [proper.deck_without, List.mem_filter, decide_eq_true_iff]

theorem Proper.without (proper : shuffle.Proper) (item : α) : (shuffle.without item).Proper := by
  refine ⟨proper.toIndexed.without item, ?nodup, fun queried waits => ?subset⟩
  case nodup =>
    rw [proper.deck_without]
    exact proper.deck_nodup.filter _
  case subset =>
    rw [proper.mem_deck_without] at waits
    exact proper.mem_toList_without.2 (waits.imp_left (proper.deck_subset queried))

/-! ## Drawing -/

/-- What a draw gives and leaves. -/
inductive Draws (shuffle : Shuffle α) : Option α × Shuffle α → Prop
  /-- The next of the deck. -/
  | next {item : α} {rest : List α}
      (underWay : shuffle.deck = item :: rest) :
      Draws shuffle (some item, { shuffle with deck := rest })
  /-- The first of a new deck, which has all candidates in some order. -/
  | anew {item : α} {rest : List α}
      (tape : Tape)
      (spent : shuffle.deck = [])
      (order : (item :: rest).Perm shuffle.toList) :
      Draws shuffle (some item, { shuffle with deck := rest, tape })
  /-- Nothing, since there is no candidate. -/
  | nobody
      (spent : shuffle.deck = [])
      (lone : shuffle.toList = []) :
      Draws shuffle (none, shuffle)

theorem draws_choice (shuffle : Shuffle α) : shuffle.Draws shuffle.choice := by
  rcases underWay : shuffle.deck with _ | ⟨item, rest⟩
  · rw [choice, underWay]
    dsimp only
    have order := Tape.shuffle_perm shuffle.toList shuffle.tape
    rcases shuffled : shuffle.tape.shuffle shuffle.toList with ⟨_ | ⟨item, rest⟩, tape⟩
    · rw [shuffled] at order
      exact .nobody underWay order.nil_eq.symm
    · rw [shuffled] at order
      exact .anew tape underWay order
  · rw [choice, underWay]
    exact .next underWay

theorem toList_choice (shuffle : Shuffle α) : shuffle.choice.2.toList = shuffle.toList := by
  have drawn := shuffle.draws_choice
  generalize shuffle.choice = result at drawn
  cases drawn <;> rfl

theorem Proper.choice (proper : shuffle.Proper) : shuffle.choice.2.Proper := by
  have drawn := shuffle.draws_choice
  generalize shuffle.choice = result at drawn
  cases drawn with
  | nobody => exact proper
  | @next item rest underWay =>
    have nodup := proper.deck_nodup
    rw [underWay] at nodup
    refine ⟨⟨proper.index⟩, (List.nodup_cons.1 nodup).2, fun queried waits => ?_⟩
    exact proper.deck_subset queried (underWay ▸ List.mem_cons_of_mem item waits)
  | @anew item rest tape spent order =>
    have nodup := order.nodup_iff.2 proper.nodup
    refine ⟨⟨proper.index⟩, (List.nodup_cons.1 nodup).2, fun queried waits => ?_⟩
    exact order.mem_iff.1 (List.mem_cons_of_mem item waits)

/-- The items that a draw may give: the deck, or all candidates if the deck is spent. -/
def MayCome (shuffle : Shuffle α) (item : α) : Prop :=
  item ∈ shuffle.deck ∨ shuffle.deck = [] ∧ item ∈ shuffle.toList

theorem mayCome_of_choice (drawn : shuffle.choice.1 = some item) : shuffle.MayCome item := by
  have draws := shuffle.draws_choice
  generalize shuffle.choice = result at draws drawn
  cases draws with
  | nobody => cases drawn
  | next underWay =>
    cases drawn
    exact .inl (underWay ▸ List.mem_cons_self)
  | anew tape spent order =>
    cases drawn
    exact .inr ⟨spent, order.mem_iff.1 List.mem_cons_self⟩

/-- What might have come and did not is still to come. -/
theorem Proper.mem_deck_choice (proper : shuffle.Proper) :
    item ∈ shuffle.choice.2.deck ↔ shuffle.MayCome item ∧ shuffle.choice.1 ≠ some item := by
  have draws := shuffle.draws_choice
  rw [MayCome]
  generalize shuffle.choice = result at draws
  cases draws with
  | nobody spent lone => simp [spent, lone]
  | @next first rest underWay =>
    have nodup := proper.deck_nodup
    rw [underWay, List.nodup_cons] at nodup
    rw [underWay]
    grind
  | @anew first rest tape spent order =>
    have nodup := order.nodup_iff.2 proper.nodup
    rw [List.nodup_cons] at nodup
    rw [spent, ← order.mem_iff]
    grind

theorem Proper.choice_eq_none_iff (proper : shuffle.Proper) :
    shuffle.choice.1 = none ↔ shuffle.toList = [] := by
  have draws := shuffle.draws_choice
  generalize shuffle.choice = result at draws
  cases draws with
  | nobody spent lone => exact iff_of_true rfl lone
  | @next item rest underWay =>
    have held := proper.deck_subset item (underWay ▸ List.mem_cons_self)
    exact iff_of_false (Option.some_ne_none item) (List.ne_nil_of_mem held)
  | @anew item rest tape spent order =>
    have held := order.mem_iff.1 List.mem_cons_self
    exact iff_of_false (Option.some_ne_none item) (List.ne_nil_of_mem held)

end Shuffle

end ClusterMembership
