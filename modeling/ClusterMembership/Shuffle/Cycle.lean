import ClusterMembership.Error
import ClusterMembership.Random.Tape
import Std.Data.ExtHashMap

/-!
# Cyclic random selection

A shuffle hands out every candidate once per cycle, in a fresh random order each
cycle.  Probing walks the cluster this way, so the time to visit every member is
bounded by one cycle instead of being left to chance.

The candidates stand in an array with an index from each candidate to its
position, so that a candidate is found and removed without a search.  The deck
holds what is still to come in the current cycle, next draw first.
-/

namespace ClusterMembership

/-- A cyclic random permutation of a set of candidates. -/
structure Shuffle (α : Type) [DecidableEq α] [Hashable α] where
  /-- The candidates in internal order. -/
  candidates : Array α
  /-- The position of each candidate. -/
  positions : Std.ExtHashMap α Nat
  /-- What is still to be drawn in this cycle, next first. -/
  deck : List α
  /-- The source of every random choice of this shuffle. -/
  tape : Tape

namespace Shuffle

variable {α : Type} [DecidableEq α] [Hashable α]

/-- The shuffle without a candidate. -/
def empty (tape : Tape) : Shuffle α where
  candidates := #[]
  positions := ∅
  deck := []
  tape := tape

/-- The number of candidates. -/
def size (shuffle : Shuffle α) : Nat :=
  shuffle.candidates.size

def isEmpty (shuffle : Shuffle α) : Bool :=
  shuffle.candidates.isEmpty

/-- Whether an item is a candidate. -/
def contains (shuffle : Shuffle α) (item : α) : Bool :=
  shuffle.positions.contains item

/-- The candidates in internal order. -/
def toList (shuffle : Shuffle α) : List α :=
  shuffle.candidates.toList

/--
Add a candidate, unless it is one already; the answer says whether it was added.
While a cycle is under way the new candidate joins it at a random place.
-/
def add (shuffle : Shuffle α) (item : α) : Bool × Shuffle α :=
  if shuffle.contains item then
    (false, shuffle)
  else
    let added :=
      { shuffle with
        positions := shuffle.positions.insert item shuffle.candidates.size
        candidates := shuffle.candidates.push item }
    if shuffle.deck.isEmpty then
      (true, added)
    else
      let (deck, tape) := shuffle.tape.insert item shuffle.deck
      (true, { added with deck, tape })

/--
Remove a candidate from the set and from the current cycle.  The last candidate
in internal order moves to its position.
-/
def discard? (shuffle : Shuffle α) (item : α) : Option (Shuffle α) :=
  match shuffle.positions[item]? with
  | none => none
  | some position =>
    let positions := shuffle.positions.erase item
    let deck := shuffle.deck.filter (· ≠ item)
    match shuffle.candidates.back? with
    | none => some { shuffle with positions, deck }
    | some last =>
      let candidates := (shuffle.candidates.setIfInBounds position last).pop
      let positions :=
        if position < candidates.size then positions.insert last position else positions
      some { shuffle with candidates, positions, deck }

/-- Remove a candidate; removing anything else is an error. -/
def discard [ToString α] (shuffle : Shuffle α) (item : α) : Except GossipError (Shuffle α) :=
  match shuffle.discard? item with
  | some smaller => .ok smaller
  | none => .error (.notFound s!"shuffle candidate {item}")

/-- Draw the next candidate, starting a new cycle when the current one is spent. -/
def choice (shuffle : Shuffle α) : Option α × Shuffle α :=
  match shuffle.deck with
  | item :: deck => (some item, { shuffle with deck })
  | [] =>
    match shuffle.tape.shuffle shuffle.toList with
    | ([], _) => (none, shuffle)
    | (item :: deck, tape) => (some item, { shuffle with deck, tape })

/-- Draw `count` times and keep what the draws gave, in order. -/
def draw : (count : Nat) → Shuffle α → List α × Shuffle α
  | 0, shuffle => ([], shuffle)
  | count + 1, shuffle =>
    match shuffle.choice with
    | (none, shuffle) => draw count shuffle
    | (some item, shuffle) =>
      let (items, shuffle) := draw count shuffle
      (item :: items, shuffle)

end Shuffle

end ClusterMembership
