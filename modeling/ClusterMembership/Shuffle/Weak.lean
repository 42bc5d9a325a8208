import ClusterMembership.Shuffle.Cycle

/-!
# Selection among handles that may go stale

The handles of a shuffle may outlive what they refer to.  The functions here take
a test of liveness with every draw and drop the stale handles they meet, so a
member that was pruned stops being chosen without being removed explicitly.
-/

namespace ClusterMembership

namespace Shuffle

variable {α : Type} [DecidableEq α] [Hashable α]

/--
Draw until a live handle comes, dropping the stale ones on the way, for at most
`attempts` draws.
-/
def choiceWithin (live : α → Bool) : (attempts : Nat) → Shuffle α → Option α × Shuffle α
  | 0, shuffle => (none, shuffle)
  | attempts + 1, shuffle =>
    match shuffle.choice with
    | (none, shuffle) => (none, shuffle)
    | (some handle, shuffle) =>
      if live handle then
        (some handle, shuffle)
      else
        choiceWithin live attempts ((shuffle.discard? handle).getD shuffle)

/--
Draw the next live handle.  Every stale draw removes a candidate, so one draw
more than there are candidates is enough to find a live one or none at all.
-/
def choiceLive (shuffle : Shuffle α) (live : α → Bool) : Option α × Shuffle α :=
  shuffle.choiceWithin live (shuffle.size + 1)

/-- Draw a number of times; a draw that finds no live handle gives none. -/
def drawLive (live : α → Bool) : (draws : Nat) → Shuffle α → List α × Shuffle α
  | 0, shuffle => ([], shuffle)
  | draws + 1, shuffle =>
    let (handle, shuffle) := shuffle.choiceLive live
    let (handles, shuffle) := drawLive live draws shuffle
    (handle.toList ++ handles, shuffle)

/-- Draw at most `draws` times for up to `count` distinct live handles that are accepted. -/
def chooseWithin
    (live accept : α → Bool)
    (count : Nat) :
    (draws : Nat) → (chosen : List α) → Shuffle α → List α × Shuffle α
  | 0, chosen, shuffle => (chosen, shuffle)
  | draws + 1, chosen, shuffle =>
    if chosen.length ≥ count then
      (chosen, shuffle)
    else
      match shuffle.choiceLive live with
      | (none, shuffle) => (chosen, shuffle)
      | (some handle, shuffle) =>
        if accept handle && !chosen.contains handle then
          chooseWithin live accept count draws (chosen ++ [handle]) shuffle
        else
          chooseWithin live accept count draws chosen shuffle

/--
Draw up to `count` distinct live handles that are accepted.  No more draws are
made than there are candidates, so a filter that accepts little cannot spin.
-/
def choose
    (shuffle : Shuffle α)
    (live accept : α → Bool)
    (count : Nat) :
    List α × Shuffle α :=
  chooseWithin live accept count shuffle.size [] shuffle

/-- Drop every stale handle; the answer says how many there were. -/
def prune (shuffle : Shuffle α) (live : α → Bool) : Nat × Shuffle α :=
  let stale := shuffle.toList.filter (fun handle => !live handle)
  (stale.length,
    stale.foldl (fun shuffle handle => (shuffle.discard? handle).getD shuffle) shuffle)

end Shuffle

end ClusterMembership
