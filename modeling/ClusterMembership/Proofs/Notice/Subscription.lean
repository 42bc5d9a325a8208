import ClusterMembership.Notice.Broadcast

/-!
# Subscribers that keep up

A subscriber is a position in the log of its channel, and what it has still to receive is the
log from that position on.  Sending adds to the end of it, and receiving takes from its front,
unless the subscriber has fallen behind by more than the capacity and is told that it lags.

So what a subscriber that never lags has received, and what it has still to receive, are
together what was sent since it subscribed, in order and without loss or repetition.
-/

namespace ClusterMembership

namespace Broadcast

variable {α : Type} {channel : Broadcast α} {subscriber : Nat}

/-- What a subscriber has still to receive. -/
def pending (channel : Broadcast α) (subscriber : Nat) : List α :=
  match channel.cursors[subscriber]? with
  | none => []
  | some cursor => channel.log.toList.drop cursor

/-- A subscriber is served by a channel: its position is within the log or at its end. -/
def Serves (channel : Broadcast α) (subscriber : Nat) : Prop :=
  ∃ cursor, channel.cursors[subscriber]? = some cursor ∧ cursor ≤ channel.log.size

/-- A new subscriber has nothing to receive yet. -/
theorem serves_subscribe (channel : Broadcast α) :
    channel.subscribe.2.Serves channel.subscribe.1 ∧
      channel.subscribe.2.pending channel.subscribe.1 = [] := by
  have here : channel.subscribe.2.cursors[channel.subscribe.1]? = some channel.log.size := by
    simp [subscribe]
  constructor
  · exact ⟨channel.log.size, here, Nat.le_refl _⟩
  · rw [pending, here]
    exact List.drop_eq_nil_of_le (Nat.le_of_eq Array.length_toList)

/-- A channel with a subscriber records what is sent. -/
theorem Serves.send (serves : channel.Serves subscriber) (value : α) :
    (channel.send value).2.Serves subscriber ∧
      (channel.send value).2.capacity = channel.capacity ∧
      (channel.send value).2.pending subscriber = channel.pending subscriber ++ [value] := by
  rcases serves with ⟨cursor, here, within⟩
  have somebody : channel.subscriberCount ≠ 0 := by
    intro nobody
    rw [subscriberCount, ← Std.ExtHashMap.eq_empty_iff_size_eq_zero] at nobody
    rw [nobody, Std.ExtHashMap.getElem?_empty] at here
    cases here
  have sent : (channel.send value).2 = { channel with log := channel.log.push value } := by
    rw [Broadcast.send, if_neg somebody]
  rw [sent]
  refine ⟨⟨cursor, here, ?_⟩, rfl, ?_⟩
  · rw [Array.size_push]
    exact Nat.le_succ_of_le within
  · rw [pending, pending, here]
    simp only [Array.toList_push]
    exact List.drop_append_of_le_length within

/-- A subscriber is told that it lags, receives the next value, or has nothing to receive. -/
theorem Serves.receive_cases (serves : channel.Serves subscriber) :
    (∃ count, (channel.receive subscriber).1 = .lagged count ∧
      channel.capacity < (channel.pending subscriber).length) ∨
    (∃ value, (channel.receive subscriber).1 = .value value ∧
      (channel.receive subscriber).2.Serves subscriber ∧
      (channel.receive subscriber).2.capacity = channel.capacity ∧
      channel.pending subscriber = value :: (channel.receive subscriber).2.pending subscriber) ∨
    (channel.receive subscriber).2 = channel ∧ channel.pending subscriber = [] ∧
      ((channel.receive subscriber).1 = .empty ∨ (channel.receive subscriber).1 = .closed) := by
  rcases serves with ⟨cursor, here, within⟩
  have rest : channel.pending subscriber = channel.log.toList.drop cursor := by
    rw [pending, here]
  rw [receive, here]
  by_cases behind : cursor < channel.oldest
  · left
    refine ⟨channel.oldest - cursor, by simp [behind], ?_⟩
    rw [rest, List.length_drop, Array.length_toList]
    rw [oldest] at behind
    omega
  · simp only [behind, if_false]
    cases found : channel.log[cursor]? with
    | some value =>
      right
      left
      rcases Array.getElem?_eq_some_iff.1 found with ⟨inside, rfl⟩
      have moved : (channel.cursors.insert subscriber (cursor + 1))[subscriber]? =
          some (cursor + 1) := Std.ExtHashMap.getElem?_insert_self
      refine ⟨channel.log[cursor], rfl, ⟨cursor + 1, moved, inside⟩, rfl, ?_⟩
      rw [rest, pending, moved]
      exact List.drop_eq_getElem_cons inside
    | none =>
      right
      right
      have ended : channel.log.size ≤ cursor := Array.getElem?_eq_none_iff.1 found
      refine ⟨rfl, ?_, ?_⟩
      · rw [rest]
        exact List.drop_eq_nil_of_le ended
      · by_cases nobody : channel.senders = 0 <;> simp [nobody]

/-- A subscriber that is behind by no more than the capacity does not lag. -/
theorem Serves.receive_of_room
    (serves : channel.Serves subscriber)
    (room : (channel.pending subscriber).length ≤ channel.capacity) :
    (∀ count, (channel.receive subscriber).1 ≠ .lagged count) ∧
      (channel.receive subscriber).2.Serves subscriber ∧
      (channel.receive subscriber).2.capacity = channel.capacity ∧
      ((channel.receive subscriber).2.pending subscriber).length ≤
        (channel.pending subscriber).length := by
  rcases serves.receive_cases with
    ⟨count, -, behind⟩ | ⟨value, received, served, capacity, pending⟩ | ⟨same, -, nothing⟩
  · exact absurd room (Nat.not_le_of_lt behind)
  · rw [received, pending]
    refine ⟨fun count lagged => ?_, served, capacity, Nat.le_succ _⟩
    cases lagged
  · rw [same]
    refine ⟨fun count lagged => ?_, serves, rfl, Nat.le_refl _⟩
    rcases nothing with empty | closed
    · rw [empty] at lagged
      cases lagged
    · rw [closed] at lagged
      cases lagged

/-! ## Reading -/

/-- What happens around a subscriber: a value is sent, or the subscriber looks for one. -/
inductive Moment (α : Type) where
  | send (value : α)
  | look

/-- The values that are sent at a moment. -/
def Moment.sent : Moment α → List α
  | .send value => [value]
  | .look => []

/-- A channel, and what a subscriber found so far. -/
structure Reading (α : Type) where
  channel : Broadcast α
  found : List (Received α)

/-- One moment for a subscriber. -/
def Reading.step (subscriber : Nat) (reading : Reading α) : Moment α → Reading α
  | .send value => { reading with channel := (reading.channel.send value).2 }
  | .look =>
    { channel := (reading.channel.receive subscriber).2
      found := reading.found ++ [(reading.channel.receive subscriber).1] }

/-- Some moments for a subscriber, one after the other. -/
def Reading.run (subscriber : Nat) (reading : Reading α) (moments : List (Moment α)) : Reading α :=
  moments.foldl (Reading.step subscriber) reading

/-- What a subscriber has received, followed by what it has still to receive. -/
def Reading.owed (reading : Reading α) (subscriber : Nat) : List α :=
  valuesOf reading.found ++ reading.channel.pending subscriber

/-- A subscriber never lagged. -/
def Reading.KeptUp (reading : Reading α) : Prop :=
  ∀ count, .lagged count ∉ reading.found

theorem valuesOf_append (first second : List (Received α)) :
    valuesOf (first ++ second) = valuesOf first ++ valuesOf second := by
  induction first with
  | nil => rfl
  | cons received first step => cases received <;> simp [valuesOf, step]

/-- What was found at some time stays found. -/
theorem Reading.found_prefix (reading : Reading α) (moments : List (Moment α)) :
    reading.found <+: (reading.run subscriber moments).found := by
  induction moments generalizing reading with
  | nil => exact List.prefix_refl _
  | cons moment rest step =>
    refine List.IsPrefix.trans ?_ (step (reading.step subscriber moment))
    cases moment with
    | send value => exact List.prefix_refl _
    | look => exact List.prefix_append _ _

/-- A subscriber that did not lag in the end did not lag before. -/
theorem Reading.KeptUp.of_run
    {reading : Reading α}
    {moments : List (Moment α)}
    (keptUp : (reading.run subscriber moments).KeptUp) :
    reading.KeptUp :=
  fun count lagged => keptUp count ((reading.found_prefix moments).subset lagged)

/-- One moment adds what is sent at it, unless the subscriber lags. -/
theorem Reading.owed_step
    (reading : Reading α)
    (serves : reading.channel.Serves subscriber)
    (moment : Moment α)
    (keptUp : (reading.step subscriber moment).KeptUp) :
    (reading.step subscriber moment).channel.Serves subscriber ∧
      (reading.step subscriber moment).owed subscriber =
        reading.owed subscriber ++ moment.sent := by
  cases moment with
  | send value =>
    rcases serves.send value with ⟨served, -, pending⟩
    refine ⟨served, ?_⟩
    rw [owed, owed, Moment.sent, List.append_assoc]
    exact congrArg (valuesOf reading.found ++ ·) pending
  | look =>
    have found : valuesOf (reading.step subscriber .look).found =
        valuesOf reading.found ++ valuesOf [(reading.channel.receive subscriber).1] :=
      valuesOf_append _ _
    have channel : (reading.step subscriber .look).channel =
        (reading.channel.receive subscriber).2 := rfl
    rw [owed, owed, Moment.sent, List.append_nil, found, channel]
    rcases serves.receive_cases with
      ⟨count, lagged, -⟩ | ⟨value, received, served, -, pending⟩ | ⟨same, -, nothing⟩
    · exact absurd (List.mem_append_right _ (lagged ▸ List.mem_singleton_self _)) (keptUp count)
    · refine ⟨served, ?_⟩
      rw [received, pending, List.append_assoc]
      rfl
    · rw [same]
      refine ⟨serves, ?_⟩
      rcases nothing with empty | closed
      · rw [empty]
        simp [valuesOf]
      · rw [closed]
        simp [valuesOf]

/-- A subscriber that keeps up has received, or has still to receive, everything that is sent. -/
theorem Reading.owed_run
    (reading : Reading α)
    (serves : reading.channel.Serves subscriber)
    (moments : List (Moment α))
    (keptUp : (reading.run subscriber moments).KeptUp) :
    (reading.run subscriber moments).channel.Serves subscriber ∧
      (reading.run subscriber moments).owed subscriber =
        reading.owed subscriber ++ moments.flatMap Moment.sent := by
  induction moments generalizing reading with
  | nil => exact ⟨serves, (List.append_nil _).symm⟩
  | cons moment rest step =>
    have next : (reading.step subscriber moment).KeptUp := .of_run keptUp
    rcases reading.owed_step serves moment next with ⟨served, owed⟩
    rcases step _ served keptUp with ⟨still, later⟩
    refine ⟨still, later.trans ?_⟩
    rw [owed, List.flatMap_cons, List.append_assoc]

/-- A subscriber for which no more is sent than the channel keeps does not lag. -/
theorem Reading.keptUp_run
    (reading : Reading α)
    (serves : reading.channel.Serves subscriber)
    (keptUp : reading.KeptUp)
    (moments : List (Moment α))
    (room : (reading.channel.pending subscriber).length + (moments.flatMap Moment.sent).length ≤
      reading.channel.capacity) :
    (reading.run subscriber moments).KeptUp := by
  induction moments generalizing reading with
  | nil => exact keptUp
  | cons moment rest step =>
    rw [List.flatMap_cons, List.length_append] at room
    cases moment with
    | send value =>
      rcases serves.send value with ⟨served, capacity, pending⟩
      refine step (reading.step subscriber (.send value)) served keptUp ?_
      have less : ((reading.channel.send value).2.pending subscriber).length +
          (rest.flatMap Moment.sent).length ≤ (reading.channel.send value).2.capacity := by
        rw [capacity, pending, List.length_append, Nat.add_assoc]
        exact room
      exact less
    | look =>
      rw [Moment.sent, List.length_nil, Nat.zero_add] at room
      rcases serves.receive_of_room (Nat.le_trans (Nat.le_add_right _ _) room) with
        ⟨onTime, served, capacity, fewer⟩
      refine step (reading.step subscriber .look) served (fun count lagged => ?_) ?_
      · rcases List.mem_append.1 lagged with before | now
        · exact keptUp count before
        · exact onTime count (List.mem_singleton.1 now).symm
      · have less : ((reading.channel.receive subscriber).2.pending subscriber).length +
              (rest.flatMap Moment.sent).length ≤
            (reading.channel.receive subscriber).2.capacity := by
          rw [capacity]
          exact Nat.le_trans (Nat.add_le_add_right fewer _) room
        exact less

/-- The first reading of a new subscriber. -/
def Reading.subscribed (channel : Broadcast α) : Reading α :=
  { channel := channel.subscribe.2, found := [] }

/--
A new subscriber that keeps up receives what is sent from then on: all of it, in order, each
value once.  What it has not received yet is pending, and it has everything once it finds no more.
-/
theorem Reading.received_of_keptUp
    (channel : Broadcast α)
    {moments : List (Moment α)}
    (keptUp : ((subscribed channel).run channel.subscribe.1 moments).KeptUp) :
    let reading := (subscribed channel).run channel.subscribe.1 moments
    reading.owed channel.subscribe.1 = moments.flatMap Moment.sent ∧
      ((reading.channel.receive channel.subscribe.1).1 = .empty →
        valuesOf reading.found = moments.flatMap Moment.sent) := by
  intro reading
  rcases channel.serves_subscribe with ⟨serves, nothing⟩
  rcases (subscribed channel).owed_run serves moments keptUp with ⟨served, owed⟩
  have before : (subscribed channel).owed channel.subscribe.1 = [] := nothing
  rw [before, List.nil_append] at owed
  refine ⟨owed, fun empty => ?_⟩
  rw [← owed]
  rcases served.receive_cases with
    ⟨count, lagged, -⟩ | ⟨value, received, -⟩ | ⟨-, drained, -⟩
  · rw [lagged] at empty
    cases empty
  · rw [received] at empty
    cases empty
  · rw [Reading.owed, drained, List.append_nil]

end Broadcast

end ClusterMembership
