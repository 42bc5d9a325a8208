import ClusterMembership.Keys

/-!
# Broadcasting notifications

A broadcast carries values from one side to any number of subscribers.  It never
waits for a subscriber: one that falls behind by more than the capacity loses the
oldest values, is told once how many, and goes on with the oldest value kept.

The log records every value that was sent to somebody.  A subscriber is a position
in the log; the values it can still receive are the last `capacity` ones.  A value
sent while nobody is subscribed is not recorded, since nobody can ever receive it.
-/

namespace ClusterMembership

/-- One channel from many senders to many subscribers. -/
structure Broadcast (α : Type) where
  /-- How many of the newest values are kept. -/
  capacity : Nat
  /-- Every value sent while somebody was subscribed, oldest first. -/
  log : Array α
  /-- The position of each subscriber in the log. -/
  cursors : Std.ExtHashMap Nat Nat
  /-- The number the next subscriber gets. -/
  nextSubscriber : Nat
  /-- How many senders are left; without one the channel is closed. -/
  senders : Nat

namespace Broadcast

variable {α : Type}

/-- What a subscriber finds when it looks. -/
inductive Received (α : Type) where
  | value (value : α)
  /-- So many values were lost. -/
  | lagged (count : Nat)
  | empty
  | closed
  deriving DecidableEq, Inhabited, Repr

/-- The capacity of notifications about members. -/
def defaultCapacity : Nat := 256

/-- A channel with one sender; its capacity is rounded up to a power of two. -/
def create (capacity : Nat) : Broadcast α where
  capacity := (max capacity 1).nextPowerOfTwo
  log := #[]
  cursors := ∅
  nextSubscriber := 0
  senders := 1

/-- How many subscribers there are. -/
def subscriberCount (channel : Broadcast α) : Nat :=
  channel.cursors.size

/-- Send a value; the answer is the number of subscribers it reaches. -/
def send (channel : Broadcast α) (value : α) : Nat × Broadcast α :=
  if channel.subscriberCount = 0 then
    (0, channel)
  else
    (channel.subscriberCount, { channel with log := channel.log.push value })

/-- Send values in order. -/
def sendAll (channel : Broadcast α) (values : List α) : Broadcast α :=
  values.foldl (fun channel value => (channel.send value).2) channel

/-- A new subscriber, which receives what is sent from now on. -/
def subscribe (channel : Broadcast α) : Nat × Broadcast α :=
  (channel.nextSubscriber,
    { channel with
      cursors := channel.cursors.insert channel.nextSubscriber channel.log.size
      nextSubscriber := channel.nextSubscriber + 1 })

/-- End a subscription; the answer says whether there was one. -/
def unsubscribe (channel : Broadcast α) (subscriber : Nat) : Bool × Broadcast α :=
  (channel.cursors.contains subscriber,
    { channel with cursors := channel.cursors.erase subscriber })

/-- One more sender. -/
def addSender (channel : Broadcast α) : Broadcast α :=
  { channel with senders := channel.senders + 1 }

/-- One sender less. -/
def dropSender (channel : Broadcast α) : Broadcast α :=
  { channel with senders := channel.senders - 1 }

/-- The position of the oldest value kept. -/
def oldest (channel : Broadcast α) : Nat :=
  channel.log.size - channel.capacity

/-- What a subscriber receives next, if it is one. -/
def receive (channel : Broadcast α) (subscriber : Nat) : Received α × Broadcast α :=
  match channel.cursors[subscriber]? with
  | none => (.closed, channel)
  | some cursor =>
    if cursor < channel.oldest then
      (.lagged (channel.oldest - cursor),
        { channel with cursors := channel.cursors.insert subscriber channel.oldest })
    else
      match channel.log[cursor]? with
      | some value =>
        (.value value, { channel with cursors := channel.cursors.insert subscriber (cursor + 1) })
      | none => (if channel.senders = 0 then .closed else .empty, channel)

/-- Receive at most `steps` times, until nothing is left; the end itself is not listed. -/
def drainWithin (subscriber : Nat) :
    (steps : Nat) → Broadcast α → List (Received α) × Broadcast α
  | 0, channel => ([], channel)
  | steps + 1, channel =>
    match channel.receive subscriber with
    | (.empty, channel) | (.closed, channel) => ([], channel)
    | (received, channel) =>
      let (rest, channel) := drainWithin subscriber steps channel
      (received :: rest, channel)

/-- Receive until nothing is left. -/
def drain (channel : Broadcast α) (subscriber : Nat) : List (Received α) × Broadcast α :=
  channel.drainWithin subscriber (channel.log.size + 1)

/-- The values among what was received. -/
def valuesOf : List (Received α) → List α
  | [] => []
  | .value value :: rest => value :: valuesOf rest
  | _ :: rest => valuesOf rest

end Broadcast

end ClusterMembership
