import ClusterMembership.Notice.Broadcast

/-!
# Callbacks on notifications

A callback is a subscriber that is served whenever the others are idle: it takes
everything that has arrived, skips what it lost, and ends once the channel is
closed.  Cancelling it ends its subscription at once, with whatever had arrived
but was not taken yet.
-/

namespace ClusterMembership

/-- A registered callback with the values it was called with. -/
structure Callback (α : Type) where
  subscriber : Nat
  seen : Array α := #[]
  finished : Bool := false

/-- A broadcast with the callbacks registered on it, by number. -/
structure Listener (α : Type) where
  channel : Broadcast α
  callbacks : Array (Callback α) := #[]

namespace Listener

variable {α : Type}

/-- A listener whose channel has the given capacity. -/
def create (capacity : Nat) : Listener α :=
  { channel := .create capacity }

/-- Register a callback; the answer is its number. -/
def onNotify (listener : Listener α) : Nat × Listener α :=
  let (subscriber, channel) := listener.channel.subscribe
  (listener.callbacks.size,
    { channel, callbacks := listener.callbacks.push { subscriber } })

/-- Serve one callback. -/
def serve
    (channel : Broadcast α)
    (callback : Callback α) :
    Callback α × Broadcast α :=
  if callback.finished then
    (callback, channel)
  else
    let (received, channel) := channel.drain callback.subscriber
    let seen := callback.seen ++ (Broadcast.valuesOf received).toArray
    if channel.senders = 0 then
      ({ callback with seen, finished := true }, (channel.unsubscribe callback.subscriber).2)
    else
      ({ callback with seen }, channel)

/-- Serve every callback. -/
def settle (listener : Listener α) : Listener α :=
  let (callbacks, channel) :=
    listener.callbacks.foldl
      (fun (served, channel) callback =>
        let (callback, channel) := serve channel callback
        (served.push callback, channel))
      ((#[] : Array (Callback α)), listener.channel)
  { channel, callbacks }

/-- Send values in order and serve the callbacks. -/
def tell (listener : Listener α) (values : List α) : Listener α :=
  if values.isEmpty then
    listener
  else
    { listener with channel := listener.channel.sendAll values }.settle

/-- End a callback without serving it again. -/
def cancel (listener : Listener α) (number : Nat) : Listener α :=
  match listener.callbacks[number]? with
  | none => listener
  | some callback =>
    { channel := (listener.channel.unsubscribe callback.subscriber).2
      callbacks := listener.callbacks.setIfInBounds number { callback with finished := true } }

end Listener

end ClusterMembership
