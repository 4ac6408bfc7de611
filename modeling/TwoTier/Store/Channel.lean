/-!
Channels: payloads published to whoever has subscribed.

Each subscriber keeps the payloads published on its channel since it subscribed, in order, up to
`Subscriber.capacity` of them. Beyond that the oldest are lost, and their number is reported once,
before the payloads that remain. A subscriber whose channel was disconnected still receives what it
had not read, and then the end.
-/

set_option autoImplicit false
set_option relaxedAutoImplicit false

namespace TwoTier

/-- A subscription to one channel. -/
structure Subscriber where
  /-- What tells the subscription from others. -/
  id : Nat
  /-- The channel. -/
  channel : String
  /-- Whether the channel still delivers to it. -/
  attached : Bool
  /-- The payloads not yet read, the oldest first. -/
  unread : List String
  /-- How many payloads were lost and not yet reported. -/
  missed : Nat
  deriving DecidableEq, Repr

/-- What a subscriber receives. -/
inductive Delivery where
  /-- A payload. -/
  | payload (text : String)
  /-- Payloads were lost. -/
  | lagged (missed : Nat)
  /-- Nothing has been published yet. -/
  | pending
  /-- Nothing will come any more. -/
  | ended
  deriving DecidableEq, Repr

namespace Subscriber

/-- How many payloads a subscriber keeps. -/
def capacity : Nat := 1024

/-- The subscriber after a payload was delivered to it. -/
def deliver (payload : String) (s : Subscriber) : Subscriber :=
  let unread := s.unread ++ [payload]
  if capacity < unread.length then { s with unread := unread.tail, missed := s.missed + 1 }
  else { s with unread := unread }

/-- What a subscriber receives next, and the subscriber after that. -/
def receive (s : Subscriber) : Delivery × Subscriber :=
  if 0 < s.missed then (.lagged s.missed, { s with missed := 0 })
  else
    match s.unread with
    | payload :: rest => (.payload payload, { s with unread := rest })
    | [] => (if s.attached then .pending else .ended, s)

end Subscriber

/-- The subscriptions to the channels of one store, the oldest first. -/
abbrev Subscribers := List Subscriber

namespace Subscribers

/-- Delivers a payload to the subscribers of a channel. -/
def publish (l : Subscribers) (channel payload : String) : Subscribers :=
  l.map fun s ↦ if s.attached ∧ s.channel = channel then s.deliver payload else s

/-- Detaches the subscribers of a channel. -/
def disconnect (l : Subscribers) (channel : String) : Subscribers :=
  l.map fun s ↦ if s.channel = channel then { s with attached := false } else s

/-- Detaches all subscribers. -/
def disconnectAll (l : Subscribers) : Subscribers := l.map fun s ↦ { s with attached := false }

/-- The number of subscribers attached to a channel. -/
def countOn (l : Subscribers) (channel : String) : Nat :=
  l.countP fun s ↦ s.attached && s.channel = channel

/-- Ends a subscription. -/
def remove (l : Subscribers) (id : Nat) : Subscribers := l.filter fun s ↦ s.id ≠ id

/-- What a subscription receives next; one that has ended receives the end. -/
def receive (l : Subscribers) (id : Nat) : Delivery × Subscribers :=
  match l.find? fun s ↦ s.id = id with
  | none => (.ended, l)
  | some s => (s.receive.1, l.map fun t ↦ if t.id = id then s.receive.2 else t)

end Subscribers

end TwoTier
