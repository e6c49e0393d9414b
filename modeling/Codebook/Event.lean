/-
# Events

What happens to indexes is published: that a rebuild is wanted, and that one was finished.
Events are numbered from 1. Every subscriber receives all events that are published while it is
subscribed, and whoever comes later can ask for the most recent ones. A subscriber that has gone is
forgotten when the next event is published.

Key definitions: `Event`, `Subscriber`, `EventBus`, `EventBus.subscribe`, `EventBus.publish`,
`EventBus.poll`, `EventBus.receive`, `EventBus.leave`.
-/
import Codebook.Data.Basic
import Codebook.Text.Diagnostic

namespace Codebook

/-- What happened to an index. -/
inductive Event where
  /-- A rebuild is wanted, of some types or of all, and perhaps of intact indexes too. -/
  | rebuildRequested (targets : Option (List String)) (force : Bool)
  /-- An index was rebuilt with so many documents. -/
  | rebuilt (entityType : String) (documentCount : Nat)
deriving DecidableEq, Repr

/-- The event as data. -/
def Event.toData : Event → Data
  | rebuildRequested targets force =>
    .record [("type", .text "rebuildRequested"),
      ("targets", (targets.map Data.ofTexts).getD .null), ("force", .bool force)]
  | rebuilt entityType documentCount =>
    .record [("type", .text "rebuilt"), ("entityType", .text entityType),
      ("documentCount", .int documentCount)]

/-- An event with its number. -/
structure Published where
  /-- The number. -/
  sequence : Nat
  /-- The event. -/
  event : Event
deriving DecidableEq, Repr

/-- Who receives events. -/
structure Subscriber where
  /-- The number of the subscription. -/
  id : Nat
  /-- Whether it still listens. -/
  listens : Bool := true
  /-- The events it has not taken yet. -/
  pending : List Published := []
deriving DecidableEq, Repr

/-- Delivers events. -/
structure EventBus where
  /-- How many of the last events are kept. -/
  maxHistory : Nat := 1000
  /-- The number of the last event. A counter of 64 bits stands for it where events are sent; here it has
  no bound, which makes a difference only after 2 ^ 64 events. -/
  sequence : Nat := 0
  /-- The last events in order. -/
  history : List Published := []
  /-- The subscribers, those included of which it is not known yet that they have gone. -/
  subscribers : List Subscriber := []
  /-- The number of subscriptions so far. -/
  subscriptions : Nat := 0
deriving DecidableEq, Repr

namespace EventBus

/-- Subscribes to all later events. The answer is the number of the subscription. -/
def subscribe (b : EventBus) : Nat × EventBus :=
  (b.subscriptions, { b with
    subscribers := b.subscribers ++ [{ id := b.subscriptions }]
    subscriptions := b.subscriptions + 1 })

/-- Stops listening. -/
def leave (b : EventBus) (id : Nat) : EventBus :=
  { b with subscribers := b.subscribers.map fun s =>
      if s.id = id then { s with listens := false } else s }

/-- Publishes an event. -/
def publish (b : EventBus) (event : Event) : EventBus :=
  let p : Published := ⟨b.sequence + 1, event⟩
  let history := b.history ++ [p]
  { b with
    sequence := p.sequence
    history := history.drop (history.length - b.maxHistory)
    subscribers := (b.subscribers.filter Subscriber.listens).map fun s =>
      { s with pending := s.pending ++ [p] } }

/-- Up to so many of the kept events after a number. -/
def poll (b : EventBus) (cursor limit : Nat) : List Published :=
  (b.history.filter fun p => cursor < p.sequence).take limit

/-- The events that a subscriber has not taken yet, and the bus once it has. -/
def receive (b : EventBus) (id : Nat) : List Published × EventBus :=
  ((b.subscribers.filter fun s => s.id = id).flatMap Subscriber.pending,
    { b with subscribers := b.subscribers.map fun s =>
        if s.id = id then { s with pending := [] } else s })

/-- The number of subscribers. -/
def subscriberCount (b : EventBus) : Nat :=
  b.subscribers.length

/-- The bus in diagnostics. -/
def label (b : EventBus) : String :=
  Diagnostic.someMembers "EventBus" [("subscribers", toString b.subscriberCount),
    ("latest_sequence", toString b.sequence)]

end EventBus

end Codebook
