import ProcessRuns.Queue.Broadcast
import ProcessRuns.Service.Subscriber

/-! # The channel of a service

What a service publishes goes to a broadcast queue, and from its launch on a channel receives it from there, one event
after the other. An event is told at once to the subscribers that hear in their place; those that hear apart are told in
a task of the event's own, and the tasks come to their turn in any order. -/

namespace ProcessRuns

/-- Who hears of the events of a service, and what was passed on to them. -/
structure Channel where
  /-- In the order of the subscriptions. -/
  subscribers : List Subscriber := []
  /-- How many events lie behind the channel: those that it has received, and those that came before it listened. -/
  place : Nat := 0
  /-- The events that were received and are yet to be told apart. -/
  tasks : List Notice := []
  /-- What the subscribers have heard, oldest first. -/
  deliveries : List Delivery := []

namespace Channel

/-- The events that the queue keeps for a channel that is behind. -/
def eventCapacity : Nat := 2048

/-- The queue that the channel receives from once the events were published. -/
def queue (c : Channel) (events : List Notice) : Broadcast Unit Notice where
  capacity := eventCapacity
  history := events
  positions := (∅ : Keyed Unit Nat).set () c.place

/-- Adds a subscriber behind the others. -/
def subscribe (c : Channel) (subscriber : Subscriber) : Channel :=
  { c with subscribers := c.subscribers ++ [subscriber] }

/-- Begins to listen: what was published before is passed over. -/
def listen (c : Channel) (events : List Notice) : Channel := { c with place := events.length }

/-- The event that the channel receives next. -/
def next? (c : Channel) (events : List Notice) : Option Notice :=
  match ((c.queue events).receive ()).1 with
  | .message n => some n
  | .empty => none
  -- That events are lost is no event: from then on the channel waits for the end of the service only.
  | .lagged _ => none

/-- Receives the next event, if one comes. -/
def receive (c : Channel) (events : List Notice) : Channel :=
  match c.next? events with
  | some n =>
    { c with
      place := c.place + 1
      tasks := c.tasks ++ [n]
      deliveries := c.deliveries ++ Subscriber.deliver (c.subscribers.filter (!·.isApart)) n }
  | none => c

/-- A task tells its event to those who hear apart by then. -/
def tell (c : Channel) (i : Nat) : Channel :=
  match c.tasks[i]? with
  | some n =>
    { c with
      tasks := c.tasks.eraseIdx i
      deliveries := c.deliveries ++ Subscriber.deliver (c.subscribers.filter (·.isApart)) n }
  | none => c

/-- Receives for as long as there is something to receive. -/
def drain (c : Channel) (events : List Notice) : Channel :=
  (events.drop c.place).foldl (fun c _ => c.receive events) c

/-- All tasks come to their turn, the oldest one first. -/
def runTasks (c : Channel) : Channel := c.tasks.foldl (fun c _ => c.tell 0) c

end Channel

end ProcessRuns
