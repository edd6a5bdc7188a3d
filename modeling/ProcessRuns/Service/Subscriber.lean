import ProcessRuns.Service.Event

/-! # Subscribers

Who hears of which events. -/

namespace ProcessRuns

/-- What a subscriber wants to hear. -/
inductive Interest where
  /-- The reports of finished runs. -/
  | finished
  /-- The reports of runs that failed. -/
  | failed
  /-- Every event. -/
  | every
  /-- Every event, apart from the order in which the others hear. -/
  | everyApart
deriving DecidableEq, Repr

/-- Somebody who hears of events. -/
structure Subscriber where
  name : String
  interest : Interest
  /-- The process whose events are heard, any process where there is none. -/
  processId : Option ProcessId
deriving DecidableEq, Repr

/-- An event that a subscriber has heard. -/
structure Delivery where
  subscriber : Subscriber
  notice : Notice

namespace Subscriber

/-- Hears in tasks of the events' own, while the others hear in their place. -/
def isApart (s : Subscriber) : Bool := s.interest = .everyApart

/-- The subscriber wants to hear of an event. -/
def hears (s : Subscriber) (n : Notice) : Bool :=
  s.processId.all (fun id => id == n.processId) &&
    match s.interest with
    | .finished => n.event.finished?.isSome
    | .failed => n.event.isError
    | .every | .everyApart => true

/-- The deliveries of one event, in the order of the subscriptions. -/
def deliver (subscribers : List Subscriber) (n : Notice) : List Delivery :=
  (subscribers.filter fun s => s.hears n).map fun s => ⟨s, n⟩

end Subscriber

end ProcessRuns
