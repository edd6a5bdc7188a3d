import ProcessRuns.Service.Admission
import ProcessRuns.Service.Channel
import ProcessRuns.Service.Kind
import ProcessRuns.Service.Removal
import ProcessRuns.Service.Run
import ProcessRuns.Service.Timer

/-! # Services

A service keeps a registry of processes, a timer for each of its own that has a schedule, and a pool of workers
that run the packages. The calls below are what its user can do; each is one uninterrupted activity. What goes
on by itself between two calls is in `ProcessRuns.Service.Settle`. -/

namespace ProcessRuns

namespace Service

/-- How far a service has come. -/
inductive Phase where
  | created
  | launched
  /-- Stopped for good. -/
  | stopped
deriving DecidableEq, Repr

end Service

/-- A service: what its activities share, and what only its owner uses. -/
structure Service (σ : Type) where
  kind : ServiceKind
  /-- The workers of a pool of the size zero. -/
  cores : Nat
  shared : Shared σ
  phase : Service.Phase := .created
  timers : Keyed ProcessId Timer := ∅
  triggers : TriggerQueue
  /-- The packages that were dispatched and are not over. -/
  runs : List Run := []
  /-- The packages whose jobs have started, oldest first. -/
  started : List Package := []
  channel : Channel := {}

/-- A service at one moment. -/
structure ServiceStatus where
  launched : Bool
  threads : Nat
  timers : Nat
  triggers : Nat
  queue : QueueSnapshot
deriving DecidableEq, Repr

namespace ServiceStatus

/-- The key of the launched service stands once more for the running processes. -/
def toJson (s : ServiceStatus) : Json :=
  let ids (l : List ProcessId) : Json := .array (l.map fun (id : Nat) => Json.int id)
  .object [("running", s.launched), ("threads", s.threads), ("timers", s.timers), ("triggers", s.triggers),
    ("queued", s.queue.queued), ("waiting", s.queue.waiting), ("active", ids s.queue.active),
    ("running", ids s.queue.running)]

end ServiceStatus

namespace Service

variable {σ : Type}

/-- Who hears of the events. -/
def subscribers (s : Service σ) : List Subscriber := s.channel.subscribers

/-- How many events the channel has received, or came before it listened. -/
def heard (s : Service σ) : Nat := s.channel.place

/-- What the subscribers have heard, oldest first. -/
def deliveries (s : Service σ) : List Delivery := s.channel.deliveries

/-- The triggers that wait for the service at most. -/
def triggerCapacity : Nat := 1024

/-- A service over a log that has its tables. -/
def create (kind : ServiceKind) (instanceId cores workers : Nat) (logger : Logger) (registry : Registry)
    (storage : σ) : Service σ where
  kind := kind
  cores := cores
  shared := { instanceId, logger, registry, storage, pool := .ofSize (Pool.resolve cores workers) }
  triggers := { capacity := triggerCapacity }

/-- The service at this moment. -/
def status (s : Service σ) : ServiceStatus where
  launched := s.phase = .launched
  threads := s.shared.pool.size
  timers := s.timers.size
  triggers := s.triggers.size
  queue := s.shared.scheduler.snapshot

/-- Starts the main loop, the reading of triggers and the passing on of events. A stopped service stays so. -/
def launch (s : Service σ) : Service σ :=
  match s.phase with
  | .created =>
    { s with
      phase := .launched, shared := { s.shared with loop := .asking }, channel := s.channel.listen s.shared.notices }
  | _ => s

/-- Gives up all timers. -/
def clearTimers (s : Service σ) : Service σ :=
  { s with timers := ∅, triggers := { s.triggers with heldBack := [] } }

/-- Stops the timers and the dispatching; the runs go on. Before a launch there is nothing to stop. -/
def stop (s : Service σ) : Service σ :=
  match s.phase with
  | .launched => { s.clearTimers with phase := .stopped }
  | _ => s

/-- The service goes away, and its timers and its registry with it; the runs go on. -/
def drop (s : Service σ) : Service σ :=
  { s.stop.clearTimers with phase := .stopped, shared := { s.shared with owned := false } }

/-- Somebody wants to hear of events from now on. -/
def subscribe (s : Service σ) (subscriber : Subscriber) : Service σ :=
  { s with channel := s.channel.subscribe subscriber }

/-- Releases a process as if a run of it had ended. -/
def notifyWaiting (s : Service σ) (processId : ProcessId) : Service σ :=
  let (promoted, scheduler) := s.shared.scheduler.finish processId
  let shared := { s.shared with scheduler }
  { s with shared := if promoted then shared.wake else shared }

/-- Resizes the pool; zero asks for one worker for each core. -/
def resize (s : Service σ) (workers : Nat) : Except Failure Unit × Service σ :=
  let (fits, pool) := s.shared.pool.resize (Pool.resolve s.cores workers)
  (if fits then .ok () else .error .abort, { s with shared := { s.shared with pool } })

/-- Puts a timer in place of the one that its process had. -/
def setTimer (s : Service σ) (t : Timer) : Service σ :=
  { s with timers := s.timers.set t.processId t, triggers := s.triggers.withdraw t.processId }

/-- Takes the timer of a process away, and the triggers that it holds back. -/
def dropTimer (s : Service σ) (processId : ProcessId) : Service σ :=
  { s with timers := s.timers.erase processId, triggers := s.triggers.withdraw processId }

section
variable [Storage σ]

/-- Requests a run of a process; unknown processes and those of other instances are passed over. -/
def trigger (s : Service σ) (processId : ProcessId) (date now : Instant) : Service σ :=
  { s with shared := (Admission.find processId date).run now s.shared }

/-- Registers a definition, and starts a timer for an active process of this instance that has a schedule. The
definition stays where the timer fails. -/
def add (s : Service σ) (p : ProcessDefinition) : Except Failure Unit × Service σ :=
  let s := { s with shared := { s.shared with registry := s.shared.registry.add p } }
  match p.schedule with
  | some schedule =>
    if p.active && s.shared.owns p then
      match s.shared.onStorage (s.shared.logger.lastProcess p.id) with
      | (.error e, shared) => (.error e, { s with shared })
      | (.ok last, shared) =>
        let s := { s with shared }
        match Timer.create schedule p.id last with
        | .error e => (.error e, s)
        | .ok t => (.ok (), s.setTimer t)
    else (.ok (), s)
  | none => (.ok (), s)

/-- Forgets a process: stops its timer, takes its packages out of the queues and closes their registers. The
number of those packages. -/
def remove (s : Service σ) (processId : ProcessId) (now : Instant) : Nat × Service σ :=
  let s := s.dropTimer processId
  let (count, shared) := (Removal.forget processId).run now s.shared
  (count, { s with shared })

/-- Replaces a definition; the packages of the old one are dropped. -/
def update (s : Service σ) (p : ProcessDefinition) (now : Instant) : Except Failure Unit × Service σ :=
  (s.remove p.id now).2.add p

/-- Requests a run for each date of a schedule between two dates, oldest first; the number of dates. -/
def reprocess (s : Service σ) (processId : ProcessId) (a b : Instant) (schedule : Schedule) (now : Instant) :
    Except Failure Nat × Service σ :=
  match schedule.datesBetween a b with
  | .error e => (.error e, s)
  | .ok dates => (.ok dates.length, dates.foldl (fun s date => s.trigger processId date now) s)

/-- Selects other log tables for the activities to come. -/
def selectTable (s : Service σ) (name : String) : Except Failure Unit × Service σ :=
  let (r, shared) := s.shared.selectTable name
  (r, { s with shared })

end

end Service

end ProcessRuns
