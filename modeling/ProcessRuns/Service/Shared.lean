import ProcessRuns.Log.Logger
import ProcessRuns.Queue.Scheduler
import ProcessRuns.Registry
import ProcessRuns.Service.Event
import ProcessRuns.Service.Pool

/-! # What the activities of a service share

Triggers, removals, the main loop and the runs of jobs work side by side on one state. Each of them is a
sequence of steps, and a step of one may come between any two steps of another; a step touches the storage once
at most. -/

namespace ProcessRuns

/-- Where the main loop stands. -/
inductive LoopPhase where
  /-- The service was not launched. -/
  | idle
  /-- About to ask for a permit. -/
  | asking
  /-- In line for a permit. -/
  | inLine
  /-- Looks for a package, with a permit in hand. -/
  | looking
  /-- Found no package and is about to listen for a wakeup, with a permit in hand. -/
  | settling
  /-- Asleep until a wakeup, with a permit in hand. -/
  | asleep
  | stopped
deriving DecidableEq, Repr

namespace LoopPhase

/-- The main loop has a permit in hand. -/
def holdsPermit : LoopPhase → Bool
  | looking | settling | asleep => true
  | _ => false

end LoopPhase

/-- What the activities of a service share. -/
structure Shared (σ : Type) where
  instanceId : Nat
  /-- The log that new activities take their own copy of. -/
  logger : Logger
  registry : Registry
  /-- The registry still has its owner; without one nobody finds a process in it. -/
  owned : Bool := true
  storage : σ
  scheduler : Scheduler := {}
  loop : LoopPhase := .idle
  /-- A wakeup that nobody waited for. -/
  wakeup : Bool := false
  pool : Pool
  /-- Every event, oldest first. -/
  notices : List Notice := []

namespace Shared

variable {σ α : Type}

/-- An operation on the storage alone. -/
def onStorage (a : Action σ α) : Action (Shared σ) α :=
  a.within (·.storage) fun storage s => { s with storage }

/-- The process of an id, if the registry is there and holds it. -/
def find? (s : Shared σ) (processId : ProcessId) : Option ProcessDefinition :=
  if s.owned then s.registry.find? processId else none

/-- The instance runs the process. -/
def owns (s : Shared σ) (p : ProcessDefinition) : Bool := p.instanceId == s.instanceId

/-- Tells an event of a register. -/
def publish (s : Shared σ) (processId : ProcessId) (registerId : RegisterId) (event : Event) : Shared σ :=
  { s with notices := s.notices ++ [⟨processId, registerId, event⟩] }

/-- Wakes the main loop; if it is not asleep the wakeup is kept for when it next listens. -/
def wake (s : Shared σ) : Shared σ :=
  match s.loop with
  | .asleep => { s with loop := .looking }
  | _ => { s with wakeup := true }

/-- Selects the log tables of a name for the activities to come. -/
def selectTable [Storage σ] (name : String) : Action (Shared σ) Unit :=
  (Logger.select name).within (fun s => (s.logger, s.storage)) fun (logger, storage) s =>
    { s with logger, storage }

/-! ### The main loop -/

/-- One step of the main loop; the package that it dispatches, if any. -/
def loopStep (s : Shared σ) : Option Package × Shared σ :=
  match s.loop with
  | .asking =>
    let (got, pool) := s.pool.request
    (none, { s with pool, loop := if got then .looking else .inLine })
  | .inLine =>
    if s.pool.granted then (none, { s with pool := { s.pool with granted := false }, loop := .looking })
    else (none, s)
  | .looking =>
    match s.scheduler.pop? with
    | some (p, scheduler) => (some p, { s with scheduler, loop := .asking })
    | none => (none, { s with loop := .settling })
  | .settling =>
    (none, if s.wakeup then { s with wakeup := false, loop := .looking } else { s with loop := .asleep })
  | .idle | .asleep | .stopped => (none, s)

/-- The main loop sees that the service stops; it looks out for that only where it may have to wait. -/
def loopStop (s : Shared σ) : Shared σ :=
  match s.loop with
  | .asking => { s with loop := .stopped }
  | .inLine => { s with pool := s.pool.abandon, loop := .stopped }
  | .settling | .asleep => { s with pool := s.pool.release, loop := .stopped }
  | .idle | .looking | .stopped => s

end Shared

end ProcessRuns
