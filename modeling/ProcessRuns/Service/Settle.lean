import ProcessRuns.Service.Basic

/-! # Settling

What goes on by itself between two calls of a service, until everything waits: timers tick, triggers are
admitted, the pool shrinks, packages are dispatched and their jobs start, events are passed on. Of the orders in
which this may happen, one is taken: triggers come before the main loop, the runs begin when it rests, and the channel
receives at last. -/

namespace ProcessRuns.Service

variable {σ : Type}

/-- The timers that are due put their triggers on the queue. -/
def tick (s : Service σ) (now : Instant) : Service σ :=
  { s with
    triggers := (s.timers.values.filter (·.isDue now)).foldl (fun q t => q.send (t.trigger now)) s.triggers
    timers := ⟨s.timers.entries.map fun e => (e.1, if e.2.isDue now then { e.2 with ticked := true } else e.2)⟩ }

/-- A run that was dispatched goes on to its job; one that is over goes away. -/
def begin [Storage σ] (s : Service σ) (p : Package) (now : Instant) : Service σ :=
  let (r, shared) := ({ package := p } : Run).advance now s.shared
  match r.stage with
  | .working => { s with shared, runs := s.runs ++ [r], started := s.started ++ [p] }
  -- Its job did not start, as the registry is gone.
  | _ => { s with shared }

/-- Accepts every trigger on the queue. -/
def acceptAll [Storage σ] (now : Instant) (q : TriggerQueue) (s : Shared σ) : TriggerQueue × Shared σ :=
  match _more : q.next? with
  | none => (q, s)
  | some (t, q) => acceptAll now q ((Admission.find t.processId t.executionDate).run now s)
termination_by q.pending
decreasing_by exact TriggerQueue.pending_of_next? _more

/-- A launched service accepts the triggers on its queue. -/
def accept [Storage σ] (s : Service σ) (now : Instant) : Service σ :=
  if s.phase = .launched then
    let (triggers, shared) := acceptAll now s.triggers s.shared
    { s with triggers, shared }
  else s

/-- The main loop has nothing to do. -/
def loopRests (s : Shared σ) : Bool :=
  match s.loop with
  | .idle | .asleep | .stopped => true
  | .inLine => !s.pool.granted
  | .asking | .looking | .settling => false

/-- Steps of the main loop until it rests, `fuel` of them at most; the packages that it dispatches. -/
def dispatched (fuel : Nat) (s : Shared σ) : List Package × Shared σ :=
  match fuel with
  | 0 => ([], s)
  | fuel + 1 =>
    if loopRests s then ([], s)
    else
      let (p, s) := s.loopStep
      let (packages, s) := dispatched fuel s
      (p.toList ++ packages, s)

/-- The main loop sees that the service was stopped, or dispatches for as long as there are packages and
permits. A package takes three steps, and the loop needs five more to fall asleep. Of several packages the last
one begins first. -/
def dispatch [Storage σ] (s : Service σ) (now : Instant) : Service σ :=
  match s.phase with
  | .created => s
  | .launched =>
    let (packages, shared) := dispatched (3 * s.shared.scheduler.pending + 5) s.shared
    (packages.getLast?.toList ++ packages.dropLast).foldl (fun s p => s.begin p now) { s with shared }
  | .stopped => { s with shared := s.shared.loopStop }

/-- The channel of a launched service receives the events, and its tasks run. -/
def hear (s : Service σ) : Service σ :=
  if s.phase = .launched then { s with channel := (s.channel.drain s.shared.notices).runTasks } else s

/-- The withdrawals that were ordered ask for their permits. -/
def withdraw (s : Service σ) : Service σ :=
  let pool := s.shared.pool.orders.foldl (fun pool _ => pool.withdraw) s.shared.pool
  { s with shared := { s.shared with pool } }

/-- Everything that goes on by itself. -/
def settle [Storage σ] (s : Service σ) (now : Instant) : Service σ :=
  ((((s.tick now).accept now).withdraw).dispatch now).hear

/-- The run of a process whose job is to come back next: the one with the smallest register. -/
def working? (s : Service σ) (processId : ProcessId) : Option Run :=
  let runs := s.runs.filter fun r => r.package.processId = processId
  runs.find? fun r => runs.all fun r' => r.package.registerId ≤ r'.package.registerId

/-- A job does what its script says and comes back, and its run goes on to the end. -/
def conclude [Storage σ] (s : Service σ) (r : Run) (script : JobScript) (now : Instant) :
    List (Except Failure JobAnswer) × Service σ :=
  let (answers, result, shared) := script.run r.context now s.shared
  let (_, shared) := (r.answered result).advance now shared
  (answers, { s with shared, runs := s.runs.eraseP fun r' => r'.package = r.package })

end ProcessRuns.Service
