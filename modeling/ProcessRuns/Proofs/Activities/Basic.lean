import ProcessRuns.Service.Basic

/-! # Activities side by side

A service is used and works on many sides at once. `Activities` holds what they share together with every
request, removal and run that is under way, and a `Move` is one step of one of them or one thing that is done
from outside; any list of moves is an interleaving. Jobs and callers from outside may attach messages and values
to any register, but write no status.

The record beside them has no influence on anything. It says which package a register was opened for: packages
do not know the table of their register, and registers of two tables may have one number. -/

namespace ProcessRuns

/-- A package with the request that it comes from and the log in whose table its register was opened. -/
structure Ticket where
  /-- The place of the request among all requests. -/
  request : Nat
  log : Logger
  package : Package
deriving DecidableEq

/-- What has happened to the packages so far. -/
structure Record where
  /-- The registers that were opened, oldest first. -/
  opened : List Ticket := []
  /-- What was published and neither dispatched nor taken out, in the order of publication. -/
  pending : List Ticket := []
  /-- What was dispatched, one for each run. -/
  dispatched : List Ticket := []
  /-- What was taken out, by removal. -/
  stripped : List (List Ticket) := []
deriving DecidableEq

namespace Record

/-- Puts down what the step of a request from one stage to another did. -/
def admitted (r : Record) (i : Nat) : Admission → Admission → Record
  | .openRegister _ _ _, .place log p => { r with opened := r.opened ++ [⟨i, log, p⟩] }
  | .place log p, .wake _ => { r with pending := r.pending ++ [⟨i, log, p⟩] }
  | .place log p, .announce _ _ => { r with pending := r.pending ++ [⟨i, log, p⟩] }
  | _, _ => r

/-- A process's packages are dispatched in the order in which they were published. -/
def dispatch (r : Record) (pid : ProcessId) : Record :=
  match r.pending.find? fun t => t.package.processId = pid with
  | some t =>
    { r with
      pending := r.pending.eraseP fun t => t.package.processId = pid
      dispatched := r.dispatched ++ [t] }
  | none => r

/-- A removal takes out whatever is pending of its process. -/
def removed (r : Record) (i : Nat) : Removal → Record
  | .strip pid =>
    { r with
      pending := r.pending.filter fun t => t.package.processId ≠ pid
      stripped := r.stripped.set i (r.pending.filter fun t => t.package.processId = pid) }
  | _ => r

end Record

/-- Everything that goes on at one time, and what it shares. -/
structure Activities (σ : Type) where
  shared : Shared σ
  /-- The requests to run a process, in the order in which they were made. -/
  admissions : List Admission := []
  /-- The removals, in the order in which they were ordered. -/
  removals : List Removal := []
  /-- The runs, in the order in which they were dispatched; those that are over stay. -/
  runs : List Run := []
  /-- The releases from outside that promoted a package and did not wake the main loop yet. -/
  nudges : Nat := 0
  record : Record := {}

/-- What may happen next. -/
inductive Move where
  /-- Somebody requests a run. -/
  | request (processId : ProcessId) (date : Instant)
  /-- Somebody orders a removal. -/
  | forget (processId : ProcessId)
  /-- The next step of a request. -/
  | admission (i : Nat) (now : Instant)
  /-- The next step of a removal. -/
  | removal (i : Nat) (now : Instant)
  /-- The next step of a run. -/
  | run (i : Nat) (now : Instant)
  /-- The job of a run does something. -/
  | act (i : Nat) (action : JobAction) (now : Instant)
  /-- The job of a run comes back. -/
  | answer (i : Nat) (result : JobResult)
  /-- The next step of the main loop. -/
  | loop
  | launch
  /-- The main loop sees that the service stops. -/
  | halt
  /-- Somebody releases a process as if a run of it had ended. -/
  | release (processId : ProcessId)
  /-- Such a release wakes the main loop. -/
  | nudge
  /-- Somebody selects other log tables. -/
  | select (name : String)
  /-- Somebody does from outside what a job could do. -/
  | outside (context : JobContext) (action : JobAction) (now : Instant)
  /-- Somebody asks when a process ran last. -/
  | lookUp (processId : ProcessId)
  | define (p : ProcessDefinition)
  | undefine (processId : ProcessId)
  /-- The registry loses its owner. -/
  | disown
  | resize (cores workers : Nat)
  /-- A withdrawal asks for its permits. -/
  | withdraw

namespace Move

/-- Releases a process that no run of it releases. -/
def isRelease : Move → Bool
  | release _ => true
  | _ => false

/-- Selects log tables. -/
def isSelect : Move → Bool
  | select _ => true
  | _ => false

end Move

namespace Activities

variable {σ : Type}

/-- A service with nothing under way. -/
def ofService (s : Service σ) : Activities σ := { shared := s.shared }

section
variable [Storage σ]

/-- The step of a request. -/
def stepAdmission (s : Activities σ) (i : Nat) (a : Admission) (now : Instant) : Activities σ :=
  { s with
    shared := (a.step now s.shared).2
    admissions := s.admissions.set i (a.step now s.shared).1
    record := s.record.admitted i a (a.step now s.shared).1 }

/-- The step of a removal. -/
def stepRemoval (s : Activities σ) (i : Nat) (r : Removal) (now : Instant) : Activities σ :=
  { s with
    shared := (r.step now s.shared).2
    removals := s.removals.set i (r.step now s.shared).1
    record := s.record.removed i r }

/-- The step of a run. -/
def stepRun (s : Activities σ) (i : Nat) (r : Run) (now : Instant) : Activities σ :=
  { s with shared := (r.step now s.shared).2, runs := s.runs.set i (r.step now s.shared).1 }

/-- The job of a run does something, if it is running. -/
def act (s : Activities σ) (r : Run) (action : JobAction) (now : Instant) : Activities σ :=
  match r.stage with
  | .working => { s with shared := (r.context.perform now action s.shared).2 }
  | _ => s

end

/-- The step of the main loop; what it dispatches is a new run. -/
def loop (s : Activities σ) : Activities σ :=
  match s.shared.loopStep with
  | (some p, shared) =>
    { s with shared, runs := s.runs ++ [{ package := p }], record := s.record.dispatch p.processId }
  | (none, shared) => { s with shared }

/-- The service is launched: the main loop begins to ask for permits. -/
def launch (s : Activities σ) : Activities σ :=
  match s.shared.loop with
  | .idle => { s with shared := { s.shared with loop := .asking } }
  | _ => s

/-- A process is released from outside; the main loop is woken later. -/
def release (s : Activities σ) (pid : ProcessId) : Activities σ :=
  { s with
    shared := { s.shared with scheduler := (s.shared.scheduler.finish pid).2 }
    nudges := if (s.shared.scheduler.finish pid).1 then s.nudges + 1 else s.nudges }

/-- A release from outside that promoted a package wakes the main loop. -/
def nudge (s : Activities σ) : Activities σ :=
  if s.nudges = 0 then s else { s with shared := s.shared.wake, nudges := s.nudges - 1 }

/-- What a move leads to; one that is not possible leads nowhere. -/
def step [Storage σ] (s : Activities σ) : Move → Activities σ
  | .request pid date => { s with admissions := s.admissions ++ [.find pid date] }
  | .forget pid =>
    { s with
      removals := s.removals ++ [.forget pid]
      record := { s.record with stripped := s.record.stripped ++ [[]] } }
  | .admission i now => (s.admissions[i]?).elim s fun a => s.stepAdmission i a now
  | .removal i now => (s.removals[i]?).elim s fun r => s.stepRemoval i r now
  | .run i now => (s.runs[i]?).elim s fun r => s.stepRun i r now
  | .act i action now => (s.runs[i]?).elim s fun r => s.act r action now
  | .answer i result => (s.runs[i]?).elim s fun r => { s with runs := s.runs.set i (r.answered result) }
  | .loop => s.loop
  | .launch => s.launch
  | .halt => { s with shared := s.shared.loopStop }
  | .release pid => s.release pid
  | .nudge => s.nudge
  | .select name => { s with shared := (s.shared.selectTable name).2 }
  | .outside context action now => { s with shared := (context.perform now action s.shared).2 }
  | .lookUp pid => { s with shared := (s.shared.onStorage (s.shared.logger.lastProcess pid)).2 }
  | .define p => { s with shared := { s.shared with registry := s.shared.registry.add p } }
  | .undefine pid => { s with shared := { s.shared with registry := s.shared.registry.remove pid } }
  | .disown => { s with shared := { s.shared with owned := false } }
  | .resize cores workers =>
    { s with shared := { s.shared with pool := (s.shared.pool.resize (Pool.resolve cores workers)).2 } }
  | .withdraw => { s with shared := { s.shared with pool := s.shared.pool.withdraw } }

/-- Where an interleaving leads. -/
def after [Storage σ] (s : Activities σ) (moves : List Move) : Activities σ := moves.foldl step s

end Activities

end ProcessRuns
