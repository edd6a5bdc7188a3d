import ProcessRuns.Service.Shared

/-! # Admissions

A request to run a process. It opens a register and puts the package where it belongs: on the primary queue if
the process is idle, behind it otherwise. A package is published only when its register says where it goes, and
the storage is written while the queues are free for others; so the queues are looked at again after the write. -/

namespace ProcessRuns

/-- The steps of a request, by what it does next. -/
inductive Admission where
  /-- Finds the process; one that is unknown or of another instance is not run. -/
  | find (processId : ProcessId) (date : Instant)
  /-- Takes a copy of the log. -/
  | takeLog (processId : ProcessId) (date : Instant)
  | openRegister (logger : Logger) (processId : ProcessId) (date : Instant)
  /-- Puts the package on the primary queue or behind its process, if its register agrees. -/
  | place (logger : Logger) (package : Package)
  /-- Marks the register as queued behind another execution. -/
  | mark (logger : Logger) (package : Package)
  | wake (package : Package)
  | announce (package : Package) (event : Event)
  | done

namespace Admission

variable {σ : Type}

/-- A bound on the steps that are left. -/
def rank : Admission → Nat
  | find _ _ => 8
  | takeLog _ _ => 7
  | openRegister _ _ _ => 6
  | place _ p => if p.onQueue then 3 else 5
  | mark _ _ => 4
  | wake _ => 2
  | announce _ _ => 1
  | done => 0

/-- The next step of a request. -/
def step [Storage σ] (now : Instant) (a : Admission) (s : Shared σ) : Admission × Shared σ :=
  match a with
  | find processId date =>
    match s.find? processId with
    | some p => (if s.owns p then takeLog processId date else done, s)
    | none => (done, s)
  | takeLog processId date => (openRegister s.logger processId date, s)
  | openRegister logger processId date =>
    match s.onStorage (logger.start processId now) with
    | (.ok id, s) => (place logger ⟨processId, id, date, false⟩, s)
    | (.error _, s) => (done, s)
  | place logger p =>
    if !s.scheduler.isActive p.processId then (wake p, { s with scheduler := s.scheduler.enqueue p })
    else if p.onQueue then (announce p (.onQueue p.executionDate), { s with scheduler := s.scheduler.wait p })
    -- The process may be idle by the time the mark is written, so it is looked at once more.
    else (mark logger p, s)
  | mark logger p =>
    -- A failure of the write is put down and the package goes on.
    (place logger { p with onQueue := true }, (s.onStorage (logger.result .onQueue none p.registerId now)).2)
  | wake p => (announce p (.queued p.executionDate), s.wake)
  | announce p event => (done, s.publish p.processId p.registerId event)
  | done => (done, s)

/-- The request has come to its end. -/
def isDone : Admission → Bool
  | done => true
  | _ => false

/-- Every step but that of a request that is done leads on. -/
theorem rank_step [Storage σ] (now : Instant) (a : Admission) (s : Shared σ) (h : ¬ a.isDone = true) :
    (a.step now s).1.rank < a.rank := by
  cases a with
  | find processId date =>
    simp only [step]
    split
    · split <;> simp [rank]
    · simp [rank]
  | takeLog => simp [step, rank]
  | openRegister => simp only [step]; split <;> simp [rank]
  | place logger p =>
    simp only [step]
    split
    · simp only [rank]; split <;> omega
    · split <;> simp [rank, *]
  | mark => simp [step, rank]
  | wake => simp [step, rank]
  | announce => simp [step, rank]
  | done => exact absurd rfl h

/-- A request without anything in between. -/
def run [Storage σ] (now : Instant) (a : Admission) (s : Shared σ) : Shared σ :=
  if _going : a.isDone then s else run now (a.step now s).1 (a.step now s).2
termination_by a.rank
decreasing_by exact rank_step now a s _going

end Admission

end ProcessRuns
