import ProcessRuns.Service.Job

/-! # Runs

The execution of one package, from the moment the main loop hands it to a worker. Whatever the job does and
whichever writes fail, the register is given an end status, the process is released, its end is published, and
the permit goes back to the pool. -/

namespace ProcessRuns

namespace Run

/-- What a run does next. -/
inductive Stage where
  | takeLog
  /-- Marks the register of a package that had to wait as started. -/
  | mark
  | announce
  | stampStart
  /-- Looks whether the registry still has an owner. -/
  | check
  /-- The job is running. -/
  | working
  | stampEnd (ending : Ending)
  /-- Attaches the service's own message. -/
  | explain (ending : Ending)
  /-- Writes the end status. -/
  | close (ending : Ending)
  /-- Releases the process. -/
  | release (ending : Ending)
  /-- Wakes the main loop for the package that was promoted. -/
  | wake (ending : Ending)
  | report (ending : Ending)
  /-- Gives the permit back. -/
  | leave
  | finished

/-- A bound on the steps that are left. -/
def Stage.rank : Stage → Nat
  | takeLog => 13
  | mark => 12
  | announce => 11
  | stampStart => 10
  | check => 9
  | working => 8
  | stampEnd _ => 7
  | explain _ => 6
  | close _ => 5
  | release _ => 4
  | wake _ => 3
  | report _ => 2
  | leave => 1
  | finished => 0

/-- A stage that goes on by itself. -/
def Stage.goesOn : Stage → Bool
  | working | finished => false
  | _ => true

end Run

/-- The execution of a package. -/
structure Run where
  package : Package
  /-- The copy of the log that the run took. -/
  logger : Logger := {}
  stage : Run.Stage := .takeLog

namespace Run

variable {σ : Type}

/-- What the job of a run knows. -/
def context (r : Run) : JobContext := ⟨r.package, r.logger⟩

/-- The run goes over to another stage. -/
def enter (r : Run) (stage : Stage) : Run := { r with stage }

/-- A write whose failure is put down and changes nothing else. -/
def attempt {α : Type} (a : Action σ α) (s : Shared σ) : Shared σ := (s.onStorage a).2

/-- The next step of a run. -/
def step [Storage σ] (now : Instant) (r : Run) (s : Shared σ) : Run × Shared σ :=
  match r.stage with
  | .takeLog => ({ r with logger := s.logger, stage := if r.package.onQueue then .mark else .announce }, s)
  | .mark => (r.enter .announce, attempt (r.logger.result .start none r.package.registerId now) s)
  | .announce =>
    (r.enter .stampStart, s.publish r.package.processId r.package.registerId (.running r.package.executionDate))
  | .stampStart => (r.enter .check, attempt (r.logger.setStart now r.package.registerId) s)
  -- The registry is gone once the service was dropped.
  | .check => (r.enter (if s.owned then .working else .stampEnd (.failed Failure.registryGone.message)), s)
  | .working => (r, s)
  | .stampEnd e => (r.enter (.explain e), attempt (r.logger.setEnd now r.package.registerId) s)
  | .explain e =>
    (r.enter (.close e),
      match e.message? with
      | some (type, text) => attempt (r.logger.log type text r.package.registerId now) s
      | none => s)
  | .close e =>
    (r.enter (.release e), attempt (r.logger.result e.status (e.dataTimestamp now) r.package.registerId now) s)
  | .release e =>
    -- The next run of the process may start before the end of this one is told.
    let (promoted, scheduler) := s.scheduler.finish r.package.processId
    (r.enter (if promoted then .wake e else .report e), { s with scheduler })
  | .wake e => (r.enter (.report e), s.wake)
  | .report e =>
    (r.enter .leave, s.publish r.package.processId r.package.registerId (.finished (e.report r.package)))
  | .leave => (r.enter .finished, { s with pool := s.pool.release })
  | .finished => (r, s)

theorem rank_step [Storage σ] (now : Instant) (r : Run) (s : Shared σ) (h : r.stage.goesOn = true) :
    (r.step now s).1.stage.rank < r.stage.rank := by
  obtain ⟨package, logger, stage⟩ := r
  cases stage with
  | takeLog => simp only [step]; split <;> simp [Stage.rank]
  | check => simp only [step, enter]; split <;> simp [Stage.rank]
  | release e => simp only [step, enter]; split <;> simp [Stage.rank]
  | working => simp [Stage.goesOn] at h
  | finished => simp [Stage.goesOn] at h
  | _ => simp [step, enter, Stage.rank]

/-- Goes on to where the job runs, or to the end, without anything in between. -/
def advance [Storage σ] (now : Instant) (r : Run) (s : Shared σ) : Run × Shared σ :=
  if _going : r.stage.goesOn then advance now (r.step now s).1 (r.step now s).2 else (r, s)
termination_by r.stage.rank
decreasing_by exact rank_step now r s _going

/-- The job came back. -/
def answered (r : Run) (result : JobResult) : Run :=
  match r.stage with
  | .working => r.enter (.stampEnd (Ending.ofResult result))
  | _ => r

end Run

end ProcessRuns
