import ProcessRuns.Service.Shared

/-! # Jobs

What a job sees of the service while it runs, what it can do there, and how it ends. -/

namespace ProcessRuns

/-- How the body of a job comes back. -/
inductive JobResult where
  /-- Data was produced; its newest time, and what the job reports. -/
  | done (dataTimestamp : Option Instant) (extraInfo : Dictionary Json)
  /-- There was nothing to process. -/
  | noData
  | failure (cause : Failure)
  /-- The job broke off, with a text if it left one. -/
  | panic (text : Option String)

/-- How a run ends, whatever the job did. -/
inductive Ending where
  | done (dataTimestamp : Option Instant) (extraInfo : Dictionary Json)
  | noData
  | failed (text : String)

namespace Ending

/-- How a run ends whose job comes back so. -/
def ofResult : JobResult → Ending
  | .done dataTimestamp extraInfo => .done dataTimestamp extraInfo
  | .noData => .noData
  | .failure cause => .failed cause.message
  | .panic text => .failed ("job panicked: " ++ text.getD "unknown panic")

/-- The status of the register afterwards. -/
def status : Ending → Status
  | done _ _ | noData => .done
  | failed _ => .error

/-- The data timestamp of the register afterwards; a failed run has the time of the failure. -/
def dataTimestamp (now : Instant) : Ending → Option Instant
  | done dataTimestamp _ => dataTimestamp
  | noData => none
  | failed _ => some now

/-- The message that the service attaches to the register. -/
def message? : Ending → Option (MessageType × String)
  | done _ _ => none
  | noData => some (.warning, "No data available")
  | failed text => some (.error, text)

/-- The report of the run of a package. -/
def report (p : Package) : Ending → Finished
  | done _ extraInfo => .report p true true extraInfo
  | noData => .report p true false []
  | failed _ => .report p false false []

end Ending

/-- What a job knows: its package, and a log that writes to the package's register. -/
structure JobContext where
  package : Package
  logger : Logger

/-- What a job can do. -/
inductive JobAction where
  | log (type : MessageType) (description : String)
  | addValue (tag value : String)
  /-- Gets hold of the registry. -/
  | registry
  /-- Looks up its own process. -/
  | definition
  /-- The newest data timestamp of earlier runs. -/
  | lastData
  | tableName
  | package

/-- What a job is told. -/
inductive JobAnswer where
  | done
  | definition (p : ProcessDefinition)
  | date (a : Option Instant)
  | name (text : Option String)
  | package (p : Package)

namespace JobContext

variable {σ : Type} [Storage σ]

/-- Adds a message to the register of the run. -/
def log (c : JobContext) (type : MessageType) (description : String) (now : Instant) : Action (Shared σ) Unit :=
  Shared.onStorage (c.logger.log type description c.package.registerId now)

/-- Adds a value to the register of the run. -/
def addValue (c : JobContext) (tag value : String) : Action (Shared σ) Unit :=
  Shared.onStorage (c.logger.addValue tag value c.package.registerId)

/-- The registry, while it has an owner. -/
def registry (_ : JobContext) : Action (Shared σ) Registry := fun s =>
  if s.owned then (.ok s.registry, s) else (.error .registryGone, s)

/-- The definition of the process that runs. -/
def definition (c : JobContext) : Action (Shared σ) ProcessDefinition := do
  match (← c.registry).find? c.package.processId with
  | some p => return p
  | none => .fail (.processNotFound c.package.processId)

/-- When the process had data last. -/
def lastData (c : JobContext) : Action (Shared σ) (Option Instant) :=
  Shared.onStorage (c.logger.lastData c.package.processId)

/-- Does one thing. -/
def perform (c : JobContext) (now : Instant) : JobAction → Action (Shared σ) JobAnswer
  | .log type description => do
    c.log type description now
    return .done
  | .addValue tag value => do
    c.addValue tag value
    return .done
  | .registry => do
    let _ ← c.registry
    return .done
  | .definition => return .definition (← c.definition)
  | .lastData => return .date (← c.lastData)
  | .tableName => return .name c.logger.tableName
  | .package => return .package c.package

end JobContext

/-- A job that is told in advance what to do; a failure of an action that has to succeed ends it. -/
structure JobScript where
  actions : List (JobAction × Bool)
  result : JobResult

namespace JobScript

variable {σ : Type} [Storage σ]

/-- Does the actions in turn; what came of each, and how the job comes back. -/
def perform (c : JobContext) (now : Instant) (result : JobResult) :
    List (JobAction × Bool) → Shared σ → List (Except Failure JobAnswer) × JobResult × Shared σ
  | [], s => ([], result, s)
  | (action, must) :: rest, s =>
    match c.perform now action s with
    | (.error e, s) =>
      if must then ([.error e], .failure e, s)
      else
        let (answers, result, s) := perform c now result rest s
        (.error e :: answers, result, s)
    | (.ok a, s) =>
      let (answers, result, s) := perform c now result rest s
      (.ok a :: answers, result, s)

/-- Does what the script says, and says how the job comes back. -/
def run (script : JobScript) (c : JobContext) (now : Instant) (s : Shared σ) :
    List (Except Failure JobAnswer) × JobResult × Shared σ :=
  perform c now script.result script.actions s

end JobScript

end ProcessRuns
