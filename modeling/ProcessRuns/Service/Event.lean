import ProcessRuns.Json.Writer
import ProcessRuns.Service.Package

/-! # Events

What is published while a package moves through the queues, and how a finished run is reported. -/

namespace ProcessRuns

/-- The report of a finished run. -/
structure Finished where
  processId : ProcessId
  executionDate : Instant
  success : Bool
  /-- What the job reported, with the service's own entries. -/
  extraInfo : Dictionary Json

/-- What happens to a package. -/
inductive Event where
  /-- The package is on the primary queue. -/
  | queued (executionDate : Instant)
  /-- The package waits behind another one of its process. -/
  | onQueue (executionDate : Instant)
  /-- The package was handed to a worker. -/
  | running (executionDate : Instant)
  /-- The package was taken out of the queues. -/
  | notExecuted
  | finished (report : Finished)

/-- An event and the package that it is about. -/
structure Notice where
  processId : ProcessId
  registerId : RegisterId
  event : Event

namespace Finished

/-- The process that ran; this key and the next three are the service's own. -/
def processIdKey : String := "process_id"

/-- Whether the run has succeeded. -/
def resultKey : String := "result"

/-- The date of the run. -/
def executionDateKey : String := "execution_date"

/-- Whether the run may trigger others. -/
def automaticKey : String := "automatic"

/-- Follow-up processes may be triggered by the run. -/
def isAutomatic (f : Finished) : Bool :=
  match f.extraInfo.get? automaticKey with
  | some (.bool b) => b
  | _ => false

/-- The report of a package's run; the service's own entries replace the job's. -/
def report (p : Package) (success automatic : Bool) (extraInfo : Dictionary Json) : Finished where
  processId := p.processId
  executionDate := p.executionDate
  success := success
  extraInfo :=
    Dictionary.set automaticKey (automatic : Json)
      (Dictionary.set executionDateKey (p.executionDate.millisText : Json)
        (Dictionary.set resultKey (success : Json)
          (Dictionary.set processIdKey (p.processId : Json) extraInfo)))

/-- The report as a record. -/
def toJson (f : Finished) : Json :=
  .object [("process_id", f.processId), ("execution_date", f.executionDate.toJson), ("success", f.success),
    ("extra_info", .object f.extraInfo)]

end Finished

namespace Event

/-- The report of a run that has ended. -/
def finished? : Event → Option Finished
  | finished f => some f
  | _ => none

/-- A run has ended, and failed. -/
def isError : Event → Bool
  | finished f => !f.success
  | _ => false

end Event

end ProcessRuns
