import ProcessRuns.Log.Register

/-! # Execution packages

One requested execution of a process on its way through the queues. -/

namespace ProcessRuns

/-- One execution of a process. -/
structure Package where
  processId : ProcessId
  /-- The register that was opened for this execution. -/
  registerId : RegisterId
  /-- The nominal time of the execution. -/
  executionDate : Instant
  /-- The register was marked as queued behind another execution. -/
  onQueue : Bool := false
deriving DecidableEq

namespace Package

/-- The package as a record. -/
def toJson (p : Package) : Json :=
  .object [("process_id", p.processId), ("register_id", p.registerId), ("execution_date", p.executionDate.toJson),
    ("on_queue", p.onQueue)]

/-- Reads a package. -/
def ofDocument? (d : Json.Document) : Option Package := do
  let fields ← Json.Fields.of? ["process_id", "register_id", "execution_date", "on_queue"] d
  return {
    processId := ← fields.required "process_id" (·.toWord?)
    registerId := ← fields.required "register_id" (·.toWord?)
    executionDate := ← fields.required "execution_date" Instant.ofDocument?
    onQueue := ← fields.required "on_queue" (·.toBool?) }

end Package

end ProcessRuns
