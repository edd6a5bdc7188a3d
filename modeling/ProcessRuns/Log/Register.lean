import ProcessRuns.Log.Status
import ProcessRuns.Log.Values
import ProcessRuns.ProcessDefinition
import ProcessRuns.Time.DateText

/-! # Registers and messages

The rows of a process log: one register for each execution of a process, any number of messages for each
register. -/

namespace ProcessRuns

/-- A number that a storage gives a register. -/
abbrev RegisterId := Nat

/-- One execution of a process. -/
structure Register where
  id : RegisterId
  processId : ProcessId
  status : Status
  start : Instant
  /-- The time of the newest data that the execution produced. -/
  dataTimestamp : Option Instant
  /-- When the status was last written by a result. -/
  lastProcess : Instant
  /-- The values that were noted, as JSON text. -/
  data : Option String
deriving DecidableEq

/-- A message attached to a register. -/
structure LogMessage where
  id : Nat
  registerId : RegisterId
  type : MessageType
  description : String
  timestamp : Instant
deriving DecidableEq

/-- A register with its messages. -/
structure LogEntry where
  register : Register
  messages : List LogMessage
deriving DecidableEq

namespace Instant

/-- The date as its text. -/
def toJson (a : Instant) : Json := .text a.text

/-- Reads a date. -/
def ofDocument? (d : Json.Document) : Option Instant := d.toText?.bind Instant.read?

end Instant

namespace Register

/-- The values under their tags. -/
def values (r : Register) : Except Failure (Dictionary (List String)) := Values.read r.data

/-- The register as a record. -/
def toJson (r : Register) : Json :=
  .object [("id", r.id), ("process_id", r.processId), ("status", r.status.toJson),
    ("start_timestamp", r.start.toJson), ("data_timestamp", .ofOption Instant.toJson r.dataTimestamp),
    ("last_process_timestamp", r.lastProcess.toJson), ("data", .ofOption .text r.data)]

/-- Reads a register. -/
def ofDocument? (d : Json.Document) : Option Register := do
  let fields ← Json.Fields.of?
    ["id", "process_id", "status", "start_timestamp", "data_timestamp", "last_process_timestamp", "data"] d
  return {
    id := ← fields.required "id" (·.toWord?)
    processId := ← fields.required "process_id" (·.toWord?)
    status := ← fields.required "status" Status.ofDocument?
    start := ← fields.required "start_timestamp" Instant.ofDocument?
    dataTimestamp := ← fields.optional "data_timestamp" Instant.ofDocument?
    lastProcess := ← fields.required "last_process_timestamp" Instant.ofDocument?
    data := ← fields.optional "data" (·.toText?) }

end Register

namespace LogMessage

/-- The message as a record. -/
def toJson (m : LogMessage) : Json :=
  .object [("id", m.id), ("log_id", m.registerId), ("message_type", m.type.toJson), ("description", m.description),
    ("timestamp", m.timestamp.toJson)]

/-- Reads a message. -/
def ofDocument? (d : Json.Document) : Option LogMessage := do
  let fields ← Json.Fields.of? ["id", "log_id", "message_type", "description", "timestamp"] d
  return {
    id := ← fields.required "id" (·.toWord?)
    registerId := ← fields.required "log_id" (·.toWord?)
    type := ← fields.required "message_type" MessageType.ofDocument?
    description := ← fields.required "description" (·.toText?)
    timestamp := ← fields.required "timestamp" Instant.ofDocument? }

end LogMessage

namespace LogEntry

/-- The register with its messages as a record. -/
def toJson (e : LogEntry) : Json :=
  .object [("register", e.register.toJson), ("messages", .array (e.messages.map (·.toJson)))]

/-- Reads a register with its messages. -/
def ofDocument? (d : Json.Document) : Option LogEntry := do
  let fields ← Json.Fields.of? ["register", "messages"] d
  return {
    register := ← fields.required "register" Register.ofDocument?
    messages := ← fields.required "messages" (·.toList? LogMessage.ofDocument?) }

end LogEntry

end ProcessRuns
