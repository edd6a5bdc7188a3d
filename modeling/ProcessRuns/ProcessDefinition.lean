import ProcessRuns.Json.Fields
import ProcessRuns.Json.Reader
import ProcessRuns.Json.Writer
import ProcessRuns.Schedule

/-! # Process definitions

What a service knows of a process, and its form as JSON. -/

namespace ProcessRuns

/-- A number that the owner of a process gives it. -/
abbrev ProcessId := Nat

/-- What a service knows about a process. -/
structure ProcessDefinition where
  id : ProcessId
  /-- The service instance that runs the process. -/
  instanceId : Nat
  active : Bool := true
  schedule : Option Schedule := none
deriving DecidableEq, Repr

namespace Schedule

/-- The schedule as a record. -/
def toJson (s : Schedule) : Json :=
  .object [("frequency", s.frequency), ("frequency_unit", s.unit)]

/-- Reads a schedule. -/
def ofDocument? (d : Json.Document) : Option Schedule := do
  let fields ← Json.Fields.of? ["frequency", "frequency_unit"] d
  return {
    frequency := ← fields.required "frequency" (·.toWord?)
    unit := ← fields.required "frequency_unit" (·.toText?) }

end Schedule

namespace ProcessDefinition

/-- A process without schedule has no such member. -/
def toJson (p : ProcessDefinition) : Json :=
  .object (
    [("id", (p.id : Json)), ("service_instance_id", (p.instanceId : Json)), ("active", (p.active : Json))] ++
    match p.schedule with
    | some s => [("schedule", s.toJson)]
    | none => [])

/-- A process is active unless it says otherwise. -/
def ofDocument? (d : Json.Document) : Option ProcessDefinition := do
  let fields ← Json.Fields.of? ["id", "service_instance_id", "active", "schedule"] d
  return {
    id := ← fields.required "id" (·.toWord?)
    instanceId := ← fields.required "service_instance_id" (·.toWord?)
    active := ← fields.withDefault "active" true (·.toBool?)
    schedule := ← fields.withDefault "schedule" none (·.toOption? Schedule.ofDocument?) }

/-- The process that a JSON text defines. -/
def ofText (text : String) : Except Failure ProcessDefinition :=
  match (Json.Document.read? text).bind ofDocument? with
  | some p => .ok p
  | none => .error .malformedProcess

end ProcessDefinition

end ProcessRuns
