import ProcessRuns.Settings.Basic
import ProcessRuns.Toml.Fields

/-! # Settings in TOML

Every field but the address of a server has a default, and so has every section. -/

namespace ProcessRuns

open Toml (Fields Node)

/-- Reads how a server is reached. -/
def PostgresSettings.ofNode? (n : Node) : Option PostgresSettings := do
  let fields ← Fields.of? ["database_url", "max_connections"] n
  return ⟨← fields.required "database_url" (·.toText?),
    ← fields.withDefault "max_connections" standardConnections (·.toNat? 0xFFFFFFFF)⟩

/-- Reads where the log is kept. -/
def StorageSettings.ofNode? (n : Node) : Option StorageSettings := do
  let standard : StorageSettings := {}
  let fields ← Fields.of? ["store_type", "postgres"] n
  return ⟨← fields.withDefault "store_type" standard.kind (·.toChoice? StorageKind.ofName?),
    ← fields.optional "postgres" PostgresSettings.ofNode?⟩

/-- Reads who a service is. -/
def ServiceIdentity.ofNode? (n : Node) : Option ServiceIdentity := do
  let standard : ServiceIdentity := {}
  let fields ← Fields.of? ["service_type", "instance_id"] n
  return ⟨← fields.withDefault "service_type" standard.kind (·.toChoice? ServiceKind.ofName?),
    ← fields.withDefault "instance_id" standard.instanceId (·.toNat? 0xFFFFFFFFFFFFFFFF)⟩

namespace Settings

/-- Reads settings; what is left out is as it is by default. -/
def ofNode? (n : Node) : Option Settings := do
  let standard : Settings := {}
  let fields ← Fields.of? ["service", "store", "worker_thread_number", "async_worker_thread_number"] n
  return ⟨← fields.withDefault "service" standard.service ServiceIdentity.ofNode?,
    ← fields.withDefault "store" standard.storage StorageSettings.ofNode?,
    ← fields.withDefault "worker_thread_number" standard.workers (·.toNat? 0xFFFFFFFFFFFFFFFF),
    ← fields.withDefault "async_worker_thread_number" standard.threads (·.toNat? 0xFFFF)⟩

/-- The settings that a text gives. -/
def ofText (text : String) : Except Failure Settings :=
  match (Node.read? text).bind ofNode? with
  | some s => s.check
  | none => .error .malformedSettings

/-- The settings in a file, of which the text or the reason why it cannot be read is given. -/
def ofFile (path : String) (content : Except String String) : Except Failure Settings :=
  match content with
  | .ok text => ofText text
  | .error reason => .error (.unreadableSettings path reason)

end Settings

end ProcessRuns
