import ProcessRuns.Service.Basic
import ProcessRuns.Settings.Basic

/-! # Building services

A service needs a job and settings. What runs its activities, where its log is kept and which processes it
knows can be given as well, and follow from the settings otherwise. -/

namespace ProcessRuns

/-- What runs the activities of a service. -/
inductive Executor where
  /-- One thread, which a call of the storage would block for all. -/
  | singleThreaded
  | multiThreaded
deriving DecidableEq, Repr

namespace StorageSettings

/-- The storage that the settings name; `connect` reaches the server. -/
def storage {σ : Type} (s : StorageSettings) (memory : σ) (connect : PostgresSettings → Except Failure σ) :
    Except Failure σ :=
  match s.kind, s.postgres with
  | .memory, _ => .ok memory
  | .postgres, some postgres => connect postgres
  | .postgres, none => .error .postgresNotConfigured

end StorageSettings

/-- The parts of a service to be built. -/
structure Blueprint (σ : Type) where
  settings : Settings := {}
  hasJob : Bool := false
  executor : Option Executor := none
  registry : Option Registry := none
  storage : Option σ := none

namespace Blueprint

variable {σ : Type}

/-- There is a job, and an executor with threads: the given one, or a new one by the settings. -/
def check (b : Blueprint σ) : Except Failure Unit :=
  if !b.hasJob then .error .jobRequired
  else
    match b.executor with
    | some .singleThreaded => .error .singleThreadedRuntime
    | some .multiThreaded => .ok ()
    | none => if b.settings.threads = 0 then .error .noWorkerThreads else .ok ()

/-- The service that is built, over a log that has selected the service's tables and repaired them. `ofSettings`
gives the storage where the blueprint has none. -/
def build [Storage σ] (b : Blueprint σ) (cores : Nat) (ofSettings : StorageSettings → Except Failure σ) :
    Except Failure (Service σ) := do
  b.check
  let storage ← match b.storage with
    | some storage => .ok storage
    | none => ofSettings b.settings.storage
  let identity := b.settings.service
  match Logger.opened identity.logTableName storage with
  | (.error e, _) => .error e
  | (.ok logger, storage) =>
    return .create identity.kind identity.instanceId cores b.settings.workers logger (b.registry.getD ∅) storage

end Blueprint

end ProcessRuns
