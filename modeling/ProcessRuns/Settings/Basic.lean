import ProcessRuns.Failure
import ProcessRuns.Service.Kind

/-! # Settings

What a service is told before it starts: who it is, how many workers it has, and where it keeps its log. -/

namespace ProcessRuns

/-- How to reach a PostgreSQL server. -/
structure PostgresSettings where
  databaseUrl : String
  /-- The size of the connection pool. -/
  maxConnections : Nat
deriving DecidableEq, Repr

/-- The size of a connection pool where none is given. -/
def PostgresSettings.standardConnections : Nat := 16

/-- Where the log is kept. -/
inductive StorageKind where
  | memory
  | postgres
deriving DecidableEq, Repr

namespace StorageKind

/-- All kinds. -/
def all : List StorageKind := [memory, postgres]

/-- The name of the kind. -/
def name : StorageKind → String
  | memory => "mem"
  | postgres => "postgres"

/-- The kind of a name. -/
def ofName? (name : String) : Option StorageKind := all.find? fun k => k.name == name

end StorageKind

/-- Where the log is kept. -/
structure StorageSettings where
  kind : StorageKind := .memory
  postgres : Option PostgresSettings := none
deriving DecidableEq, Repr

/-- Which service this is. A service leaves the processes of other instances alone. -/
structure ServiceIdentity where
  kind : ServiceKind := .standard
  instanceId : Nat := 0
deriving DecidableEq, Repr

/-- Who a service is, where its log is kept and how many jobs it runs. -/
structure Settings where
  service : ServiceIdentity := {}
  storage : StorageSettings := {}
  /-- How many jobs may run at the same time; zero asks for one for each core. -/
  workers : Nat := 0
  /-- The threads that the activities of the service share. -/
  threads : Nat := 16
deriving DecidableEq, Repr

namespace ServiceIdentity

/-- The base name of the log tables. -/
def logTableName (s : ServiceIdentity) : String := s.kind.name ++ "_" ++ s.instanceId.repr

end ServiceIdentity

namespace Settings

/-- Settings that a service can be built with: there is a thread, and a server is named where one is needed. -/
def check (s : Settings) : Except Failure Settings :=
  if s.threads = 0 then .error .noWorkerThreads
  else if s.storage.kind = .postgres ∧ s.storage.postgres = none then .error .postgresSectionRequired
  else .ok s

end Settings

end ProcessRuns
