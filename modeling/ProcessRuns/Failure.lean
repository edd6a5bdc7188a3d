import ProcessRuns.Log.StorageCall
import ProcessRuns.Text.Quoted

/-! # Failures

Why an operation did not succeed: one cause per constructor, the subsystem it belongs to, and its wording. -/

namespace ProcessRuns

namespace Failure

/-- The subsystem that a failure belongs to. -/
inductive Kind where
  /-- Building or running a service. -/
  | service
  /-- Settings, schedules and table names. -/
  | config
  /-- Use of a log without a table or with an unknown register. -/
  | log
  /-- The storage behind a log. -/
  | store
  /-- Data that does not fit its type. -/
  | convert
  /-- Process definitions. -/
  | process
  /-- What a job reports. -/
  | job
  | io
  | queue
deriving DecidableEq, Repr

end Failure

/-- Why something was not done. -/
inductive Failure where
  /-- A schedule never comes round. -/
  | zeroFrequency
  | unknownUnit (unit : String)
  /-- A period does not fit 64 bits. -/
  | frequencyOverflow (frequency : Nat) (unit : String)
  /-- A period is longer than the distance between two dates can be. -/
  | periodOutOfRange
  | invalidTableName (name : String)
  | tableNotSet
  | unknownRegister (id : Nat) (table : String)
  | missingRelation (table : String)
  /-- A storage that is made to fail refused the call. -/
  | injected (call : StorageCall)
  | unknownStatusCode (code : Int)
  | unknownMessageTypeCode (code : Int)
  /-- The values of a register are not written as they have to be. -/
  | malformedData
  | malformedProcess
  /-- An id does not fit a column of 32 bits. -/
  | idTooLarge (id : Nat)
  | negativeId (id : Int)
  /-- The server answered a statement with an error. -/
  | database (text : String)
  | noRow
  /-- A column holds null where a value has to be. -/
  | unexpectedNull (column : String)
  | connectionRefused (url text : String)
  | connectionFailed
  | malformedSettings
  | noWorkerThreads
  | postgresSectionRequired
  | postgresNotConfigured
  | unreadableSettings (path reason : String)
  | jobRequired
  | singleThreadedRuntime
  | processNotFound (id : Nat)
  | registryGone
  /-- A failure that somebody else words, such as a job. -/
  | reported (kind : Failure.Kind) (text : String)
  /-- The operation breaks off instead of reporting: a date, a count or a number of permits is beyond the
  largest one, a count is missing, or a queue has no room. -/
  | abort
deriving DecidableEq, Repr

namespace Failure

/-- The kind that is reported; what breaks off is of none. -/
def kind? : Failure → Option Kind
  | zeroFrequency | unknownUnit _ | frequencyOverflow _ _ | invalidTableName _ | malformedSettings
  | noWorkerThreads | postgresSectionRequired | postgresNotConfigured | unreadableSettings _ _
  | singleThreadedRuntime => some .config
  | periodOutOfRange | unknownStatusCode _ | unknownMessageTypeCode _ | malformedData | idTooLarge _
  | negativeId _ => some .convert
  | tableNotSet | unknownRegister _ _ => some .log
  | missingRelation _ | injected _ | database _ | noRow | unexpectedNull _ | connectionRefused _ _
  | connectionFailed => some .store
  | jobRequired => some .service
  | malformedProcess | processNotFound _ => some .process
  | registryGone => some .job
  | reported kind _ => some kind
  | abort => none

/-- How the cause is worded. -/
def message : Failure → String
  | zeroFrequency => "schedule frequency must be greater than zero"
  | unknownUnit unit => "invalid schedule frequency unit: '" ++ unit ++ "'"
  | frequencyOverflow frequency unit => "schedule frequency overflow: " ++ frequency.repr ++ " " ++ unit
  | periodOutOfRange => "Source duration value is out of range for the target type"
  | invalidTableName name => "invalid log table name: '" ++ name ++ "'"
  | tableNotSet => "Can not find log table name. Is it set?"
  | unknownRegister id table => "register " ++ id.repr ++ " not found in " ++ table
  | missingRelation table => "relation \"" ++ table ++ "\" does not exist"
  | injected call => "injected: " ++ call.name
  | unknownStatusCode code => "unknown process status code: " ++ code.repr
  | unknownMessageTypeCode code => "unknown message type code: " ++ code.repr
  | malformedData => "malformed JSON data"
  | malformedProcess => "malformed JSON process"
  | idTooLarge id => "id " ++ id.repr ++ " does not fit an INT column"
  | negativeId id => "negative id " ++ id.repr ++ " read from database"
  | database text => "error returned from database: " ++ text
  | noRow => "no rows returned by a query that expected to return at least one row"
  | unexpectedNull column =>
    "error occurred while decoding column " ++ column ++ ": unexpected null; try decoding as an `Option`"
  | connectionRefused url text => "failed to connect to DB " ++ url ++ ": error returned from database: " ++ text
  | connectionFailed => "failed to connect to DB"
  | malformedSettings => "malformed TOML settings"
  | noWorkerThreads => "async_worker_thread_number must be at least 1"
  | postgresSectionRequired => "[store.postgres] is required when store_type is postgres"
  | postgresNotConfigured => "Postgres configuration is required when store type is Postgres"
  | unreadableSettings path reason => "failed to load config file " ++ Text.quoted path ++ ": " ++ reason
  | jobRequired => "a job is required to build a service"
  | singleThreadedRuntime => "the service runtime must be a multi-thread runtime"
  | processNotFound id => "process " ++ id.repr ++ " not found"
  | registryGone => "Unable to access DataManager"
  | reported _ text => text
  | abort => ""

end Failure

end ProcessRuns
