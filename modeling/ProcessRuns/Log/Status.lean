import ProcessRuns.Failure
import ProcessRuns.Json.Fields

/-! # Statuses and message types

The codes are what storages hold; other readers of the same tables rely on them. -/

namespace ProcessRuns

/-- Where one execution of a process stands. -/
inductive Status where
  | error
  | start
  | downloaded
  | done
  | onQueue
  | interrupted
  | notExecuted
  | warning
deriving DecidableEq, Repr

namespace Status

/-- All statuses. -/
def all : List Status := [error, start, downloaded, done, onQueue, interrupted, notExecuted, warning]

/-- The number under which the status is stored. -/
def code : Status → Int
  | error => 1
  | start => 2
  | downloaded => 3
  | done => 4
  | onQueue => 5
  | interrupted => 6
  | notExecuted => 7
  | warning => 8

/-- The status of a number. -/
def ofCode (code : Int) : Except Failure Status :=
  match all.find? fun s => s.code == code with
  | some s => .ok s
  | none => .error (.unknownStatusCode code)

/-- The name of the status for a reader. -/
def label : Status → String
  | error => "ERROR"
  | start => "START"
  | downloaded => "DOWNLOADED"
  | done => "DONE"
  | onQueue => "ON_QUEUE"
  | interrupted => "INTERRUPTED"
  | notExecuted => "NOT_EXECUTED"
  | warning => "WARNING"

/-- The name in JSON. -/
def name : Status → String
  | error => "Error"
  | start => "Start"
  | downloaded => "Downloaded"
  | done => "Done"
  | onQueue => "OnQueue"
  | interrupted => "Interrupted"
  | notExecuted => "NotExecuted"
  | warning => "Warning"

/-- The status as its name. -/
def toJson (s : Status) : Json := .text s.name

/-- Reads a status. -/
def ofDocument? : Json.Document → Option Status := Json.Document.toChoice? fun n => all.find? fun s => s.name == n

theorem ofCode_code (s : Status) : ofCode s.code = .ok s := by cases s <;> rfl

end Status

/-- What kind of message is attached to an execution. -/
inductive MessageType where
  | error
  | info
  | warning
deriving DecidableEq, Repr

namespace MessageType

/-- All types. -/
def all : List MessageType := [error, info, warning]

/-- The number under which the type is stored. -/
def code : MessageType → Int
  | error => 1
  | info => 2
  | warning => 3

/-- The type of a number. -/
def ofCode (code : Int) : Except Failure MessageType :=
  match all.find? fun t => t.code == code with
  | some t => .ok t
  | none => .error (.unknownMessageTypeCode code)

/-- The name of the type for a reader. -/
def label : MessageType → String
  | error => "ERROR"
  | info => "INFO"
  | warning => "WARNING"

/-- The name in JSON. -/
def name : MessageType → String
  | error => "Error"
  | info => "Info"
  | warning => "Warning"

/-- The type as its name. -/
def toJson (t : MessageType) : Json := .text t.name

/-- Reads a type. -/
def ofDocument? : Json.Document → Option MessageType :=
  Json.Document.toChoice? fun n => all.find? fun t => t.name == n

theorem ofCode_code (t : MessageType) : ofCode t.code = .ok t := by cases t <;> rfl

end MessageType

end ProcessRuns
