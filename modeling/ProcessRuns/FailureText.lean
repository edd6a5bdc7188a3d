import ProcessRuns.Failure
import ProcessRuns.Json.Fields

/-! # Failures in JSON

A failure is written as its kind with its wording. Who reads it back has the kind and the wording, no longer
the cause. -/

namespace ProcessRuns.Failure

namespace Kind

/-- All kinds. -/
def all : List Kind := [service, config, log, store, convert, process, job, io, queue]

/-- The name of the kind in a text. -/
def name : Kind → String
  | service => "Service"
  | config => "Config"
  | log => "Log"
  | store => "Store"
  | convert => "Convert"
  | process => "Process"
  | job => "Job"
  | io => "IoError"
  | queue => "Queue"

/-- The kind of a name. -/
def ofName? (name : String) : Option Kind := all.find? fun k => k.name == name

end Kind

/-- The failure as a record of its kind and its wording; some have no kind of their own. -/
def toJson (f : Failure) : Json := .ofOption (fun (k : Kind) => .object [(k.name, f.message)]) f.kind?

/-- Reads the failure of a kind. -/
def ofDocument? : Json.Document → Option Failure
  | .object [(kind, text)] => do
    return .reported (← Kind.ofName? (← kind.toText?)) (← text.toText?)
  | _ => none

/-- The failure as an error of input or output, which keeps the wording alone. -/
def asIo (f : Failure) : Failure := .reported .io f.message

end ProcessRuns.Failure
