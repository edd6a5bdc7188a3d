import ProcessRuns.Json.Fields

/-! # Kinds of services

The name of the kind is also the first part of the name of a service's log tables. -/

namespace ProcessRuns

/-- What a service is for. -/
inductive ServiceKind where
  | collector
  | analysis
  | view
  | alert
  | interpolator
deriving DecidableEq, Repr

namespace ServiceKind

/-- All kinds. -/
def all : List ServiceKind := [collector, analysis, view, alert, interpolator]

/-- The kind of a service that names none. -/
def standard : ServiceKind := collector

instance : Inhabited ServiceKind := ⟨standard⟩

/-- The name of the kind. -/
def name : ServiceKind → String
  | collector => "collector"
  | analysis => "analysis"
  | view => "view"
  | alert => "alert"
  | interpolator => "interpolator"

/-- The kind of a name. -/
def ofName? (name : String) : Option ServiceKind := all.find? fun k => k.name == name

/-- The kind as its name. -/
def toJson (k : ServiceKind) : Json := .text k.name

/-- Reads a kind. -/
def ofDocument? : Json.Document → Option ServiceKind := Json.Document.toChoice? ofName?

end ServiceKind

end ProcessRuns
