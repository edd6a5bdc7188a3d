import ProcessRuns.Keyed
import ProcessRuns.ProcessDefinition

/-! # The process registry

The definitions that a service knows, one for each process id. -/

namespace ProcessRuns

/-- The processes that a service knows. -/
abbrev Registry := Keyed ProcessId ProcessDefinition

namespace Registry

/-- Adds a definition, in place of the one with the same id. -/
def add (r : Registry) (p : ProcessDefinition) : Registry := r.set p.id p

/-- The definition of a process. -/
def find? (r : Registry) (id : ProcessId) : Option ProcessDefinition := r.get? id

/-- Forgets a process. -/
def remove (r : Registry) (id : ProcessId) : Registry := r.erase id

end Registry

end ProcessRuns
