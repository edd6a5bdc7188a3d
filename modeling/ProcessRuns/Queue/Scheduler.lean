import ProcessRuns.Keyed
import ProcessRuns.Service.Package

/-! # The scheduler

A process is active from the moment a package of it is queued until a run of it ends with nothing waiting.
While it is active its further packages wait in their order, so that one package of a process at most is queued
or running. -/

namespace ProcessRuns

/-- The packages that wait for a run, and the processes that have one. -/
structure Scheduler where
  /-- The primary queue, next package first. -/
  queued : List Package := []
  /-- The processes with a package queued or running. -/
  active : List ProcessId := []
  running : List ProcessId := []
  /-- The packages behind each active process, next package first. -/
  waiting : Keyed ProcessId (List Package) := ∅

/-- What the queues hold at one moment. -/
structure QueueSnapshot where
  queued : Nat
  waiting : Nat
  active : List ProcessId
  running : List ProcessId
deriving DecidableEq, Repr

namespace Scheduler

/-- The process has a package queued or running. -/
def isActive (s : Scheduler) (processId : ProcessId) : Bool := processId ∈ s.active

/-- The packages that wait behind a process. -/
def waitQueue (s : Scheduler) (processId : ProcessId) : List Package := (s.waiting.get? processId).getD []

/-- The set with one more member. -/
def adding (processId : ProcessId) (set : List ProcessId) : List ProcessId :=
  if processId ∈ set then set else set ++ [processId]

/-- The set without a member. -/
def dropping (processId : ProcessId) (set : List ProcessId) : List ProcessId :=
  set.filter fun id => id ≠ processId

/-- Puts a package at the end of the primary queue; its process is active. -/
def enqueue (s : Scheduler) (p : Package) : Scheduler :=
  { s with active := adding p.processId s.active, queued := s.queued ++ [p] }

/-- Puts a package at the end of the queue behind its process. -/
def wait (s : Scheduler) (p : Package) : Scheduler :=
  { s with waiting := s.waiting.set p.processId (s.waitQueue p.processId ++ [p]) }

/-- Takes the next package to dispatch; its process is running. -/
def pop? (s : Scheduler) : Option (Package × Scheduler) :=
  match s.queued with
  | [] => none
  | p :: rest => some (p, { s with queued := rest, running := adding p.processId s.running })

/-- The waiting packages of a process become `rest`; an empty queue is not kept. -/
def keepWaiting (s : Scheduler) (processId : ProcessId) (rest : List Package) : Keyed ProcessId (List Package) :=
  if rest.isEmpty then s.waiting.erase processId else s.waiting.set processId rest

/-- Ends the run of a process. Its next waiting package moves to the primary queue; without one the process is
idle. Says whether a package moved. -/
def finish (s : Scheduler) (processId : ProcessId) : Bool × Scheduler :=
  -- Whether a run of the process was under way is not looked at.
  let s := { s with running := dropping processId s.running }
  match s.waitQueue processId with
  | p :: rest => (true, { s with queued := s.queued ++ [p], waiting := s.keepWaiting processId rest })
  | [] => (false, { s with active := dropping processId s.active, waiting := s.waiting.erase processId })

/-- Takes out every package of a process that was not dispatched, queued ones first. A running package stays,
and its process with it. -/
def remove (s : Scheduler) (processId : ProcessId) : List Package × Scheduler :=
  (s.queued.filter (fun p => p.processId = processId) ++ s.waitQueue processId,
    { s with
      queued := s.queued.filter fun p => p.processId ≠ processId
      waiting := s.waiting.erase processId
      active := if processId ∈ s.running then s.active else dropping processId s.active })

/-- The number of packages that wait. -/
def waitingCount (s : Scheduler) : Nat := s.waiting.values.flatten.length

/-- The number of packages that were not dispatched. -/
def pending (s : Scheduler) : Nat := s.queued.length + s.waitingCount

/-- What the queues hold at this moment. -/
def snapshot (s : Scheduler) : QueueSnapshot where
  queued := s.queued.length
  waiting := s.waitingCount
  active := s.active.mergeSort
  running := s.running.mergeSort

end Scheduler

end ProcessRuns
