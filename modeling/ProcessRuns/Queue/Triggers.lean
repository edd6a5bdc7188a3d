import ProcessRuns.ProcessDefinition

/-! # The trigger queue

A bounded queue from the timers to the service. A full queue holds a timer back: its trigger is kept until
there is room, and none is dropped. -/

namespace ProcessRuns

/-- A request of a timer to run a process. -/
structure Trigger where
  processId : ProcessId
  executionDate : Instant
deriving DecidableEq

/-- Triggers on their way from timers to the service. -/
structure TriggerQueue where
  capacity : Nat
  /-- The triggers on the queue, next one first. -/
  entries : List Trigger := []
  /-- The triggers of timers that are held back, longest first. -/
  heldBack : List Trigger := []
deriving DecidableEq

namespace TriggerQueue

/-- The triggers on the queue. -/
def size (q : TriggerQueue) : Nat := q.entries.length

/-- Puts a trigger on the queue, if there is room. -/
def push? (q : TriggerQueue) (t : Trigger) : Option TriggerQueue :=
  if q.entries.length < q.capacity then some { q with entries := q.entries ++ [t] } else none

/-- Puts a trigger on the queue, or holds its sender back. -/
def send (q : TriggerQueue) (t : Trigger) : TriggerQueue :=
  (q.push? t).getD { q with heldBack := q.heldBack ++ [t] }

/-- Takes the next trigger; the sender that was held back longest takes the place that is free. -/
def next? (q : TriggerQueue) : Option (Trigger × TriggerQueue) :=
  match q.entries ++ q.heldBack.take 1 with
  | [] => none
  | t :: rest => some (t, { q with entries := rest, heldBack := q.heldBack.drop 1 })

/-- Gives up the triggers of a timer that is held back. -/
def withdraw (q : TriggerQueue) (processId : ProcessId) : TriggerQueue :=
  { q with heldBack := q.heldBack.filter fun t => t.processId ≠ processId }

/-- The triggers that are still to be taken. -/
def pending (q : TriggerQueue) : Nat := q.entries.length + q.heldBack.length

theorem pending_of_next? {q r : TriggerQueue} {t : Trigger} (h : q.next? = some (t, r)) :
    r.pending < q.pending := by
  unfold next? at h
  have hlen : (q.entries ++ q.heldBack.take 1).length + (q.heldBack.drop 1).length = q.pending := by
    simp [pending]; omega
  split at h
  · simp at h
  · next t' rest heq =>
    simp only [Option.some.injEq, Prod.mk.injEq] at h
    obtain ⟨rfl, rfl⟩ := h
    rw [heq] at hlen
    simp [pending] at hlen ⊢
    omega

end TriggerQueue

end ProcessRuns
