import ProcessRuns.Schedule
import ProcessRuns.ProcessDefinition
import ProcessRuns.Queue.Triggers

/-! # Timers

The clock of one process. It ticks at once if the process never ran or its period has passed, and otherwise one
period after the last run. -/

namespace ProcessRuns

/-- The timer of a process. -/
structure Timer where
  processId : ProcessId
  /-- Seconds from one tick to the next. -/
  period : Nat
  /-- When the first tick comes, none where it comes at once. -/
  firstTick : Option Instant
  /-- The first tick has come. -/
  ticked : Bool := false
  running : Bool := true
deriving DecidableEq

namespace Timer

/-- When the first tick comes after a last run; breaks off where no date is that late. -/
def firstTickAfter (period : Nat) : Option Instant → Except Failure (Option Instant)
  | none => .ok none
  | some last =>
    if Schedule.stepMax < period then .error .periodOutOfRange
    else
      match last.plus? period with
      | some next => .ok (some next)
      | none => .error .abort

/-- The timer of a process with a schedule that last ran at a given time. -/
def create (schedule : Schedule) (processId : ProcessId) (last : Option Instant) : Except Failure Timer :=
  match schedule.period with
  | .error e => .error e
  | .ok period => (firstTickAfter period last).map fun firstTick => { processId, period, firstTick }

/-- The first tick comes now. -/
def isDue (t : Timer) (now : Instant) : Bool :=
  t.running && !t.ticked &&
    match t.firstTick with
    | none => true
    | some date => decide (date ≤ now)

/-- The timer does not tick any more. -/
def stop (t : Timer) : Timer := { t with running := false }

/-- The trigger of a tick. -/
def trigger (t : Timer) (now : Instant) : Trigger := ⟨t.processId, now⟩

end Timer

end ProcessRuns
