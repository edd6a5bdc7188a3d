import ProcessRuns.Failure
import ProcessRuns.Text.Blank
import ProcessRuns.Text.Lower
import ProcessRuns.Time.Instant

/-! # Schedules

How often a process runs, and the nominal dates of its runs in a stretch of time. -/

namespace ProcessRuns

/-- A period as so many of a unit of time. -/
structure Schedule where
  frequency : Nat
  unit : String
deriving DecidableEq, Repr

namespace Schedule

/-- The seconds of a unit of time. -/
def unitSeconds? (unit : String) : Option Nat :=
  if ["s", "ss", "sec", "second", "seconds"].contains unit then some 1
  else if ["min", "minute", "minutes"].contains unit then some 60
  else if ["h", "hh", "hour", "hours"].contains unit then some 3600
  else if ["d", "dd", "day", "days"].contains unit then some 86400
  else if ["w", "wk", "week", "weeks"].contains unit then some 604800
  else none

/-- Every unit lasts at least a second. -/
theorem unitSeconds?_pos {unit : String} {n : Nat} (h : unitSeconds? unit = some n) : 0 < n := by
  unfold unitSeconds? at h
  repeat' split at h
  all_goals simp only [Option.some.injEq, reduceCtorEq] at h
  all_goals omega

/-- The unit without blanks around it and in lower case. -/
def normalUnit (s : Schedule) : String := String.ofList (Text.lower (Text.trim s.unit.toList))

/-- The longest period that fits 64 bits. -/
def periodMax : Nat := 0xFFFFFFFFFFFFFFFF

/-- The seconds from one run to the next. -/
def period (s : Schedule) : Except Failure Nat :=
  if s.frequency = 0 then .error .zeroFrequency
  else
    match unitSeconds? s.normalUnit with
    | none => .error (.unknownUnit s.normalUnit)
    | some seconds =>
      if s.frequency * seconds ≤ periodMax then .ok (s.frequency * seconds)
      else .error (.frequencyOverflow s.frequency s.unit)

theorem period_pos {s : Schedule} {n : Nat} (h : s.period = .ok n) : 0 < n := by
  unfold period at h
  split at h
  · cases h
  · next hf =>
    split at h
    · cases h
    · next seconds hs =>
      split at h
      · cases h
        exact Nat.mul_pos (Nat.pos_of_ne_zero hf) (unitSeconds?_pos hs)
      · cases h

/-- The longest step from one date to another, in seconds. -/
def stepMax : Nat := 9223372036854775

/-- The period where it can be added to a date. -/
def step (s : Schedule) : Except Failure Nat := do
  let period ← s.period
  if period ≤ stepMax then return period else throw .periodOutOfRange

/-- The dates from `date` in steps of a period, up to `last` or as far as dates go. -/
def datesFrom (period : Nat) (last date : Instant) : List Instant :=
  if _inside : 0 < period ∧ date ≤ last then
    date ::
      match _next : date.plus? period with
      | some next => datesFrom period last next
      | none => []
  else []
termination_by (last.seconds + 1 - date.seconds).toNat
decreasing_by
  have := Instant.seconds_of_plus? _next
  have := Instant.seconds_le_of_le _inside.2
  omega

/-- The nominal dates of the runs between two dates, oldest first; the dates may come in either order. -/
def datesBetween (s : Schedule) (a b : Instant) : Except Failure (List Instant) := do
  let period ← s.step
  return if b < a then datesFrom period a b else datesFrom period b a

end Schedule

end ProcessRuns
