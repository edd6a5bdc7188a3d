import ProcessRuns.Time.Calendar

/-! # Dates and times of TOML

A date, a time of day, or a date and a time with or without an offset. Seconds may be left out. -/

namespace ProcessRuns.Toml

/-- The number of two digits. -/
def twoDigits? : List Char → Option (Nat × List Char)
  | a :: b :: cs => if a.isDigit && b.isDigit then some (Nat.ofDigitChars 10 [a, b] 0, cs) else none
  | _ => none

/-- Two digits behind a mark. -/
def marked? (mark : Char) : List Char → Option (Nat × List Char)
  | c :: cs => if c == mark then twoDigits? cs else none
  | [] => none

/-- Passes over a date that the calendar has. -/
def passDate? (cs : List Char) : Option (List Char) := do
  let (century, cs) ← twoDigits? cs
  let (year, cs) ← twoDigits? cs
  let (month, cs) ← marked? '-' cs
  let (day, cs) ← marked? '-' cs
  if decide (CalendarDate.Valid ⟨100 * century + year, month, day⟩) then some cs else none

/-- Passes over the seconds and their fraction, where there are any. -/
def passSeconds? : List Char → Option (List Char)
  | ':' :: cs => do
    let (second, cs) ← twoDigits? cs
    if 60 < second then none
    match cs with
    | '.' :: cs => if (cs.head?.any Char.isDigit) then some (cs.dropWhile Char.isDigit) else none
    | cs => some cs
  | cs => some cs

/-- Passes over hours and minutes that a day has. -/
def passClock? (cs : List Char) : Option (List Char) := do
  let (hour, cs) ← twoDigits? cs
  let (minute, cs) ← marked? ':' cs
  if hour < 24 ∧ minute < 60 then some cs else none

/-- Passes over a time of the day. -/
def passTime? (cs : List Char) : Option (List Char) := (passClock? cs).bind passSeconds?

/-- Passes over the distance from UTC, where it is given. -/
def passOffset? : List Char → Option (List Char)
  | [] => some []
  | 'Z' :: cs | 'z' :: cs => some cs
  | '+' :: cs | '-' :: cs => passClock? cs
  | _ => none

/-- The whole text is a date, a time, or both. -/
def isMoment (cs : List Char) : Bool :=
  let rest :=
    match passDate? cs with
    | none => passTime? cs
    | some ('T' :: cs) | some ('t' :: cs) | some (' ' :: cs) => (passTime? cs).bind passOffset?
    | some cs => some cs
  rest == some []

/-- The text is written as a date, be it one of the calendar or not. -/
def hasDateForm (cs : List Char) : Bool :=
  cs.length == 10 && (cs.map fun c => if c.isDigit then '0' else c) == "0000-00-00".toList

end ProcessRuns.Toml
