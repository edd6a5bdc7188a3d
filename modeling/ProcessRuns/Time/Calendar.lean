/-! # The calendar

Dates of the proleptic Gregorian calendar as day numbers, counted from 1970-01-01. Years start in March for
the arithmetic, so that the leap day is the last day of a year. -/

namespace ProcessRuns

/-- A day of the calendar. -/
structure CalendarDate where
  year : Int
  month : Int
  day : Int
deriving DecidableEq, Repr

namespace CalendarDate

/-- Days from 0000-03-01 to 1970-01-01. -/
def epochDay : Int := 719468

/-- The number of a date, also of one such as February 30 that its month does not have. -/
def dayNumber (d : CalendarDate) : Int :=
  let year := if d.month ≤ 2 then d.year - 1 else d.year
  let yearOfEra := year % 400
  let monthFromMarch := (d.month + 9) % 12
  let dayOfYear := (153 * monthFromMarch + 2) / 5 + d.day - 1
  let dayOfEra := 365 * yearOfEra + yearOfEra / 4 - yearOfEra / 100 + dayOfYear
  146097 * (year / 400) + dayOfEra - epochDay

/-- The date of a day number. -/
def ofDayNumber (n : Int) : CalendarDate :=
  let day := n + epochDay
  let dayOfEra := day % 146097
  let yearOfEra := (dayOfEra - dayOfEra / 1460 + dayOfEra / 36524 - dayOfEra / 146096) / 365
  let dayOfYear := dayOfEra - (365 * yearOfEra + yearOfEra / 4 - yearOfEra / 100)
  let monthFromMarch := (5 * dayOfYear + 2) / 153
  let month := if monthFromMarch < 10 then monthFromMarch + 3 else monthFromMarch - 9
  { year := yearOfEra + 400 * (day / 146097) + (if month ≤ 2 then 1 else 0)
    month := month
    day := dayOfYear - (153 * monthFromMarch + 2) / 5 + 1 }

/-- A date that its month has: one that its day number gives back. -/
def Valid (d : CalendarDate) : Prop := ofDayNumber d.dayNumber = d

instance (d : CalendarDate) : Decidable d.Valid := by unfold Valid; infer_instance

end CalendarDate

end ProcessRuns
