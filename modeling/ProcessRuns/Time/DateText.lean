import ProcessRuns.Text.Blank
import ProcessRuns.Time.Instant
import ProcessRuns.Time.Calendar

/-! # Dates as text

The format of RFC 3339. Writing gives one form, in UTC; reading also takes blanks between the parts, a space
or a small `t` before the time, and any offset of less than a day. -/

namespace ProcessRuns.Instant

/-- How many digits of the second's fraction are written. -/
inductive Fraction where
  /-- None, three, six or nine, whichever is the least that is exact. -/
  | exact
  | millis
deriving DecidableEq, Repr

/-- The digits of a number, with zeros before them up to a width. -/
def padded (width n : Nat) : List Char := (Nat.toDigits 10 n).leftpad width '0'

/-- Four digits, and a sign where they do not suffice or the year is negative. -/
def writeYear (year : Int) : List Char :=
  if 0 ≤ year ∧ year ≤ 9999 then padded 4 year.toNat
  else (if year < 0 then '-' else '+') :: padded 4 year.natAbs

/-- The fraction of a second with its point. -/
def writeFraction (f : Fraction) (nanos : Nat) : List Char :=
  match f with
  | .millis => '.' :: padded 3 (nanos / 1000000)
  | .exact =>
    if nanos = 0 then []
    else if nanos % 1000000 = 0 then '.' :: padded 3 (nanos / 1000000)
    else if nanos % 1000 = 0 then '.' :: padded 6 (nanos / 1000)
    else '.' :: padded 9 nanos

/-- The characters of an instant. A leap second counts as one second more, and so is the second 60 at the end of a
minute and looks like the second after it elsewhere. -/
def write (f : Fraction) (a : Instant) : List Char :=
  let date := CalendarDate.ofDayNumber (a.seconds / 86400)
  let second := (a.seconds % 86400).toNat
  let leap := a.nanos / nanosPerSecond
  writeYear date.year ++ '-' :: padded 2 date.month.toNat ++ '-' :: padded 2 date.day.toNat ++
    'T' :: padded 2 (second / 3600) ++ ':' :: padded 2 (second / 60 % 60) ++ ':' :: padded 2 (second % 60 + leap) ++
    writeFraction f (a.nanos % nanosPerSecond) ++ ['Z']

/-- The text of an instant, without loss of its fraction. -/
def text (a : Instant) : String := String.ofList (a.write .exact)

/-- The text that marks when a run started and ended. -/
def millisText (a : Instant) : String := String.ofList (a.write .millis)

/-! ### Reading -/

/-- One to `width` digits at the front. -/
def readNumber (width : Nat) (cs : List Char) : Option (Nat × List Char) :=
  let digits := (cs.take width).takeWhile Char.isDigit
  if digits.isEmpty then none else some (Nat.ofDigitChars 10 digits 0, cs.drop digits.length)

/-- A year: four digits at most, or a sign and any number of them. -/
def readYear (cs : List Char) : Option (Int × List Char) :=
  match cs with
  | '-' :: cs => (readNumber cs.length cs).map fun (n, cs) => (-n, cs)
  | '+' :: cs => (readNumber cs.length cs).map fun (n, cs) => (n, cs)
  | cs => (readNumber 4 cs).map fun (n, cs) => (n, cs)

/-- A separator with blanks around it. -/
def readMark (mark : Char) (cs : List Char) : Option (List Char) :=
  match Text.trimStart cs with
  | c :: cs => if c = mark then some (Text.trimStart cs) else none
  | [] => none

/-- The nanoseconds of a fraction; digits past the ninth are dropped. -/
def readNanos : List Char → Option (Nat × List Char)
  | '.' :: cs =>
    let digits := cs.takeWhile Char.isDigit
    if digits.isEmpty then none
    else some (Nat.ofDigitChars 10 ((digits.take 9).rightpad 9 '0') 0, cs.dropWhile Char.isDigit)
  | cs => some (0, cs)

/-- The colons and blanks between the hours and the minutes of an offset. -/
def isOffsetMark (c : Char) : Bool := c == ':' || Text.isBlank c

/-- The seconds by which a clock is ahead of UTC. -/
def readOffset (cs : List Char) : Option (Int × List Char) := do
  let ahead (sign : Int) (cs : List Char) : Option (Int × List Char) :=
    match cs with
    | h₁ :: h₂ :: cs => do
      if !(h₁.isDigit && h₂.isDigit) then none
      match cs.dropWhile isOffsetMark with
      | m₁ :: m₂ :: cs =>
        if !(m₁.isDigit && m₂.isDigit && m₁ < '6') then none
        return (sign * ((Nat.ofDigitChars 10 [h₁, h₂] 0) * 3600 + (Nat.ofDigitChars 10 [m₁, m₂] 0) * 60), cs)
      | _ => none
    | _ => none
  match cs with
  | 'z' :: cs => return (0, cs)
  | 'Z' :: cs => return (0, cs)
  | '+' :: cs => ahead 1 cs
  | '-' :: cs => ahead (-1) cs
  | '\u2212' :: cs => ahead (-1) cs
  | u :: t :: c :: cs =>
    if u.toUpper = 'U' ∧ t.toUpper = 'T' ∧ c.toUpper = 'C' then return (0, cs) else none
  | _ => none

/-- The instant of a date, a time of day and an offset, where all are in range. -/
def ofClock? (date : CalendarDate) (hour minute second nanos : Nat) (offset : Int) : Option Instant := do
  if !(decide date.Valid && hour < 24 && minute < 60 && second ≤ 60) then none
  -- The second 60 is the leap second behind the second 59.
  let leap := if second = 60 then 1 else 0
  let seconds : Int := date.dayNumber * 86400 + hour * 3600 + minute * 60 + (second - leap : Nat)
  if !(firstSecond ≤ seconds && seconds ≤ lastSecond && -86400 < offset && offset < 86400) then none
  of? (seconds - offset) (nanos + leap * nanosPerSecond)

/-- The instant that a text names. -/
def read? (text : String) : Option Instant := do
  let (year, cs) ← readYear (Text.trimStart text.toList)
  let (month, cs) ← readNumber 2 (← readMark '-' cs)
  let (day, cs) ← readNumber 2 (← readMark '-' cs)
  let cs ← match cs with
    | c :: cs => if c = 't' ∨ c = 'T' ∨ c = ' ' then some cs else none
    | [] => none
  let (hour, cs) ← readNumber 2 (Text.trimStart cs)
  let (minute, cs) ← readNumber 2 (← readMark ':' cs)
  let (second, cs) ← readNumber 2 (← readMark ':' cs)
  let (nanos, cs) ← readNanos cs
  let (offset, cs) ← readOffset (Text.trimStart cs)
  if !(Text.trimStart cs).isEmpty then none
  ofClock? ⟨year, month, day⟩ hour minute second nanos offset

end ProcessRuns.Instant
