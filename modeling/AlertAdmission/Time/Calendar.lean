import AlertAdmission.Time.Instant

/-!
Dates of the proleptic Gregorian calendar and days counted from 1970-01-01.

The calendar repeats every 400 years, an era of 146097 days that begins on the first of March, so
that a leap day is the last day of its year. Counting and dating are inverse to each other on valid
dates. Only the years from -262143 to 262142 are in use, so a time before or after them has no date.
-/

namespace AlertAdmission

structure Date where
  year : Int
  month : Nat
  day : Nat
  deriving DecidableEq, Repr

inductive Weekday where
  | sunday
  | monday
  | tuesday
  | wednesday
  | thursday
  | friday
  | saturday
  deriving DecidableEq, Repr

namespace Weekday

def number : Weekday → Nat
  | .sunday => 0
  | .monday => 1
  | .tuesday => 2
  | .wednesday => 3
  | .thursday => 4
  | .friday => 5
  | .saturday => 6

def name : Weekday → String
  | .sunday => "Sunday"
  | .monday => "Monday"
  | .tuesday => "Tuesday"
  | .wednesday => "Wednesday"
  | .thursday => "Thursday"
  | .friday => "Friday"
  | .saturday => "Saturday"

/-- The day of the week of a day counted from 1970-01-01, which was a Thursday. -/
def ofDays (days : Int) : Weekday :=
  match ((days + 4) % 7).toNat with
  | 0 => .sunday
  | 1 => .monday
  | 2 => .tuesday
  | 3 => .wednesday
  | 4 => .thursday
  | 5 => .friday
  | _ => .saturday

end Weekday

namespace Date

def isLeapYear (year : Int) : Bool :=
  year % 4 == 0 && (year % 100 != 0 || year % 400 == 0)

/-- The number of days of a month; none for a number that is no month. -/
def daysInMonth (year : Int) (month : Nat) : Nat :=
  match month with
  | 1 | 3 | 5 | 7 | 8 | 10 | 12 => 31
  | 4 | 6 | 9 | 11 => 30
  | 2 => if isLeapYear year then 29 else 28
  | _ => 0

def isValid (d : Date) : Bool := 1 ≤ d.day && d.day ≤ daysInMonth d.year d.month

def toDays (d : Date) : Int :=
  let year := if d.month ≤ 2 then d.year - 1 else d.year
  let era := year / 400
  let yearOfEra := year % 400
  let monthFromMarch := (d.month + 9) % 12
  let dayOfYear : Int := ((153 * monthFromMarch + 2) / 5 + d.day - 1 : Nat)
  let dayOfEra := yearOfEra * 365 + yearOfEra / 4 - yearOfEra / 100 + dayOfYear
  era * 146097 + dayOfEra - 719468

def ofDays (days : Int) : Date :=
  let shifted := days + 719468
  let era := shifted / 146097
  let dayOfEra := (shifted % 146097).toNat
  let yearOfEra := (dayOfEra - dayOfEra / 1460 + dayOfEra / 36524 - dayOfEra / 146096) / 365
  let dayOfYear := dayOfEra - (365 * yearOfEra + yearOfEra / 4 - yearOfEra / 100)
  let monthFromMarch := (5 * dayOfYear + 2) / 153
  let day := dayOfYear - (153 * monthFromMarch + 2) / 5 + 1
  let month := if monthFromMarch < 10 then monthFromMarch + 3 else monthFromMarch - 9
  let year : Int := era * 400 + yearOfEra
  ⟨if month ≤ 2 then year + 1 else year, month, day⟩

def firstSunday (year : Int) (month : Nat) : Int :=
  let first := toDays ⟨year, month, 1⟩
  first + (7 - (Weekday.ofDays first).number) % 7

def sundayAfter (weeks : Nat) (year : Int) (month : Nat) : Int := firstSunday year month + 7 * weeks

def lastSunday (year : Int) (month : Nat) : Int :=
  let last := toDays ⟨year, month, daysInMonth year month⟩
  last - (Weekday.ofDays last).number

end Date

/-- A date and a time of day as clocks show them, in nanoseconds since 1970-01-01T00:00. -/
abbrev WallTime := Int

/-- The midnight at which a day counted from 1970-01-01 begins. -/
def startOfDay (days : Int) : WallTime := days * Span.day

def dayOf (wall : WallTime) : Int := wall / Span.day

def sinceMidnight (wall : WallTime) : Nat := (wall % Span.day).toNat

/-- The first moment that has a date, at the start of the year -262143. -/
def firstMoment : WallTime := startOfDay (Date.toDays ⟨-262143, 1, 1⟩)

/-- The end of the last year that has dates, the year 262142. -/
def endOfDates : WallTime := startOfDay (Date.toDays ⟨262143, 1, 1⟩)

def hasDate (wall : WallTime) : Bool := firstMoment ≤ wall && wall < endOfDates

namespace Instant

/-- What clocks in universal time show at an instant, where a leap second repeats the second before
it. -/
def wallTime (t : Instant) : WallTime := t.nanos

def earliest : Instant := ofNanos firstMoment

def isDated (t : Instant) : Bool := hasDate t.wallTime

end Instant

end AlertAdmission
