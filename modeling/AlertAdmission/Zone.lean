import AlertAdmission.Time.Calendar

/-!
Time zones as piecewise constant offset functions.

A zone shows an instant as its wall time in universal time plus an offset, which is that of the
last change at or before the instant. The instants that show a wall time are therefore among the
wall time less one of the finitely many offsets of the zone: none in a gap, one on most days,
several in an overlap, of which the earliest is taken. A leap second, which shows the second before
it once more, is never the earliest. Where the calendar begins or ends, the instant that would show
a wall time may have no date; then nothing shows that wall time.
-/

namespace AlertAdmission

/-- An instant from which on a zone has an offset from universal time. -/
structure OffsetChange where
  instant : Instant
  offset : Span
  deriving DecidableEq, Repr

/-- A named zone: the offset before all changes, and the changes in order. -/
structure Zone where
  name : String
  initial : Span
  changes : List OffsetChange
  deriving Repr

namespace Zone

def constant (name : String) (offset : Int) : Zone := ⟨name, Span.ofSeconds offset, []⟩

def utc : Zone := constant "UTC" 0

def offsetAt (z : Zone) (t : Instant) : Span :=
  z.changes.foldl (fun offset change => if change.instant ≤ t then change.offset else offset)
    z.initial

def wallTime (z : Zone) (t : Instant) : WallTime := t.wallTime + z.offsetAt t

def minuteOfDay (z : Zone) (t : Instant) : Nat := sinceMidnight (z.wallTime t) / 60000000000

/-- The day that the calendars of the zone show at an instant, counted from 1970-01-01. -/
def localDay (z : Zone) (t : Instant) : Int := dayOf (z.wallTime t)

def offsets (z : Zone) : List Span := (z.initial :: z.changes.map OffsetChange.offset).eraseDups

/-- The instants with dates, outside of leap seconds, at which the clocks of the zone show a wall
time. -/
def instantsShowing (z : Zone) (wall : WallTime) : List Instant :=
  z.offsets.filterMap fun offset =>
    let t := Instant.ofNanos (wall - offset)
    if z.offsetAt t = offset ∧ t.isDated then some t else none

def earliestOf : List Instant → Option Instant
  | [] => none
  | t :: rest =>
    match earliestOf rest with
    | none => some t
    | some u => if u < t then some u else some t

/-- The earliest instant at which the clocks of the zone show a wall time. -/
def firstShowing? (z : Zone) (wall : WallTime) : Option Instant :=
  earliestOf (z.instantsShowing wall)

/-- The furthest, in minutes, that a wall time in a gap is moved. -/
def longestGap : Nat := 180

/-- The earliest instant that shows a wall time or, where none does, the first wall time whole
minutes later that is shown. The search ends with the calendar. -/
def resolve? (z : Zone) (wall : WallTime) : Option Instant :=
  (List.range (longestGap + 1)).findSome? fun (m : Nat) =>
    let later := wall + Span.ofMinutes m
    if hasDate later then z.firstShowing? later else none

end Zone

/-- The zones that go by name. Which these are, and how their clocks are moved, is for the time zone
database to say. -/
class ZoneDatabase where
  find? : String → Option Zone

/-- The zone of a name; universal time where the name is unknown. -/
def Zone.ofName [ZoneDatabase] (name : String) : Zone := (ZoneDatabase.find? name).getD utc

end AlertAdmission
