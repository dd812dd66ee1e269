import AlertAdmission.Fault
import AlertAdmission.Zone

/-!
Quiet hours: a daily window of local time in which alerts are held.

The window runs from its start up to, but not including, its end, and over midnight when the start
is the later one. Checking never fails: an unknown zone counts as universal time, and a window that
cannot be read holds nothing.
-/

namespace AlertAdmission

/-- A daily window, its zone, and the days on which it applies; no day means every day. -/
structure QuietHours where
  startTime : String
  endTime : String
  timezone : String
  bypassCritical : Bool
  daysOfWeek : List UInt8
  deriving DecidableEq, Repr

inductive QuietVerdict where
  | unconfigured
  | critical
  | inactiveOn (day : Weekday)
  | invalidStart (fault : TimeOfDay.Fault)
  | invalidEnd (fault : TimeOfDay.Fault)
  | active (startTime endTime timezone : String)
  | outside
  deriving DecidableEq, Repr

namespace QuietVerdict

def suppresses : QuietVerdict → Bool
  | .active _ _ _ => true
  | _ => false

/-- The verdict in words, where there is something to say. -/
def reason? : QuietVerdict → Option String
  | .unconfigured => none
  | .critical => some "critical bypasses quiet hours"
  | .inactiveOn day => some ("quiet hours not active on " ++ day.name)
  | .invalidStart fault => some ("invalid start time: " ++ fault.message)
  | .invalidEnd fault => some ("invalid end time: " ++ fault.message)
  | .active startTime endTime timezone =>
    some ("quiet hours active (" ++ startTime ++ "-" ++ endTime ++ " " ++ timezone ++ ")")
  | .outside => none

end QuietVerdict

namespace QuietHours

def none : QuietHours := ⟨"", "", "UTC", true, []⟩

def isConfigured (q : QuietHours) : Bool := q.startTime != "" && q.endTime != ""

def zone [ZoneDatabase] (q : QuietHours) : Zone := Zone.ofName q.timezone

def inWindow (minute start finish : Nat) : Bool :=
  if start ≤ finish then start ≤ minute && minute < finish else start ≤ minute || minute < finish

def appliesOn (q : QuietHours) (day : Weekday) : Bool :=
  q.daysOfWeek.isEmpty || q.daysOfWeek.any fun d => d.toNat = day.number

def windowVerdict (q : QuietHours) (minute : Nat) : QuietVerdict :=
  match TimeOfDay.parse q.startTime, TimeOfDay.parse q.endTime with
  | .error fault, _ => .invalidStart fault
  | .ok _, .error fault => .invalidEnd fault
  | .ok start, .ok finish =>
    if inWindow minute start finish then .active q.startTime q.endTime q.timezone else .outside

def checkIn (q : QuietHours) (z : Zone) (severity : Severity) (now : Instant) : QuietVerdict :=
  if !q.isConfigured then .unconfigured
  else if q.bypassCritical ∧ severity = .critical then .critical
  else
    let day := Weekday.ofDays (z.localDay now)
    if q.appliesOn day then q.windowVerdict (z.minuteOfDay now) else .inactiveOn day

def check [ZoneDatabase] (q : QuietHours) (severity : Severity) (now : Instant) : QuietVerdict :=
  q.checkIn q.zone severity now

/-- The start of the minute of a day counted from 1970-01-01, as wall time. -/
def wallTimeOf (day : Int) (minute : Nat) : WallTime := startOfDay day + Span.ofMinutes minute

/-- Why no instant of a zone stands for a wall time: the search for one came to the end of the
calendar, or to the end of the longest gap there is. -/
def unresolved (z : Zone) (wall : WallTime) : Fault :=
  if hasDate (wall + Span.ofMinutes Zone.longestGap) then .invalid (.unreachableTime wall z.name)
  else .outsideCalendar

/-- When held alerts go out by the clocks of a zone: at the end of the window today, or 24 hours
after that if it has passed. An end that no clock of the zone shows is moved to the end of the gap.
Today and the answer have to have dates. -/
def nextDeliveryIn (q : QuietHours) (z : Zone) (now : Instant) : Except Fault Instant :=
  match TimeOfDay.parse q.endTime with
  | .error fault => .error (.invalid (.time fault))
  | .ok finish =>
    let wall := wallTimeOf (z.localDay now) finish
    if hasDate (z.wallTime now) then
      match z.resolve? wall with
      | Option.none => .error (unresolved z wall)
      | some finishToday =>
        let next := if finishToday < now then finishToday + Span.day else finishToday
        if next.isDated then .ok next else .error .outsideCalendar
    else .error .outsideCalendar

def nextDelivery [ZoneDatabase] (q : QuietHours) (now : Instant) : Except Fault Instant :=
  q.nextDeliveryIn q.zone now

end QuietHours

end AlertAdmission
