import AlertAdmission.Decimal.Layout
import AlertAdmission.Severity
import AlertAdmission.Time.Duration
import AlertAdmission.Time.Rfc3339
import AlertAdmission.Time.TimeOfDay

/-!
What can go wrong, as causes. The words for a cause are in one place, `Fault.message`.
-/

namespace AlertAdmission

inductive Invalidity where
  | notAnObject (kind : String)
  | missingText (key : String)
  | missingNumber (key : String)
  | daysNotListed
  | dayNotNumber (index : Nat)
  | dayOutOfRange (index : Nat) (day : Binary64)
  | time (fault : TimeOfDay.Fault)
  | startTime (fault : TimeOfDay.Fault)
  | endTime (fault : TimeOfDay.Fault)
  | unknownSeverity (name : String)
  /-- A wall time lies in a gap of the zone that is too long. -/
  | unreachableTime (wall : WallTime) (zone : String)
  | stated (text : String)
  deriving DecidableEq, Repr

inductive Fault where
  | configuration (text : String)
  | invalid (cause : Invalidity)
  | unknownZone (name : String)
  | queueFull (channel : String) (capacity : Nat)
  | noTarget
  | delivery (text : String)
  | deliveryTimeout (deadline : Duration)
  | publish (text : String)
  | noRuntime (text : String)
  /-- A time is needed that has no date. -/
  | outsideCalendar
  deriving DecidableEq, Repr

def Invalidity.message : Invalidity → String
  | .notAnObject kind => kind ++ " config must be an object"
  | .missingText key => key ++ " is required"
  | .missingNumber key => key ++ " is required and must be a number"
  | .daysNotListed => "daysOfWeek must be an array of integers"
  | .dayNotNumber index => "daysOfWeek[" ++ Nat.repr index ++ "] must be an integer (0-6)"
  | .dayOutOfRange index day =>
    "daysOfWeek[" ++ Nat.repr index ++ "] must be between 0 (Sunday) and 6 (Saturday), got " ++
      Decimal.plain day
  | .time fault => fault.message
  | .startTime fault => "invalid startTime: " ++ fault.message
  | .endTime fault => "invalid endTime: " ++ fault.message
  | .unknownSeverity name => "unknown severity '" ++ name ++ "'"
  | .unreachableTime wall zone =>
    "no valid local time near " ++ Rfc3339.dateText (Date.ofDays (dayOf wall)) ++ " " ++
      Rfc3339.clockText wall false ++ " in " ++ zone
  | .stated text => text

def Fault.message : Fault → String
  | .configuration text => "Configuration error: " ++ text
  | .invalid cause => "Validation error: " ++ cause.message
  | .unknownZone name => "invalid timezone '" ++ name ++ "'"
  | .queueFull channel capacity =>
    "queue full for channel " ++ channel ++ " (max: " ++ Nat.repr capacity ++ ")"
  | .noTarget => "no delivery callback configured"
  | .delivery text => "Delivery error: " ++ text
  | .deliveryTimeout deadline => "delivery timed out after " ++ deadline.brief
  | .publish text => "Publish error: " ++ text
  | .noRuntime text => "no Tokio runtime available: " ++ text
  | .outsideCalendar => "time outside of the calendar"

/-- The severity a text names, in any case and with blanks around it. -/
def Severity.parse (text : String) : Except Fault Severity :=
  match ofName? (normalized text) with
  | some s => .ok s
  | none => .error (.invalid (.unknownSeverity (normalized text)))

end AlertAdmission
