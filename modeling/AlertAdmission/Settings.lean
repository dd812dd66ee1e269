import AlertAdmission.QuietHours.Loose
import AlertAdmission.Storm

/-!
The settings of the program and their defaults.

Quiet hours are kept as they were written and validated when they are asked for, by the same rules
as a loose configuration.
-/

namespace AlertAdmission

/-- How channel queues work: their capacity, the time between passes, and the deadline of one
delivery. -/
structure QueueSettings where
  maxQueueSize : UInt64
  tickInterval : Duration
  deliveryTimeout : Duration
  deriving DecidableEq, Repr

/-- Quiet hours as they were written; everything may be missing. -/
structure QuietHoursSettings where
  startTime : Option String
  endTime : Option String
  timezone : Option String
  bypassCritical : Option Bool
  daysOfWeek : Option (List Binary64)
  deriving DecidableEq, Repr

structure LoggingSettings where
  level : String
  format : String
  deriving DecidableEq, Repr

structure Settings where
  storm : StormConfig
  queue : QueueSettings
  quietHours : Option QuietHoursSettings
  logging : LoggingSettings
  deriving DecidableEq, Repr

/-- A hundred notifications for a channel, a pass every minute, half a minute for a delivery. -/
def QueueSettings.standard : QueueSettings := ⟨100, Duration.ofSeconds 60, Duration.ofSeconds 30⟩

def QuietHoursSettings.empty : QuietHoursSettings := ⟨none, none, none, none, none⟩

def LoggingSettings.standard : LoggingSettings := ⟨"info", "pretty"⟩

def Settings.standard : Settings :=
  ⟨StormConfig.standard, QueueSettings.standard, none, LoggingSettings.standard⟩

/-- A member of an object that is left out where its value is absent. -/
def memberOf {α : Type} (key : String) (encode : α → Json) (value : Option α) :
    List (String × Json) :=
  (value.map fun a => (key, encode a)).toList

def QuietHoursSettings.toLoose (s : QuietHoursSettings) : Json :=
  .obj (memberOf "startTime" .str s.startTime ++ memberOf "endTime" .str s.endTime ++
    memberOf "timezone" .str s.timezone ++ memberOf "bypassCritical" .bool s.bypassCritical ++
    memberOf "daysOfWeek" (fun days => .arr (days.map Json.ofDouble)) s.daysOfWeek)

/-- The validated quiet hours, where some were written. -/
def Settings.validQuietHours [ZoneDatabase] (s : Settings) : Except Fault (Option QuietHours) :=
  match s.quietHours with
  | none => .ok none
  | some written => (QuietHours.parse written.toLoose).map some

end AlertAdmission
