import AlertAdmission.Admission
import AlertAdmission.Notification
import AlertAdmission.Settings
import AlertAdmission.Throttle.Report
import AlertAdmission.Wire.Codec

/-!
The forms in JSON of alerts, notifications, limits, statuses, summaries and settings.
-/

namespace AlertAdmission.Codec

def alert : Codec Alert :=
  record
    (fun a => [("rule_id", .str a.rule), ("device_id", .str a.device), ("event_type", .str a.kind),
      ("severity", severity.encode a.severity), ("fields", a.fields)])
    (do
      let rule ← required "rule_id" text
      let device ← required "device_id" text
      let kind ← required "event_type" text
      let severity ← required "severity" severity
      let fields ← defaulted "fields" any .null
      return ⟨rule, device, kind, severity, fields⟩)

def heldAlert : Codec HeldAlert :=
  record
    (fun a => [("rule_id", .str a.rule), ("event_type", .str a.kind), ("event_data", a.payload),
      ("severity", severity.optional.encode a.severity), ("timestamp", instant.encode a.heldAt),
      ("device_id", .str a.device)])
    (do
      let rule ← required "rule_id" text
      let kind ← required "event_type" text
      let payload ← defaulted "event_data" any .null
      let severity ← omissible "severity" severity
      let heldAt ← required "timestamp" instant
      let device ← required "device_id" text
      return ⟨rule, kind, payload, severity, heldAt, device⟩)

/-- A notification; data that are null are not written. -/
def notification : Codec Notification :=
  record
    (fun n => [("channelId", .str n.channel), ("alertId", .str n.alert), ("title", .str n.title),
      ("message", .str n.message), ("severity", severity.encode n.severity),
      ("eventType", .str n.kind)] ++ (if n.data.isNull then [] else [("data", n.data)]) ++
      [("queuedAt", instant.encode n.queuedAt), ("ttlExpiresAt", instant.encode n.expiresAt)])
    (do
      let channel ← required "channelId" text
      let alert ← required "alertId" text
      let title ← required "title" text
      let message ← required "message" text
      let severity ← required "severity" severity
      let kind ← required "eventType" text
      let data ← defaulted "data" any .null
      let queuedAt ← required "queuedAt" instant
      let expiresAt ← required "ttlExpiresAt" instant
      return ⟨channel, alert, title, message, severity, kind, data, queuedAt, expiresAt⟩)

def quietHours : Codec QuietHours :=
  record
    (fun q => [("startTime", .str q.startTime), ("endTime", .str q.endTime),
      ("timezone", .str q.timezone), ("bypassCritical", .bool q.bypassCritical),
      ("daysOfWeek", word8.list.encode q.daysOfWeek)])
    (do
      let startTime ← required "startTime" text
      let endTime ← required "endTime" text
      let timezone ← required "timezone" text
      let bypassCritical ← required "bypassCritical" flag
      let daysOfWeek ← defaulted "daysOfWeek" word8.list []
      return ⟨startTime, endTime, timezone, bypassCritical, daysOfWeek⟩)

/-- A limit; an absent grouping is not written. -/
def rateLimit : Codec RateLimit :=
  record
    (fun l => [("maxAlerts", word32.encode l.maxAlerts),
      ("periodSeconds", word64.encode l.periodSeconds)] ++ memberOf "groupByField" .str l.groupBy)
    (do
      let maxAlerts ← required "maxAlerts" word32
      let periodSeconds ← required "periodSeconds" word64
      let groupBy ← defaulted "groupByField" text.optional none
      return ⟨maxAlerts, periodSeconds, groupBy⟩)

def stormConfig : Codec StormConfig :=
  record
    (fun c => [("threshold", word64.encode c.threshold),
      ("window_seconds", word64.encode c.windowSeconds),
      ("cooldown_seconds", word64.encode c.cooldownSeconds)])
    (do
      let threshold ← defaulted "threshold" word64 StormConfig.standard.threshold
      let windowSeconds ← defaulted "window_seconds" word64 StormConfig.standard.windowSeconds
      let cooldownSeconds ← defaulted "cooldown_seconds" word64 StormConfig.standard.cooldownSeconds
      return ⟨threshold, windowSeconds, cooldownSeconds⟩)

def stormStatus : Codec StormStatus :=
  record
    (fun s => [("in_storm", .bool s.inStorm),
      ("storm_start_time", instant.optional.encode s.startedAt),
      ("suppressed_count", count.encode s.swallowed),
      ("current_rate", double.encode s.currentRate),
      ("threshold_rate", double.encode s.thresholdRate),
      ("cooldown_remaining", duration.encode s.cooldownRemaining)])
    (do
      let inStorm ← required "in_storm" flag
      let startedAt ← omissible "storm_start_time" instant
      let swallowed ← required "suppressed_count" count
      let currentRate ← required "current_rate" double
      let thresholdRate ← required "threshold_rate" double
      let cooldownRemaining ← required "cooldown_remaining" duration
      return ⟨inStorm, startedAt, swallowed, currentRate, thresholdRate, cooldownRemaining⟩)

def groupSummary : Codec GroupSummary :=
  record
    (fun g => [("group", .str g.group), ("allowed", count.encode g.allowed),
      ("suppressed", count.encode g.suppressed), ("oldest_alert", instant.optional.encode g.oldest),
      ("newest_alert", instant.optional.encode g.newest),
      ("window_start", instant.encode g.windowStart)])
    (do
      let group ← required "group" text
      let allowed ← required "allowed" count
      let suppressed ← required "suppressed" count
      let oldest ← omissible "oldest_alert" instant
      let newest ← omissible "newest_alert" instant
      let windowStart ← required "window_start" instant
      return ⟨group, allowed, suppressed, oldest, newest, windowStart⟩)

def ruleSummary : Codec RuleSummary :=
  record
    (fun s => [("rule_id", .str s.rule), ("max_alerts", word32.encode s.maxAlerts),
      ("period_seconds", word64.encode s.periodSeconds),
      ("total_allowed", count.encode s.totalAllowed),
      ("total_suppressed", count.encode s.totalSuppressed),
      ("groups", groupSummary.list.encode s.groups), ("window_type", .str s.windowKind)])
    (do
      let rule ← required "rule_id" text
      let maxAlerts ← required "max_alerts" word32
      let periodSeconds ← required "period_seconds" word64
      let totalAllowed ← required "total_allowed" count
      let totalSuppressed ← required "total_suppressed" count
      let groups ← required "groups" groupSummary.list
      let windowKind ← required "window_type" text
      return ⟨rule, maxAlerts, periodSeconds, totalAllowed, totalSuppressed, groups, windowKind⟩)

def summaryEvent : Codec SummaryEvent :=
  record
    (fun e => [("type", .str e.kind), ("rule_id", .str e.rule),
      ("total_allowed", count.encode e.totalAllowed),
      ("total_suppressed", count.encode e.totalSuppressed),
      ("period_seconds", word64.encode e.periodSeconds),
      ("groups", groupSummary.list.encode e.groups)])
    (do
      let kind ← required "type" text
      let rule ← required "rule_id" text
      let totalAllowed ← required "total_allowed" count
      let totalSuppressed ← required "total_suppressed" count
      let periodSeconds ← required "period_seconds" word64
      let groups ← required "groups" groupSummary.list
      return ⟨kind, rule, totalAllowed, totalSuppressed, periodSeconds, groups⟩)

def groupStatus : Codec GroupStatus :=
  record
    (fun g => [("group_key", .str g.group), ("is_throttled", .bool g.isThrottled),
      ("suppressed_count", count.encode g.suppressed),
      ("window_start", instant.encode g.windowStart), ("window_end", instant.encode g.windowEnd)])
    (do
      let group ← required "group_key" text
      let isThrottled ← required "is_throttled" flag
      let suppressed ← required "suppressed_count" count
      let windowStart ← required "window_start" instant
      let windowEnd ← required "window_end" instant
      return ⟨group, isThrottled, suppressed, windowStart, windowEnd⟩)

def ruleStatus : Codec RuleStatus :=
  record
    (fun s => [("rule_id", .str s.rule), ("is_throttled", .bool s.isThrottled),
      ("suppressed_count", count.encode s.suppressed),
      ("window_start", instant.encode s.windowStart), ("window_end", instant.encode s.windowEnd),
      ("groups", groupStatus.list.encode s.groups)])
    (do
      let rule ← required "rule_id" text
      let isThrottled ← required "is_throttled" flag
      let suppressed ← required "suppressed_count" count
      let windowStart ← required "window_start" instant
      let windowEnd ← required "window_end" instant
      let groups ← required "groups" groupStatus.list
      return ⟨rule, isThrottled, suppressed, windowStart, windowEnd, groups⟩)

def queueSettings : Codec QueueSettings :=
  record
    (fun s => [("max_queue_size", word64.encode s.maxQueueSize),
      ("tick_interval", duration.encode s.tickInterval),
      ("delivery_timeout", duration.encode s.deliveryTimeout)])
    (do
      let maxQueueSize ← defaulted "max_queue_size" word64 QueueSettings.standard.maxQueueSize
      let tickInterval ← defaulted "tick_interval" duration QueueSettings.standard.tickInterval
      let deliveryTimeout ←
        defaulted "delivery_timeout" duration QueueSettings.standard.deliveryTimeout
      return ⟨maxQueueSize, tickInterval, deliveryTimeout⟩)

def quietHoursSettings : Codec QuietHoursSettings :=
  record
    (fun s => [("start_time", text.optional.encode s.startTime),
      ("end_time", text.optional.encode s.endTime), ("timezone", text.optional.encode s.timezone),
      ("bypass_critical", flag.optional.encode s.bypassCritical),
      ("days_of_week", double.list.optional.encode s.daysOfWeek)])
    (do
      let startTime ← defaulted "start_time" text.optional none
      let endTime ← defaulted "end_time" text.optional none
      let timezone ← defaulted "timezone" text.optional none
      let bypassCritical ← defaulted "bypass_critical" flag.optional none
      let daysOfWeek ← defaulted "days_of_week" double.list.optional none
      return ⟨startTime, endTime, timezone, bypassCritical, daysOfWeek⟩)

def loggingSettings : Codec LoggingSettings :=
  record
    (fun s => [("level", .str s.level), ("format", .str s.format)])
    (do
      let level ← defaulted "level" text LoggingSettings.standard.level
      let format ← defaulted "format" text LoggingSettings.standard.format
      return ⟨level, format⟩)

def settings : Codec Settings :=
  record
    (fun s => [("storm", stormConfig.encode s.storm), ("queue", queueSettings.encode s.queue),
      ("quiet_hours", quietHoursSettings.optional.encode s.quietHours),
      ("logging", loggingSettings.encode s.logging)])
    (do
      let storm ← defaulted "storm" stormConfig StormConfig.standard
      let queue ← defaulted "queue" queueSettings QueueSettings.standard
      let quietHours ← defaulted "quiet_hours" quietHoursSettings.optional none
      let logging ← defaulted "logging" loggingSettings LoggingSettings.standard
      return ⟨storm, queue, quietHours, logging⟩)

end AlertAdmission.Codec

namespace AlertAdmission

def Digest.toJson (d : Digest) : Json :=
  .obj [("device_id", .str d.device), ("alert_count", .int d.alertCount),
    ("message", .str d.message)]

def Admission.toJson : Admission → Json
  | .deliver => .obj [("decision", .str "deliver")]
  | .droppedByStorm =>
    .obj [("decision", .str "dropped"), ("stage", .str "storm"),
      ("reason", .str "alert storm in progress")]
  | .droppedByThrottle reason =>
    .obj [("decision", .str "dropped"), ("stage", .str "throttle"), ("reason", .str reason)]
  | .deferred reason => .obj [("decision", .str "deferred"), ("reason", .str reason)]

end AlertAdmission
