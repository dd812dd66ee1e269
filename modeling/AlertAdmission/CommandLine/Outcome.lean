import AlertAdmission.CommandLine.Invocation
import AlertAdmission.Json.Printer
import AlertAdmission.Wire.Models
import AlertAdmission.Zone.Catalogue

/-!
What the program shows for each command: plain text, or a JSON document. As it is run, it knows the
time zones of the catalogue.
-/

namespace AlertAdmission.CommandLine

inductive Outcome where
  | text (shown : String)
  | document (value : Json)
  | failed (message : String)
  | settingsUnreadable (fault : Fault)
  | misused
  | outsideCalendar

def Outcome.shown : Outcome → String
  | .text shown => shown
  | .document value => value.pretty ++ "\n"
  | .failed _ => ""
  | .settingsUnreadable _ => ""
  | .misused => ""
  | .outsideCalendar => ""

def Outcome.complaint : Outcome → String
  | .text _ => ""
  | .document _ => ""
  | .failed message => "Error: " ++ message
  | .settingsUnreadable fault => "Error loading configuration: " ++ fault.message
  | .misused => "error: the arguments are not those of a command"
  | .outsideCalendar => "Error: " ++ Fault.outsideCalendar.message

def Outcome.status : Outcome → Nat
  | .text _ => 0
  | .document _ => 0
  | .failed _ => 1
  | .settingsUnreadable _ => 1
  | .misused => 2
  | .outsideCalendar => 101

def lines (ls : List String) : String := String.join (ls.map (· ++ "\n"))

/-! ### Settings -/

def daysText (days : List UInt8) : String :=
  if days.isEmpty then "all"
  else String.intercalate "," (days.map fun d => Nat.repr d.toNat)

def quietHoursLine : Option QuietHours → String
  | none => "  quiet hours: not configured"
  | some q =>
    "  quiet hours: " ++ q.startTime ++ "-" ++ q.endTime ++ " " ++ q.timezone ++
      " (bypass critical: " ++ (if q.bypassCritical then "true" else "false") ++ ", days: " ++
      daysText q.daysOfWeek ++ ")"

def settingsText (s : Settings) (quiet : Option QuietHours) : String :=
  lines
    ["Configuration OK",
      "  storm:       threshold " ++ Nat.repr s.storm.threshold.toNat ++ " per " ++
        Nat.repr s.storm.windowSeconds.toNat ++ "s, cooldown " ++
        Nat.repr s.storm.cooldownSeconds.toNat ++ "s",
      "  queue:       max " ++ Nat.repr s.queue.maxQueueSize.toNat ++ " per channel, tick " ++
        s.queue.tickInterval.write ++ ", delivery timeout " ++ s.queue.deliveryTimeout.write,
      quietHoursLine quiet]

def settingsDocument (s : Settings) (quiet : Option QuietHours) : Json :=
  .obj [("logging", Codec.loggingSettings.encode s.logging),
    ("queue", Codec.queueSettings.encode s.queue),
    ("quiet_hours", Codec.quietHours.optional.encode quiet),
    ("storm", Codec.stormConfig.encode s.storm)]

def validated (s : Settings) (format : OutputFormat) : Outcome :=
  match s.validQuietHours with
  | .error fault => .failed ("invalid quiet_hours section: " ++ fault.message)
  | .ok quiet =>
    match format with
    | .text => .text (settingsText s quiet)
    | .json => .document (settingsDocument s quiet)

/-! ### Quiet hours -/

/-- The quiet hours to check: those of a window, or else those of the settings. -/
def quietHoursOf (s : Settings) (window : Option (String × String))
    (timezone : String) : Except String QuietHours :=
  match window with
  | some (start, finish) =>
    (QuietHours.parse (.obj [("startTime", .str start), ("endTime", .str finish),
      ("timezone", .str timezone)])).mapError Fault.message
  | none =>
    match s.validQuietHours with
    | .error fault => .error fault.message
    | .ok none => .error ("no quiet hours configured; pass --start/--end or set quiet_hours " ++
        "in the config file")
    | .ok (some q) => .ok q

def verdictText (verdict : QuietVerdict) (severity : Severity) (now next : Instant) : String :=
  lines
    ([(if verdict.suppresses then "HOLD " else "DELIVER ") ++ severity.name ++ " at " ++
        Rfc3339.writeWithOffset now] ++
      (verdict.reason?.map fun reason => "  reason:        " ++ reason).toList ++
      ["  next delivery: " ++ Rfc3339.writeWithOffset next])

def verdictDocument (verdict : QuietVerdict) (severity : Severity) (now next : Instant) : Json :=
  .obj [("at", Codec.instant.encode now), ("next_delivery", Codec.instant.encode next),
    ("reason", Json.ofOption .str verdict.reason?), ("severity", Codec.severity.encode severity),
    ("suppress", .bool verdict.suppresses)]

def quietHoursChecked (s : Settings) (now : Instant) (severity : Severity)
    (window : Option (String × String)) (timezone : String) (format : OutputFormat) : Outcome :=
  match quietHoursOf s window timezone with
  | .error message => .failed message
  | .ok q =>
    match q.nextDelivery now with
    | .error .outsideCalendar => .outsideCalendar
    | .error fault => .failed fault.message
    | .ok next =>
      let verdict := q.check severity now
      match format with
      | .text => .text (verdictText verdict severity now next)
      | .json => .document (verdictDocument verdict severity now next)

/-! ### Simulations -/

def stormLines (status : StormStatus) : List String :=
  ["", "Storm: " ++ (if status.inStorm then "ACTIVE" else "clear") ++ " (rate " ++
    Decimal.fixed 1 status.currentRate ++ "/min, threshold " ++
    Decimal.fixed 1 status.thresholdRate ++ "/min, suppressed " ++ Nat.repr status.swallowed ++ ")"]

def groupLine (g : GroupSummary) : String :=
  "  " ++ Text.alignLeft 20 g.group ++ " allowed " ++ Text.alignRight 4 (Nat.repr g.allowed) ++
    "  suppressed " ++ Text.alignRight 4 (Nat.repr g.suppressed)

def throttleLines (s : RuleSummary) : List String :=
  ["", "Throttle " ++ s.rule ++ ": " ++ Nat.repr s.maxAlerts.toNat ++ " per " ++
    Nat.repr s.periodSeconds.toNat ++ "s, allowed " ++ Nat.repr s.totalAllowed ++
    ", suppressed " ++ Nat.repr s.totalSuppressed] ++ s.groups.map groupLine

def reportText (r : SimulationReport) : String :=
  lines
    (["Simulated " ++ Nat.repr r.events ++ " alerts",
        "  delivered:         " ++ Nat.repr r.delivered,
        "  dropped (storm):   " ++ Nat.repr r.droppedByStorm,
        "  dropped (throttle): " ++ Nat.repr r.droppedByThrottle,
        "  deferred:          " ++ Nat.repr r.deferred] ++
      (if r.queueRejected = 0 then []
        else ["  queue rejected:    " ++ Nat.repr r.queueRejected]) ++
      stormLines r.storm ++ (r.throttle.map throttleLines).getD []) ++
    String.join (r.digests.map fun d => "\n" ++ d.message)

def reportDocument (r : SimulationReport) : Json :=
  .obj [("events", .int r.events), ("delivered", .int r.delivered),
    ("dropped_storm", .int r.droppedByStorm), ("dropped_throttle", .int r.droppedByThrottle),
    ("deferred", .int r.deferred), ("queue_rejected", .int r.queueRejected),
    ("storm", Codec.stormStatus.encode r.storm),
    ("throttle", Codec.ruleSummary.optional.encode r.throttle),
    ("summaries_published", .int r.summariesPublished),
    ("digests", .arr (r.digests.map Digest.toJson))]

/-- The longest distance of simulated alerts, in milliseconds. -/
def longestSpacing : Nat := 0x7fffffffffffffff

def simulated (s : Settings) (simulation : Simulation) (spacingMillis : Nat)
    (format : OutputFormat) : Outcome :=
  match s.validQuietHours with
  | .error fault => .failed fault.message
  | .ok quiet =>
    if longestSpacing < spacingMillis then
      .failed ("spacing out of range: Source duration value is out of range for the target type")
    else
      match simulation.report? s quiet, format with
      | none, _ => .outsideCalendar
      | some report, .text => .text (reportText report)
      | some report, .json => .document (reportDocument report)

/-! ### Calls -/

def Invocation.run (call : Invocation) (s : Settings) (now : Instant) : Outcome :=
  match call.command with
  | .validate => validated s call.format
  | .checkQuietHours asked severity window timezone =>
    quietHoursChecked s (asked.getD now) severity window timezone call.format
  | .simulate events rule spacingMillis limit devices severity start =>
    simulated s ⟨events, rule, Span.ofMillis spacingMillis, limit, devices, severity,
      start.getD now⟩ spacingMillis call.format

def Invocation.outcome (call : Invocation) (settings : Except Fault Settings)
    (now : Instant) : Outcome :=
  match settings with
  | .error fault => .settingsUnreadable fault
  | .ok s => call.run s now

end AlertAdmission.CommandLine
