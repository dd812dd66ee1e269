import AlertAdmission.HeldAlerts
import AlertAdmission.Time.Rfc3339
import AlertAdmission.Total

/-!
The digest of a device: a text that counts its held alerts by severity and kind.

Severities come with the most urgent first and kinds in order of their names, each with the number
of alerts that have it. The last line names the times of day of the oldest and the newest alert.
-/

namespace AlertAdmission

/-- The digest of a device and the number of alerts it tells of. -/
structure Digest where
  device : String
  alertCount : Nat
  message : String
  deriving DecidableEq, Repr

namespace Digest

def countsByKind (alerts : List HeldAlert) : Table Nat :=
  alerts.foldl (fun counts a => counts.insert a.kind ((counts.get? a.kind).getD 0 + 1)) Table.empty

def kindLine (entry : String × Nat) : String :=
  "  • " ++ entry.1 ++ ": " ++ Nat.repr entry.2 ++ "\n"

/-- The lines of a severity; none where no alert has it. -/
def section? (alerts : List HeldAlert) (severity : Severity) : Option String :=
  let counts := countsByKind (alerts.filter fun a => a.reportedSeverity = severity)
  if counts.toList = [] then none
  else some (severity.name ++ " (" ++ Nat.repr (total counts.values) ++ "):\n" ++
    String.join (counts.toList.map kindLine) ++ "\n")

def oldest (first : Instant) (rest : List HeldAlert) : Instant :=
  rest.foldl (fun t a => if a.heldAt < t then a.heldAt else t) first

def newest (first : Instant) (rest : List HeldAlert) : Instant :=
  rest.foldl (fun t a => if t < a.heldAt then a.heldAt else t) first

/-- The text of a digest; empty where there are no alerts. -/
def text (device : String) (alerts : List HeldAlert) : String :=
  match alerts with
  | [] => ""
  | first :: rest =>
    "Quiet Hours Digest for " ++ device ++ "\n" ++
      "Total Alerts: " ++ Nat.repr alerts.length ++ "\n\n" ++
      String.join (Severity.all.filterMap (section? alerts)) ++
      "Period: " ++ Rfc3339.clockOf (oldest first.heldAt rest) ++ " to " ++
      Rfc3339.clockOf (newest first.heldAt rest) ++ "\n"

/-- The digests of all devices with held alerts, in order of the devices. -/
def ofHeld (held : HeldAlerts) : List Digest :=
  (held.toList.filter fun entry => !entry.2.isEmpty).map fun (device, alerts) =>
    ⟨device, alerts.length, text device alerts⟩

end Digest

end AlertAdmission
