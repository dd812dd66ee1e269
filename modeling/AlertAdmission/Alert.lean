import AlertAdmission.Json
import AlertAdmission.Severity
import AlertAdmission.Time.Instant

/-!
Alerts: as they arrive, and as they are held for a later digest.
-/

namespace AlertAdmission

/-- A fired alert that asks to be delivered. -/
structure Alert where
  rule : String
  device : String
  kind : String
  severity : Severity
  /-- The payload, by which throttling may tell groups apart. -/
  fields : Json

/-- An alert held for the digest of its device. -/
structure HeldAlert where
  rule : String
  kind : String
  payload : Json
  severity : Option Severity
  heldAt : Instant
  device : String

def Alert.hold (alert : Alert) (now : Instant) : HeldAlert where
  rule := alert.rule
  kind := alert.kind
  payload := alert.fields
  severity := some alert.severity
  heldAt := now
  device := alert.device

/-- The severity under which a held alert is reported; one that states none has the standard one. -/
def HeldAlert.reportedSeverity (alert : HeldAlert) : Severity :=
  alert.severity.getD Severity.standard

end AlertAdmission
