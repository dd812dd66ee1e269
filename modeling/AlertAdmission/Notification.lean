import AlertAdmission.Alert
import AlertAdmission.Time.Rfc3339

/-!
Notifications that wait in the queue of their channel, each for a day at the most.
-/

namespace AlertAdmission

structure Notification where
  channel : String
  alert : String
  title : String
  message : String
  severity : Severity
  kind : String
  data : Json
  queuedAt : Instant
  expiresAt : Instant

namespace Notification

def lifetimeHours : Nat := 24

def lifetime : Span := Span.ofHours lifetimeHours

/-- A notification that has not been queued; its times are the earliest there are. -/
def unqueued (channel alert title message : String) (severity : Severity) (kind : String)
    (data : Json) : Notification where
  channel := channel
  alert := alert
  title := title
  message := message
  severity := severity
  kind := kind
  data := data
  queuedAt := Instant.earliest
  expiresAt := Instant.earliest

def stamp (n : Notification) (now : Instant) : Notification :=
  { n with queuedAt := now, expiresAt := now + lifetime }

def isLive (n : Notification) (now : Instant) : Bool := now < n.expiresAt

end Notification

end AlertAdmission
