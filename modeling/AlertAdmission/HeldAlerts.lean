import AlertAdmission.Alert
import AlertAdmission.Table

/-!
Alerts held during quiet hours, in order of arrival for each device.
-/

namespace AlertAdmission

/-- The held alerts of each device that has some. -/
abbrev HeldAlerts := Table (List HeldAlert)

namespace HeldAlerts

/-- The held alerts of a device, the oldest first. -/
def ofDevice (held : HeldAlerts) (device : String) : List HeldAlert := (held.get? device).getD []

def add (held : HeldAlerts) (alert : HeldAlert) : HeldAlerts :=
  held.insert alert.device (held.ofDevice alert.device ++ [alert])

def count (held : HeldAlerts) : Nat := held.values.flatten.length

def isEmpty (held : HeldAlerts) : Bool := held.count == 0

/-- A device has one more held alert after an addition, and all others have what they had. -/
theorem ofDevice_add (held : HeldAlerts) (alert : HeldAlert) (device : String) :
    (held.add alert).ofDevice device =
      if device = alert.device then held.ofDevice device ++ [alert] else held.ofDevice device := by
  unfold add ofDevice
  rw [Table.get?_insert]
  split <;> simp_all

end HeldAlerts

end AlertAdmission
