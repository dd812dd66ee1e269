import AlertAdmission.Json
import AlertAdmission.QuietHours

/-!
Quiet hours from a loose configuration, a JSON object in which most members may be missing.

Start and end of the window are required. Days may be written as whole numbers or doubles, of which
the fraction is dropped. What is accepted has a known zone and a readable window.
-/

namespace AlertAdmission.QuietHours

/-- A text that has to be there and not be empty. -/
def requiredText (raw : Json) (key : String) : Except Fault String :=
  match (raw.member? key).bind Json.nonemptyText? with
  | some text => .ok text
  | Option.none => .error (.invalid (.missingText key))

/-- A day of the week, given by its place in the list of days. -/
def dayAt (index : Nat) (value : Json) : Except Fault UInt8 :=
  match value.double? with
  | Option.none => .error (.invalid (.dayNotNumber index))
  | some x =>
    match x.toInt? with
    | some (.ofNat day) =>
      if day ≤ 6 then .ok (UInt8.ofNat day)
      else .error (.invalid (.dayOutOfRange index x.truncate))
    | _ => .error (.invalid (.dayOutOfRange index x.truncate))

def daysFrom (index : Nat) : List Json → Except Fault (List UInt8)
  | [] => .ok []
  | value :: rest => do
    let day ← dayAt index value
    let days ← daysFrom (index + 1) rest
    .ok (day :: days)

/-- The days on which the window applies; none where they are not given. -/
def looseDays : Option Json → Except Fault (List UInt8)
  | Option.none => .ok []
  | some .null => .ok []
  | some (.arr days) => daysFrom 0 days
  | some _ => .error (.invalid .daysNotListed)

def validated [ZoneDatabase] (q : QuietHours) : Except Fault QuietHours :=
  if (ZoneDatabase.find? q.timezone).isNone then .error (.unknownZone q.timezone)
  else match TimeOfDay.parse q.startTime, TimeOfDay.parse q.endTime with
    | .error fault, _ => .error (.invalid (.startTime fault))
    | .ok _, .error fault => .error (.invalid (.endTime fault))
    | .ok _, .ok _ => .ok q

def parse [ZoneDatabase] (raw : Json) : Except Fault QuietHours := do
  let .obj _ := raw | .error (.invalid (.notAnObject "quiet hours"))
  let startTime ← requiredText raw "startTime"
  let endTime ← requiredText raw "endTime"
  let timezone := ((raw.member? "timezone").bind Json.nonemptyText?).getD "UTC"
  let bypassCritical := ((raw.member? "bypassCritical").bind Json.bool?).getD true
  let daysOfWeek ← looseDays (raw.member? "daysOfWeek")
  validated ⟨startTime, endTime, timezone, bypassCritical, daysOfWeek⟩

end AlertAdmission.QuietHours
