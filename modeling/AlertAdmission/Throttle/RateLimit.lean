import AlertAdmission.Fault
import AlertAdmission.Json
import AlertAdmission.Time.Instant

/-!
The limit of a rule: so many alerts in any trailing period, told apart by a field of the payload.
-/

namespace AlertAdmission

/-- At most so many alerts of a group in any trailing period. A zero on either side turns the limit
off. -/
structure RateLimit where
  maxAlerts : UInt32
  periodSeconds : UInt64
  groupBy : Option String
  deriving DecidableEq, Repr

namespace RateLimit

def none : RateLimit := ⟨0, 0, Option.none⟩

def isEnabled (limit : RateLimit) : Bool := 0 < limit.maxAlerts && 0 < limit.periodSeconds

def capacity (limit : RateLimit) : Nat := limit.maxAlerts.toNat

def window (limit : RateLimit) : Span := windowLength limit.periodSeconds.toNat

/-- The instants that are worked out to decide on an alert or to show what the window holds: the
start of the window, unless the limit is turned off. -/
def reach (limit : RateLimit) (now : Instant) : List Instant :=
  if limit.isEnabled then [now - limit.window] else []

def requiredNumber (raw : Json) (key : String) : Except Fault Binary64 :=
  match (raw.member? key).bind Json.double? with
  | some x => .ok x
  | Option.none => .error (.invalid (.missingNumber key))

/-- The limit of a loose configuration. Numbers may be whole or not; fractions are dropped, and
what is out of range is moved to its nearer end. -/
def parse (raw : Json) : Except Fault RateLimit := do
  let .obj _ := raw | .error (.invalid (.notAnObject "throttle"))
  let maxAlerts ← requiredNumber raw "maxAlerts"
  let periodSeconds ← requiredNumber raw "periodSeconds"
  .ok {
    maxAlerts := UInt32.ofNat (maxAlerts.clampToNat (UInt32.size - 1))
    periodSeconds := UInt64.ofNat (periodSeconds.clampToNat (UInt64.size - 1))
    groupBy := (raw.member? "groupByField").bind Json.nonemptyText? }

end RateLimit

end AlertAdmission
