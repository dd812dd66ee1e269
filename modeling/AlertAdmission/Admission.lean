import AlertAdmission.Digest
import AlertAdmission.QuietHours
import AlertAdmission.Storm
import AlertAdmission.Throttle

/-!
Admission: what becomes of a fired alert.

Three gates stand in a row: the storm detector, the limit of the rule, and quiet hours. The first
two drop an alert, the third holds it for the digest of its device; what passes all three is
delivered. A gate is reached only through those before it, so a dropped alert leaves no trace in
the gates behind.
-/

namespace AlertAdmission

/-- What becomes of an alert. -/
inductive Admission where
  | deliver
  | droppedByStorm
  | droppedByThrottle (reason : String)
  | deferred (reason : String)
  deriving DecidableEq, Repr

structure Gates where
  storm : Storm
  throttle : Throttle
  held : HeldAlerts

namespace Gates

def fresh : Gates := ⟨Storm.calm, Throttle.empty, Table.empty⟩

/-- The last gate: quiet hours, if there are any. -/
def passQuietHours [ZoneDatabase] (g : Gates) (alert : Alert) (quiet : Option QuietHours)
    (now : Instant) : Gates × Admission :=
  match quiet with
  | none => (g, .deliver)
  | some q =>
    let verdict := q.check alert.severity now
    if verdict.suppresses then
      ({ g with held := g.held.add (alert.hold now) }, .deferred (verdict.reason?.getD ""))
    else (g, .deliver)

def passThrottle [ZoneDatabase] (g : Gates) (alert : Alert) (limit : Option RateLimit)
    (quiet : Option QuietHours) (now : Instant) : Gates × Admission :=
  match limit with
  | none => g.passQuietHours alert quiet now
  | some limit =>
    let (throttle, decision) := g.throttle.allow alert.rule alert.fields limit now
    let g := { g with throttle := throttle }
    match decision.reason? with
    | none => g.passQuietHours alert quiet now
    | some reason => (g, .droppedByThrottle reason)

/-- The gates after an alert, and what becomes of it. A rule without a limit skips the second gate,
and one without quiet hours the third. -/
def receive [ZoneDatabase] (g : Gates) (storm : StormConfig) (alert : Alert)
    (limit : Option RateLimit) (quiet : Option QuietHours) (now : Instant) : Gates × Admission :=
  let (detector, passes) := g.storm.record storm now
  let g := { g with storm := detector }
  if passes then g.passThrottle alert limit quiet now else (g, .droppedByStorm)

/-- The instants that the gates work out for an alert, by what becomes of it. A gate that it does
not reach works out none. -/
def reach (g : Gates) (storm : StormConfig) (limit : Option RateLimit) (now : Instant) :
    Admission → List Instant
  | .droppedByStorm => g.storm.reach storm now
  | _ => g.storm.reach storm now ++ (limit.map fun limit => limit.reach now).getD []

def drain (g : Gates) : Gates × List Digest :=
  ({ g with held := Table.empty }, Digest.ofHeld g.held)

end Gates

end AlertAdmission
