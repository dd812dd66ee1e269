import AlertAdmission.Table
import AlertAdmission.Throttle.GroupWindow
import AlertAdmission.Throttle.Grouping
import AlertAdmission.Throttle.RateLimit

/-!
Throttling: for each rule and group, at most so many alerts in any trailing window.

A rule has state from its first alert under a limit that is turned on. Once in a window the groups
with nothing in the window and nothing to report are dropped. The time of each call is given with
it, and nothing is assumed about its order.
-/

namespace AlertAdmission

/-- The groups of a rule, its last limit, and when idle groups were last dropped. -/
structure RuleState where
  limit : RateLimit
  groups : Table GroupWindow
  lastSweep : Instant

/-- The state of every rule that has some. -/
abbrev Throttle := Table RuleState

inductive ThrottleDecision where
  | allowed
  /-- The window holds this many alerts already. -/
  | denied (maxAlerts : UInt32) (periodSeconds : UInt64) (current : Nat)
  deriving DecidableEq, Repr

namespace ThrottleDecision

def isAllowed : ThrottleDecision → Bool
  | .allowed => true
  | .denied _ _ _ => false

def reason? : ThrottleDecision → Option String
  | .allowed => none
  | .denied maxAlerts periodSeconds current =>
    some ("throttled (limit: " ++ Nat.repr maxAlerts.toNat ++ " per " ++
      Nat.repr periodSeconds.toNat ++ " seconds, current: " ++ Nat.repr current ++ ")")

end ThrottleDecision

namespace RuleState

def fresh (limit : RateLimit) (now : Instant) : RuleState := ⟨limit, Table.empty, now⟩

/-- The rule without idle groups, looked for at most once in a window. -/
def sweep (s : RuleState) (now : Instant) (window : Span) : RuleState :=
  if now - s.lastSweep < window then s
  else { s with groups := s.groups.filter fun _ w => !w.isIdle (now - window), lastSweep := now }

/-- The state of a group; a fresh one where the rule has none. -/
def group (s : RuleState) (key : String) (capacity : Nat) (now : Instant) : GroupWindow :=
  (s.groups.get? key).getD (GroupWindow.fresh capacity now)

/-- The rule after one more alert of a group under a limit. -/
def offer (s : RuleState) (key : String) (limit : RateLimit) (now : Instant) :
    RuleState × ThrottleDecision :=
  let swept := { s with limit := limit }.sweep now limit.window
  let (w, full) := (swept.group key limit.capacity now).offer limit.capacity limit.window now
  let decision := match full with
    | none => .allowed
    | some current => .denied limit.maxAlerts limit.periodSeconds current
  ({ swept with groups := swept.groups.insert key w }, decision)

def forgetSuppressed (s : RuleState) : RuleState :=
  { s with groups := s.groups.map fun _ w => w.forgetSuppressed }

end RuleState

namespace Throttle

def empty : Throttle := Table.empty

/-- The state of a rule; a fresh one where it has none. -/
def rule (t : Throttle) (name : String) (limit : RateLimit) (now : Instant) : RuleState :=
  (t.get? name).getD (RuleState.fresh limit now)

/-- Decides on an alert of a rule. Under a limit that is turned off every alert passes and nothing
is kept. -/
def allow (t : Throttle) (name : String) (fields : Json) (limit : RateLimit) (now : Instant) :
    Throttle × ThrottleDecision :=
  if limit.isEnabled then
    let (s, decision) :=
      (t.rule name limit now).offer (Grouping.groupKey limit.groupBy fields) limit now
    (t.insert name s, decision)
  else (t, .allowed)

def reset (t : Throttle) (name : String) : Throttle := t.erase name

def cleanup (t : Throttle) (active : List String) : Throttle :=
  t.filter fun name _ => active.contains name

def resetCounts (t : Throttle) (name : String) : Throttle :=
  t.modify name RuleState.forgetSuppressed

end Throttle

end AlertAdmission
