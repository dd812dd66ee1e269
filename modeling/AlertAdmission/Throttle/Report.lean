import AlertAdmission.Throttle
import AlertAdmission.Total

/-!
What the state of throttled rules shows: summaries, statuses, and rounds of publishing.

A round offers a publisher one event for each rule with suppressed alerts and deducts from each
group what a published event has told. The publisher may itself ask for decisions while it has an
event in its hands; what is suppressed then stays counted for the next round.
-/

namespace AlertAdmission

/-- What a summary tells of a group: its allowed alerts in the window, the first and the last of
them, and its suppressed ones. -/
structure GroupSummary where
  group : String
  allowed : Nat
  suppressed : Nat
  oldest : Option Instant
  newest : Option Instant
  windowStart : Instant
  deriving DecidableEq, Repr

structure RuleSummary where
  rule : String
  maxAlerts : UInt32
  periodSeconds : UInt64
  totalAllowed : Nat
  totalSuppressed : Nat
  groups : List GroupSummary
  windowKind : String
  deriving DecidableEq, Repr

structure SummaryEvent where
  kind : String
  rule : String
  totalAllowed : Nat
  totalSuppressed : Nat
  periodSeconds : UInt64
  groups : List GroupSummary
  deriving DecidableEq, Repr

/-- Whether the next alert of a group would be denied. -/
structure GroupStatus where
  group : String
  isThrottled : Bool
  suppressed : Nat
  windowStart : Instant
  windowEnd : Instant
  deriving DecidableEq, Repr

structure RuleStatus where
  rule : String
  isThrottled : Bool
  suppressed : Nat
  windowStart : Instant
  windowEnd : Instant
  groups : List GroupStatus
  deriving DecidableEq, Repr

def RuleSummary.toEvent (s : RuleSummary) : SummaryEvent where
  kind := "throttle.summary"
  rule := s.rule
  totalAllowed := s.totalAllowed
  totalSuppressed := s.totalSuppressed
  periodSeconds := s.periodSeconds
  groups := s.groups

def GroupWindow.summary (w : GroupWindow) (group : String) (windowStart : Instant) :
    GroupSummary where
  group := group
  allowed := w.countSince windowStart
  suppressed := w.suppressed
  oldest := least? (w.entriesSince windowStart)
  newest := greatest? (w.entriesSince windowStart)
  windowStart := windowStart

def GroupWindow.status (w : GroupWindow) (group : String) (capacity : Nat)
    (windowStart now : Instant) : GroupStatus where
  group := group
  isThrottled := capacity ≤ w.countSince windowStart
  suppressed := w.suppressed
  windowStart := windowStart
  windowEnd := now

namespace RuleState

def summary (s : RuleState) (name : String) (now : Instant) : RuleSummary :=
  let groups := (s.groups.map fun key w => w.summary key (now - s.limit.window)).values
  { rule := name
    maxAlerts := s.limit.maxAlerts
    periodSeconds := s.limit.periodSeconds
    totalAllowed := total (groups.map GroupSummary.allowed)
    totalSuppressed := total (groups.map GroupSummary.suppressed)
    groups := groups
    windowKind := "sliding" }

def status (s : RuleState) (name : String) (now : Instant) : RuleStatus :=
  let windowStart := now - s.limit.window
  let groups := (s.groups.map fun key w => w.status key s.limit.capacity windowStart now).values
  { rule := name
    isThrottled := groups.any GroupStatus.isThrottled
    suppressed := total (groups.map GroupStatus.suppressed)
    windowStart := windowStart
    windowEnd := now
    groups := groups }

def deduct (s : RuleState) (told : List GroupSummary) : RuleState :=
  { s with groups := told.foldl (fun groups g => groups.modify g.group fun w =>
      w.release g.suppressed) s.groups }

end RuleState

/-- A call for a decision, made while an event is in the hands of the publisher. -/
structure ThrottleCall where
  rule : String
  fields : Json
  limit : RateLimit
  now : Instant

/-- What a publisher does with an event: the calls it makes first, and whether it then succeeds. -/
structure PublisherReaction where
  calls : List ThrottleCall
  succeeds : Bool

namespace Throttle

def summary? (t : Throttle) (name : String) (now : Instant) : Option RuleSummary :=
  (t.get? name).map fun s => s.summary name now

def summaries (t : Throttle) (now : Instant) : List RuleSummary :=
  (t.map fun name s => s.summary name now).values

def statusOf (t : Throttle) (name : String) (now : Instant) : List RuleStatus :=
  ((t.get? name).map fun s => s.status name now).toList

def statuses (t : Throttle) (now : Instant) : List RuleStatus :=
  (t.map fun name s => s.status name now).values

def event? (t : Throttle) (name : String) (now : Instant) : Option SummaryEvent :=
  match t.summary? name now with
  | some summary => if summary.totalSuppressed = 0 then none else some summary.toEvent
  | none => none

def answer (t : Throttle) (calls : List ThrottleCall) : Throttle :=
  calls.foldl (fun t call => (t.allow call.rule call.fields call.limit call.now).1) t

def deduct (t : Throttle) (event : SummaryEvent) : Throttle :=
  t.modify event.rule fun s => s.deduct event.groups

/-- The events offered in a round so far, each with whether it was published, the last one first. -/
abbrev Offered := List (SummaryEvent × Bool)

/-- The turn of one rule in a round: its event, if it has something to tell, is offered and, once it
is published, deducted. -/
def publishRule (publisher : SummaryEvent → PublisherReaction) (now : Instant)
    (state : Throttle × Offered) (name : String) : Throttle × Offered :=
  match state.1.event? name now with
  | none => state
  | some event =>
    let reaction := publisher event
    let answered := state.1.answer reaction.calls
    (if reaction.succeeds then answered.deduct event else answered,
      (event, reaction.succeeds) :: state.2)

/-- A round of publishing over the rules that have state at its start, in order of their names and
all at one instant, and the events offered in that order. Of a round that takes its rules in another
order, or while the clock goes on, each turn is a `publishRule` of its own
(`Throttle.Operation.turn`). -/
def publish (t : Throttle) (publisher : SummaryEvent → PublisherReaction) (now : Instant) :
    Throttle × Offered :=
  let (t, offered) := t.names.foldl (publishRule publisher now) (t, [])
  (t, offered.reverse)

end Throttle

end AlertAdmission
