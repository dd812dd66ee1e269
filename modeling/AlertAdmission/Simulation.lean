import AlertAdmission.Admission
import AlertAdmission.ChannelQueues
import AlertAdmission.Settings
import AlertAdmission.Throttle.Report

/-!
A made-up stream of alerts sent through all gates, and a report of what became of them.

The alerts come at equal distances from a number of devices in turn. A deferred alert is also queued
as a notification, unless the queue is full. There is a report only where every instant that is
worked out on the way has a date.
-/

namespace AlertAdmission

/-- What is simulated. At least one device sends alerts. -/
structure Simulation where
  events : Nat
  rule : String
  spacing : Span
  limit : RateLimit
  devices : Nat
  severity : Severity
  start : Instant

/-- The state in the course of a simulation, with the alerts of each fate counted. -/
structure SimulationState where
  now : Instant
  gates : Gates
  queues : ChannelQueues
  delivered : Nat
  droppedByStorm : Nat
  droppedByThrottle : Nat
  deferred : Nat
  queueRejected : Nat

structure SimulationReport where
  events : Nat
  delivered : Nat
  droppedByStorm : Nat
  droppedByThrottle : Nat
  deferred : Nat
  queueRejected : Nat
  storm : StormStatus
  throttle : Option RuleSummary
  summariesPublished : Nat
  digests : List Digest

namespace Simulation

def channel : String := "default"

def alert (s : Simulation) (number : Nat) : Alert :=
  let devices := if s.devices = 0 then 1 else s.devices
  let device := "router-" ++ Nat.repr (number % devices)
  { rule := s.rule
    device := device
    kind := "interface.down"
    severity := s.severity
    fields := .obj [("device_id", .str device),
      ("interface", .obj [("name", .str ("ether" ++ Nat.repr (number % 4 + 1)))])] }

def notification (alert : Alert) (number : Nat) : Notification :=
  Notification.unqueued channel (Nat.repr number) (alert.kind ++ " on " ++ alert.device)
    ("Rule " ++ alert.rule ++ " fired for " ++ alert.device) alert.severity alert.kind alert.fields

def initial (s : Simulation) : SimulationState :=
  ⟨s.start, Gates.fresh, ChannelQueues.empty, 0, 0, 0, 0, 0⟩

def tally (state : SimulationState) (capacity : Nat) (n : Notification) :
    Admission → SimulationState
  | .deliver => { state with delivered := state.delivered + 1 }
  | .droppedByStorm => { state with droppedByStorm := state.droppedByStorm + 1 }
  | .droppedByThrottle _ => { state with droppedByThrottle := state.droppedByThrottle + 1 }
  | .deferred _ =>
    let (queues, result) := state.queues.enqueue capacity n state.now
    let rejected := match result with
      | .ok () => 0
      | .error _ => 1
    { state with
      deferred := state.deferred + 1
      queues := queues
      queueRejected := state.queueRejected + rejected }

/-- The instants that are worked out for an alert, by what becomes of it: those of the gates, the
expiry of its notification, and the time of the next alert. -/
def reach (s : Simulation) (settings : Settings) (state : SimulationState) (n : Notification)
    (admission : Admission) : List Instant :=
  let queued := match admission with
    | .deferred _ => state.queues.reach settings.queue.maxQueueSize.toNat n state.now
    | _ => []
  state.gates.reach settings.storm (some s.limit) state.now admission ++ queued ++
    [state.now + s.spacing]

/-- The state after the alert of a number; none where that takes an instant without a date. -/
def step? [ZoneDatabase] (s : Simulation) (settings : Settings) (quiet : Option QuietHours)
    (state : SimulationState) (number : Nat) : Option SimulationState :=
  let alert := s.alert number
  let n := notification alert number
  let (gates, admission) := state.gates.receive settings.storm alert (some s.limit) quiet state.now
  let tallied := tally { state with gates := gates } settings.queue.maxQueueSize.toNat n admission
  if (s.reach settings state n admission).all Instant.isDated
  then some { tallied with now := state.now + s.spacing } else none

def run? [ZoneDatabase] (s : Simulation) (settings : Settings) (quiet : Option QuietHours) :
    Nat → Nat → SimulationState → Option SimulationState
  | 0, _, state => some state
  | alerts + 1, number, state =>
    match s.step? settings quiet state number with
    | none => none
    | some next => s.run? settings quiet alerts (number + 1) next

def final? [ZoneDatabase] (s : Simulation) (settings : Settings) (quiet : Option QuietHours) :
    Option SimulationState :=
  s.run? settings quiet s.events 0 s.initial

def takeAll : SummaryEvent → PublisherReaction := fun _ => ⟨[], true⟩

/-- The instants that are worked out for the report: those of the status of the storm detector, and
of the summary of the rule where it has state. -/
def reportReach (s : Simulation) (settings : Settings) (state : SimulationState) : List Instant :=
  state.gates.storm.reach settings.storm state.now ++
    ((state.gates.throttle.get? s.rule).map fun r => r.limit.reach state.now).getD []

/-- The report on a last state. Summaries are published before held alerts are made into digests. -/
def reportOn (s : Simulation) (settings : Settings) (state : SimulationState) : SimulationReport :=
  { events := s.events
    delivered := state.delivered
    droppedByStorm := state.droppedByStorm
    droppedByThrottle := state.droppedByThrottle
    deferred := state.deferred
    queueRejected := state.queueRejected
    storm := state.gates.storm.status settings.storm state.now
    throttle := state.gates.throttle.summary? s.rule state.now
    summariesPublished :=
      ((state.gates.throttle.publish takeAll state.now).2.filter Prod.snd).length
    digests := state.gates.drain.2 }

def report? [ZoneDatabase] (s : Simulation) (settings : Settings) (quiet : Option QuietHours) :
    Option SimulationReport :=
  match s.final? settings quiet with
  | none => none
  | some state =>
    if (s.reportReach settings state).all Instant.isDated then some (s.reportOn settings state)
    else none

end Simulation

end AlertAdmission
