import AlertAdmission.ChannelQueues.Delivery

/-!
The worker of the channel queues and its time line.

The worker makes a pass at every multiple of its tick until it is closed. Its time, in milliseconds
since it was started, is apart from the clock that expiry and quiet hours are read from: it moves
only while someone waits, and then the clock stands still.

To hand a batch over is to dispatch it. Each batch of a pass goes to a task of its own, which calls
the target when it comes to run: later than the pass that dispatched it, and possibly after a flush
that was asked for meanwhile. There is no stage here for batches between dispatch and call, and the
time line has the target called at once. So whatever is said of batches handed over, their contents,
their order and their number, is said of what was dispatched.
-/

namespace AlertAdmission

/-- The worker: its target, its bounds, and what is queued, running and recorded. `running` holds
the deliveries that will be accepted in time, each with the time of that, in the order in which
they are recorded when they are accepted at one time. -/
structure QueueWorker where
  target : Option DeliveryTarget
  capacity : Nat
  tickMillis : Nat
  deadlineMillis : Nat
  quiet : QuietHours
  queues : ChannelQueues
  time : Nat
  isClosed : Bool
  calls : Table Nat
  running : List (Nat × List Notification)
  /-- What has happened since it was last asked for, the latest first. -/
  events : List DeliveryEvent

namespace QueueWorker

/-- A worker that has just been started. A tick lasts at least a millisecond. -/
def start (target : Option DeliveryTarget) (capacity tickMillis deadlineMillis : Nat)
    (quiet : QuietHours) : QueueWorker where
  target := target
  capacity := capacity
  tickMillis := if tickMillis = 0 then 1 else tickMillis
  deadlineMillis := deadlineMillis
  quiet := quiet
  queues := ChannelQueues.empty
  time := 0
  isClosed := false
  calls := Table.empty
  running := []
  events := []

def flushKey : String := "flush"

def enqueue (w : QueueWorker) (n : Notification) (now : Instant) :
    QueueWorker × Except Fault Unit :=
  let (queues, result) := w.queues.enqueue w.capacity n now
  ({ w with queues := queues }, result)

def settle (w : QueueWorker) : QueueWorker :=
  let due := w.running.filter fun delivery => delivery.1 ≤ w.time
  { w with
    running := w.running.filter fun delivery => w.time < delivery.1
    events := (due.map fun (millis, batch) => ⟨millis, .finished, batch⟩).reverse ++ w.events }

/-- Dispatches a batch to a target, and takes its reply down as if the target was called at once. -/
def handOver (w : QueueWorker) (target : DeliveryTarget) (key : String)
    (batch : List Notification) : QueueWorker × Reply :=
  let earlier := (w.calls.get? key).getD 0
  ({ w with
      calls := w.calls.insert key (earlier + 1)
      events := ⟨w.time, .attempted, batch⟩ :: w.events }, target.reply key earlier)

/-- The delivery of a batch that has just been replied to; none where it will not be accepted. -/
def delivery (w : QueueWorker) (reply : Reply) (batch : List Notification) :
    List (Nat × List Notification) :=
  match reply.heard? w.deadlineMillis with
  | some (millis, .ok _) => [(w.time + millis, batch)]
  | _ => []

def dispatchOne (w : QueueWorker) (target : DeliveryTarget) (batch : Batch) : QueueWorker :=
  let (handed, reply) := w.handOver target batch.1 batch.2
  { handed with running := handed.running ++ handed.delivery reply batch.2 }

/-- Dispatches the batches of a pass, each to a task of its own; without a target they are
discarded. -/
def dispatch (w : QueueWorker) (batches : List Batch) : QueueWorker :=
  match w.target with
  | none => w
  | some target => batches.foldl (fun w batch => w.dispatchOne target batch) w

def process [ZoneDatabase] (w : QueueWorker) (now : Instant) : QueueWorker :=
  let (queues, batches) := w.queues.pass w.quiet now
  ({ w with queues := queues }.dispatch batches).settle

def nextTick (w : QueueWorker) : Nat := (w.time / w.tickMillis + 1) * w.tickMillis

/-- Waits for so many milliseconds. The clock stands still, so of the ticks in that time only the
first one can find something to do, and passes at all of them would end alike
(`QueueWorker.run_alike_ticking`). -/
def wait [ZoneDatabase] (w : QueueWorker) (millis : Nat) (now : Instant) : QueueWorker :=
  let finish := w.time + millis
  let ticked :=
    if !w.isClosed && w.nextTick ≤ finish then { w with time := w.nextTick }.process now else w
  { ticked with time := finish }.settle

/-- Moves the time while nothing is queued, so that ticks need no attention. -/
def skip (w : QueueWorker) (millis : Nat) : QueueWorker := { w with time := w.time + millis }.settle

/-- Hands out everything as one batch, whether it is quiet or not, and waits for the reply, which is
heard before those to other deliveries that come at the same time. Without a target this succeeds
only where nothing is queued. -/
def flush (w : QueueWorker) : QueueWorker × Except Fault Unit :=
  match w.target with
  | none => (w, if w.queues.everything.isEmpty then .ok () else .error .noTarget)
  | some target =>
    let emptied := { w with queues := ChannelQueues.empty }
    match w.queues.everything with
    | [] => (emptied, .ok ())
    | batch =>
      let (handed, reply) := emptied.handOver target flushKey batch
      let handed := { handed with running := handed.delivery reply batch ++ handed.running }
      match reply.heard? w.deadlineMillis with
      | some (millis, result) => (handed.skip millis, result)
      | none =>
        (handed.skip w.deadlineMillis,
          .error (.deliveryTimeout (Duration.ofMillis w.deadlineMillis)))

def close (w : QueueWorker) : QueueWorker := { w with isClosed := true }

def takeEvents (w : QueueWorker) : QueueWorker × List DeliveryEvent :=
  ({ w with events := [] }, w.events.reverse.mergeSort DeliveryEvent.notAfter)

end QueueWorker

end AlertAdmission
