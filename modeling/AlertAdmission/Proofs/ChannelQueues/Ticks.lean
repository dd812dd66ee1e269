import AlertAdmission.Proofs.ChannelQueues.Flush

/-!
Every tick of a wait.

The clock stands still while someone waits, so that a pass leaves nothing to do for the passes of
later ticks but to record the deliveries that are accepted by then. A wait that makes a pass at each
of its ticks therefore ends where the one ends that makes a pass at the first, and so does every run
of operations (`QueueWorker.run_alike_ticking`): the two record the same events, those of one
millisecond in the same order.
-/

namespace AlertAdmission.QueueWorker

/-! ### The same but for the order of events -/

/-- The events of one millisecond, the latest first. -/
def eventsAt (w : QueueWorker) (millis : Nat) : List DeliveryEvent :=
  w.events.filter fun e => e.millis = millis

/-- Workers that agree in everything, except that events of different times may be recorded in
another order. -/
structure Alike (u v : QueueWorker) : Prop where
  state : u = { v with events := u.events }
  events : ∀ millis, u.eventsAt millis = v.eventsAt millis

variable {u v w : QueueWorker} {now : Instant}

theorem Alike.refl (w : QueueWorker) : w.Alike w := ⟨rfl, fun _ => rfl⟩

theorem Alike.trans (h : u.Alike v) (h' : v.Alike w) : u.Alike w := by
  obtain ⟨state, events⟩ := h
  obtain ⟨state', events'⟩ := h'
  refine ⟨?_, fun millis => (events millis).trans (events' millis)⟩
  rw [state, state']

/-- The worker when its time has come to a number of milliseconds. -/
def settledAt (w : QueueWorker) (time : Nat) : QueueWorker := { w with time := time }.settle

theorem eventsAt_settledAt (w : QueueWorker) (time millis : Nat) :
    (w.settledAt time).eventsAt millis =
      ((w.running.filter fun d => d.1 = millis ∧ d.1 ≤ time).map fun d =>
        (⟨d.1, .finished, d.2⟩ : DeliveryEvent)).reverse ++ w.eventsAt millis := by
  unfold settledAt settle eventsAt
  dsimp only
  rw [List.filter_append, List.filter_reverse, List.filter_map, List.filter_filter]
  simp

/-- Alike workers stay so when the same events are recorded for both. -/
theorem eventsAt_record (h : u.Alike v) (added : List DeliveryEvent) (millis : Nat) :
    ({ u with events := added ++ u.events } : QueueWorker).eventsAt millis =
      ({ v with events := added ++ v.events } : QueueWorker).eventsAt millis := by
  have same := h.events millis
  unfold eventsAt at same ⊢
  rw [List.filter_append, List.filter_append, same]

theorem Alike.settle (h : u.Alike v) : u.settle.Alike v.settle := by
  have recorded := eventsAt_record h
  obtain ⟨state, -⟩ := h
  rw [state] at recorded ⊢
  exact ⟨rfl, fun millis => recorded _ millis⟩

theorem Alike.settledAt (h : u.Alike v) (time : Nat) :
    (u.settledAt time).Alike (v.settledAt time) := by
  obtain ⟨state, events⟩ := h
  have moved : ({ u with time := time } : QueueWorker).Alike { v with time := time } :=
    ⟨by rw [state], events⟩
  exact moved.settle

theorem Alike.dispatchOne (h : u.Alike v) (target : DeliveryTarget) (batch : Batch) :
    (u.dispatchOne target batch).Alike (v.dispatchOne target batch) := by
  have recorded := eventsAt_record h
  obtain ⟨state, -⟩ := h
  rw [state] at recorded ⊢
  exact ⟨rfl, fun millis => recorded [⟨v.time, .attempted, batch.2⟩] millis⟩

theorem Alike.dispatch (h : u.Alike v) (batches : List Batch) :
    (u.dispatch batches).Alike (v.dispatch batches) := by
  have all (target : DeliveryTarget) :
      (batches.foldl (fun w batch => w.dispatchOne target batch) u).Alike
        (batches.foldl (fun w batch => w.dispatchOne target batch) v) := by
    induction batches generalizing u v with
    | nil => exact h
    | cons first rest ih => exact ih (h.dispatchOne target first)
  have sameTarget : u.target = v.target := by rw [h.state]
  unfold QueueWorker.dispatch
  rw [sameTarget]
  split
  · exact h
  · exact all _

theorem Alike.flush (h : u.Alike v) : u.flush.1.Alike v.flush.1 := by
  have recorded := eventsAt_record h
  obtain ⟨state, events⟩ := h
  rw [state] at recorded ⊢
  rcases Option.eq_none_or_eq_some v.target with none | ⟨target, given⟩
  · rw [flush_of_no_target none, flush_of_no_target (w := { v with events := u.events }) none]
    exact ⟨rfl, events⟩
  · unfold QueueWorker.flush handOver QueueWorker.skip
    simp only [given]
    split
    · exact ⟨rfl, events⟩
    · cases (target.reply flushKey ((v.calls.get? flushKey).getD 0)).heard? v.deadlineMillis with
      | none => exact Alike.settle ⟨rfl, fun millis => recorded [⟨v.time, .attempted, _⟩] millis⟩
      | some heard =>
        exact Alike.settle ⟨rfl, fun millis => recorded [⟨v.time, .attempted, _⟩] millis⟩

/-- A delivery is recorded once, at the first of two times that it has been accepted by. -/
theorem settledAt_settledAt (w : QueueWorker) {first last : Nat} (order : first ≤ last) :
    ((w.settledAt first).settledAt last).Alike (w.settledAt last) := by
  have left : (w.settledAt first).running = w.running.filter fun d => first < d.1 := rfl
  constructor
  · have rest : (w.running.filter fun d => first < d.1).filter (fun d => last < d.1) =
        w.running.filter fun d => last < d.1 := by
      rw [List.filter_filter]
      apply List.filter_congr
      intro d _
      simp only [← Bool.decide_and, decide_eq_decide]
      omega
    unfold QueueWorker.settledAt settle
    dsimp only
    rw [rest]
  · intro millis
    rw [eventsAt_settledAt, eventsAt_settledAt, eventsAt_settledAt, left, List.filter_filter]
    by_cases early : millis ≤ first
    · have none : (w.running.filter fun d =>
          decide (d.1 = millis ∧ d.1 ≤ last) && decide (first < d.1)) = [] := by
        rw [List.filter_eq_nil_iff]
        intro d _
        simp only [← Bool.decide_and, decide_eq_true_eq]
        omega
      have all : (w.running.filter fun d => d.1 = millis ∧ d.1 ≤ first) =
          w.running.filter fun d => d.1 = millis ∧ d.1 ≤ last := by
        apply List.filter_congr
        intro d _
        rw [decide_eq_decide]
        omega
      rw [none, all]
      rfl
    · have none : (w.running.filter fun d => d.1 = millis ∧ d.1 ≤ first) = [] := by
        rw [List.filter_eq_nil_iff]
        intro d _
        rw [decide_eq_true_eq]
        omega
      have all : (w.running.filter fun d =>
          decide (d.1 = millis ∧ d.1 ≤ last) && decide (first < d.1)) =
          w.running.filter fun d => d.1 = millis ∧ d.1 ≤ last := by
        apply List.filter_congr
        intro d _
        rw [← Bool.decide_and, decide_eq_decide]
        omega
      rw [none, all]
      rfl

/-! ### Ticks -/

/-- How many ticks come while someone waits. -/
def ticksIn (w : QueueWorker) (millis : Nat) : Nat :=
  if w.isClosed then 0 else (w.time + millis) / w.tickMillis - w.time / w.tickMillis

theorem ticksWithin_iff (ticking : 0 < w.tickMillis) (millis : Nat) :
    w.ticksWithin millis = true ↔ 0 < w.ticksIn millis := by
  unfold ticksWithin ticksIn
  cases w.isClosed with
  | true => simp
  | false =>
    simp only [Bool.not_false, Bool.true_and, decide_eq_true_eq, Bool.false_eq_true, if_false]
    rw [nextTick, ← Nat.le_div_iff_mul_le ticking]
    omega

theorem dispatch_nil (w : QueueWorker) : w.dispatch [] = w := by
  unfold dispatch
  cases w.target <;> rfl

section Passing

variable [ZoneDatabase]

/-- The worker after so many more ticks, with a pass at each of them. -/
def tick (now : Instant) : Nat → QueueWorker → QueueWorker
  | 0, w => w
  | ticks + 1, w => tick now ticks ({ w with time := w.nextTick }.process now)

/-- Waits as `wait` does, with a pass at each tick. -/
def waitTicking (w : QueueWorker) (millis : Nat) (now : Instant) : QueueWorker :=
  (w.tick now (w.ticksIn millis)).settledAt (w.time + millis)

/-- A pass would find nothing to do. -/
def Idle (w : QueueWorker) (now : Instant) : Prop :=
  w.queues.pass w.quiet now = (w.queues, [])

theorem Idle.process (idle : w.Idle now) : w.process now = w.settle := by
  unfold QueueWorker.process
  rw [idle]
  exact congrArg settle w.dispatch_nil

theorem process_frame (w : QueueWorker) (now : Instant) : ∃ calls running events,
    w.process now = { w with
      queues := (w.queues.pass w.quiet now).1
      calls := calls
      running := running
      events := events } := by
  obtain ⟨calls, running, events, same⟩ :=
    dispatch_frame { w with queues := (w.queues.pass w.quiet now).1 } (w.queues.pass w.quiet now).2
  unfold QueueWorker.process
  dsimp only
  rw [same]
  exact ⟨_, _, _, rfl⟩

/-- A pass leaves nothing to do for another one at the same instant. -/
theorem idle_process (w : QueueWorker) (now : Instant) : (w.process now).Idle now := by
  obtain ⟨calls, running, events, same⟩ := w.process_frame now
  rw [same]
  exact ChannelQueues.pass_pass w.queues w.quiet now

/-- Ticks at which there is nothing to do go unnoticed. -/
theorem Idle.tick_alike (ticks : Nat) (idle : w.Idle now) {time : Nat}
    (reaches : (w.time / w.tickMillis + ticks) * w.tickMillis ≤ time) (ticking : 0 < w.tickMillis) :
    ((w.tick now ticks).settledAt time).Alike (w.settledAt time) := by
  induction ticks generalizing w with
  | zero => exact .refl _
  | succ ticks ih =>
    have passed : ({ w with time := w.nextTick } : QueueWorker).process now =
        w.settledAt w.nextTick := Idle.process (w := { w with time := w.nextTick }) idle
    rw [tick, passed]
    have place : w.nextTick / w.tickMillis = w.time / w.tickMillis + 1 :=
      Nat.mul_div_cancel _ ticking
    have reached : w.nextTick ≤ time := by
      refine Nat.le_trans (Nat.mul_le_mul_right _ ?_) reaches
      omega
    refine (ih (w := w.settledAt w.nextTick) idle ?_ ticking).trans (w.settledAt_settledAt reached)
    have sameTick : (w.settledAt w.nextTick).tickMillis = w.tickMillis := rfl
    have sameTime : (w.settledAt w.nextTick).time = w.nextTick := rfl
    rw [sameTick, sameTime, place, Nat.add_assoc, Nat.add_comm 1]
    exact reaches

theorem wait_of_still {millis : Nat} (still : ¬ w.ticksWithin millis = true) :
    w.wait millis now = w.settledAt (w.time + millis) := by
  unfold ticksWithin at still
  unfold wait settledAt
  dsimp only
  rw [if_neg still]

theorem wait_of_tick {millis : Nat} (comes : w.ticksWithin millis = true) :
    w.wait millis now =
      (({ w with time := w.nextTick } : QueueWorker).process now).settledAt (w.time + millis) := by
  unfold ticksWithin at comes
  unfold wait settledAt
  dsimp only
  rw [if_pos comes]

/-- A wait with a pass at each tick ends as one with a pass at the first. -/
theorem waitTicking_alike (w : QueueWorker) (ticking : 0 < w.tickMillis) (millis : Nat)
    (now : Instant) : (w.waitTicking millis now).Alike (w.wait millis now) := by
  have ticks := w.ticksWithin_iff ticking millis
  unfold waitTicking
  cases count : w.ticksIn millis with
  | zero =>
    have still : ¬ w.ticksWithin millis = true := by
      rw [ticks, count]
      exact Nat.lt_irrefl 0
    rw [wait_of_still still]
    exact .refl _
  | succ later =>
    have comes : w.ticksWithin millis = true := by
      rw [ticks, count]
      exact Nat.succ_pos later
    obtain ⟨first, isFirst⟩ : ∃ first : QueueWorker,
      first = ({ w with time := w.nextTick } : QueueWorker).process now := ⟨_, rfl⟩
    have idle : first.Idle now := isFirst ▸ idle_process _ now
    have unmoved : first.time = w.nextTick ∧ first.tickMillis = w.tickMillis := by
      obtain ⟨calls, running, events, same⟩ :=
        process_frame ({ w with time := w.nextTick } : QueueWorker) now
      rw [isFirst, same]
      exact ⟨rfl, rfl⟩
    have last : w.time / w.tickMillis + 1 + later = (w.time + millis) / w.tickMillis := by
      unfold ticksIn at count
      split at count <;> omega
    rw [wait_of_tick comes, tick, ← isFirst]
    apply idle.tick_alike
    · rw [unmoved.1, unmoved.2, nextTick, Nat.mul_div_cancel _ ticking, last]
      exact Nat.div_mul_le_self _ _
    · rw [unmoved.2]
      exact ticking

/-! ### Runs -/

theorem Alike.process (h : u.Alike v) (now : Instant) : (u.process now).Alike (v.process now) := by
  obtain ⟨state, events⟩ := h
  rw [state]
  have passed : ({ v with queues := (v.queues.pass v.quiet now).1, events := u.events } :
      QueueWorker).Alike { v with queues := (v.queues.pass v.quiet now).1 } := ⟨rfl, events⟩
  exact (passed.dispatch (v.queues.pass v.quiet now).2).settle

theorem Alike.wait (h : u.Alike v) (millis : Nat) (now : Instant) :
    (u.wait millis now).Alike (v.wait millis now) := by
  obtain ⟨state, events⟩ := h
  rw [state]
  by_cases comes : v.ticksWithin millis = true
  · have ticked : ({ v with time := v.nextTick, events := u.events } : QueueWorker).Alike
        { v with time := v.nextTick } := ⟨rfl, events⟩
    rw [wait_of_tick comes, wait_of_tick (w := { v with events := u.events }) comes]
    exact (ticked.process now).settledAt _
  · have still : ({ v with events := u.events } : QueueWorker).Alike v := ⟨rfl, events⟩
    rw [wait_of_still comes, wait_of_still (w := { v with events := u.events }) comes]
    exact still.settledAt _

theorem Alike.perform (h : u.Alike v) (operation : Operation) :
    (u.perform operation).Alike (v.perform operation) := by
  cases operation with
  | process now => exact h.process now
  | wait millis now => exact h.wait millis now
  | flush => exact h.flush
  | _ =>
    obtain ⟨state, events⟩ := h
    rw [state]
    exact ⟨rfl, events⟩

/-- An operation with a pass at each tick of a wait. -/
def performTicking (w : QueueWorker) : Operation → QueueWorker
  | .wait millis now => w.waitTicking millis now
  | operation => w.perform operation

theorem performTicking_alike (ticking : 0 < w.tickMillis) (operation : Operation) :
    (w.performTicking operation).Alike (w.perform operation) := by
  cases operation with
  | wait millis now => exact w.waitTicking_alike ticking millis now
  | _ => exact .refl _

/-- Every run ends where it ends with a pass at each tick of its waits. -/
theorem run_alike_ticking (target : Option DeliveryTarget)
    (capacity tickMillis deadlineMillis : Nat) (quiet : QuietHours) (operations : List Operation) :
    let started := start target capacity tickMillis deadlineMillis quiet
    (operations.foldl performTicking started).Alike (started.run operations).1 := by
  intro started
  induction operations using List.reverseRecOn with
  | nil => exact .refl _
  | append_singleton operations last ih =>
    have ticking : 0 < (operations.foldl performTicking started).tickMillis := by
      have same : (started.run operations).1.tickMillis = started.tickMillis :=
        congrArg (fun bounds => bounds.2.1) (bounds_run started operations)
      rw [ih.state, same]
      unfold started start
      dsimp only
      split <;> omega
    rw [List.foldl_concat, run_snoc]
    exact (performTicking_alike ticking last).trans (ih.perform last)

end Passing

end AlertAdmission.QueueWorker
