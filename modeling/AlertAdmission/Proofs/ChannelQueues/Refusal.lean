import AlertAdmission.Proofs.ChannelQueues.Expiry

/-!
What a refused notification leaves behind.

A channel has a queue from the first notification that is offered to it, accepted or not. A full
queue has something in it, unless there is no room for anything at all; then a refused notification
leaves an empty queue, which no other operation does (`QueueWorker.refused_unchanged_iff`).
-/

namespace AlertAdmission

namespace ChannelQueues

variable {queues : ChannelQueues} {capacity : Nat} {n : Notification} {now : Instant}
  {fault : Fault}

/-- No channel has an empty queue. -/
def Stocked (queues : ChannelQueues) : Prop :=
  ∀ channel ∈ queues.names, queues.ofChannel channel ≠ []

theorem stocked_of_get? (h : ∀ channel queue, queues.get? channel = some queue → queue ≠ []) :
    queues.Stocked := by
  intro channel member
  obtain ⟨queue, found⟩ := Option.isSome_iff_exists.mp ((queues.mem_names_iff channel).mp member)
  rw [ofChannel, found]
  exact h channel queue found

theorem stocked_live (queues : ChannelQueues) (now : Instant) : (queues.live now).Stocked := by
  apply stocked_of_get?
  intro channel queue found
  rw [live, Table.get?_filter] at found
  simpa using (Option.filter_eq_some_iff.mp found).2

theorem stocked_empty : empty.Stocked := fun _ none => absurd none List.not_mem_nil

theorem stocked_pass [ZoneDatabase] (queues : ChannelQueues) (quiet : QuietHours) (now : Instant) :
    (queues.pass quiet now).1.Stocked := by
  unfold pass
  split
  · exact stocked_live queues now
  · exact stocked_empty

theorem Stocked.clear (h : queues.Stocked) (name : String) : (queues.clear name).Stocked := by
  intro channel member
  rw [ChannelQueues.clear, Table.mem_names_iff, Table.get?_erase] at member
  rw [ofChannel_clear]
  split at member
  · cases member
  · next other =>
    rw [if_neg other]
    exact h channel ((queues.mem_names_iff channel).mpr member)

theorem names_enqueue (queues : ChannelQueues) (capacity : Nat) (n : Notification) (now : Instant)
    (channel : String) : channel ∈ (queues.enqueue capacity n now).1.names ↔
      channel = n.channel ∨ channel ∈ queues.names := by
  unfold enqueue
  dsimp only
  split <;> exact Table.mem_names_insert _ _ _ _

theorem Stocked.enqueue (h : queues.Stocked) (room : 0 < capacity) (n : Notification)
    (now : Instant) : (queues.enqueue capacity n now).1.Stocked := by
  intro channel member
  rw [ofChannel_enqueue]
  split
  · simp
  · next kept =>
    rcases (names_enqueue _ _ _ _ _).mp member with rfl | old
    · have full : capacity ≤ (queues.ofChannel n.channel).length := by simpa using kept
      exact List.ne_nil_of_length_pos (Nat.lt_of_lt_of_le room full)
    · exact h channel old

/-- What is refused is refused by a full queue, which stays as it is. -/
theorem enqueue_of_refused (refused : (queues.enqueue capacity n now).2 = .error fault) :
    capacity ≤ (queues.ofChannel n.channel).length ∧ fault = .queueFull n.channel capacity ∧
      (queues.enqueue capacity n now).1 =
        queues.insert n.channel (queues.ofChannel n.channel) := by
  unfold ChannelQueues.enqueue at refused ⊢
  dsimp only at refused ⊢
  split at refused
  · next full =>
    rw [if_pos full]
    exact ⟨full, (Except.error.inj refused).symm, rfl⟩
  · cases refused

theorem insert_ofChannel_eq_self_iff (queues : ChannelQueues) (channel : String) :
    queues.insert channel (queues.ofChannel channel) = queues ↔ channel ∈ queues.names := by
  rw [Table.insert_eq_self_iff, Table.mem_names_iff, ofChannel]
  cases queues.get? channel <;> simp

theorem enqueue_eq_self_iff (refused : (queues.enqueue capacity n now).2 = .error fault) :
    (queues.enqueue capacity n now).1 = queues ↔ 0 < capacity ∨ n.channel ∈ queues.names := by
  obtain ⟨full, _, after⟩ := enqueue_of_refused refused
  rw [after, insert_ofChannel_eq_self_iff]
  constructor
  · exact .inr
  · rintro (room | there)
    · have queued : queues.ofChannel n.channel ≠ [] :=
        List.ne_nil_of_length_pos (Nat.lt_of_lt_of_le room full)
      by_contra absent
      exact queued (ofChannel_of_absent absent)
    · exact there

end ChannelQueues

namespace QueueWorker

variable {w : QueueWorker}

/-- What bounds a worker from its start on: the length of its queues, the time between ticks, and the
wait for a reply. -/
def bounds (w : QueueWorker) : Nat × Nat × Nat := (w.capacity, w.tickMillis, w.deadlineMillis)

theorem bounds_dispatch (w : QueueWorker) (batches : List Batch) :
    (w.dispatch batches).bounds = w.bounds := by
  obtain ⟨calls, running, events, same⟩ := w.dispatch_frame batches
  rw [same]
  rfl

theorem bounds_wait [ZoneDatabase] (w : QueueWorker) (millis : Nat) (now : Instant) :
    (w.wait millis now).bounds = w.bounds := by
  unfold wait settle
  dsimp only
  split
  · exact bounds_dispatch _ _
  · rfl

theorem bounds_flush (w : QueueWorker) : w.flush.1.bounds = w.bounds := by
  unfold flush
  split
  · rfl
  · dsimp only
    split
    · rfl
    · split <;> rfl

theorem bounds_perform [ZoneDatabase] (w : QueueWorker) (operation : Operation) :
    (w.perform operation).bounds = w.bounds := by
  cases operation with
  | process now => exact bounds_dispatch _ _
  | wait millis now => exact w.bounds_wait millis now
  | flush => exact w.bounds_flush
  | enqueue n now => rfl
  | clear name => rfl
  | clearAll => rfl
  | update quiet => rfl
  | close => rfl

theorem bounds_run [ZoneDatabase] (w : QueueWorker) (operations : List Operation) :
    (w.run operations).1.bounds = w.bounds := by
  induction operations using List.reverseRecOn with
  | nil => rfl
  | append_singleton operations last ih => rw [run_snoc, bounds_perform, ih]

theorem capacity_run [ZoneDatabase] (w : QueueWorker) (operations : List Operation) :
    (w.run operations).1.capacity = w.capacity :=
  congrArg Prod.fst (w.bounds_run operations)

/-- With room for one notification, no operation leaves an empty queue. -/
theorem stocked_perform [ZoneDatabase] (h : w.queues.Stocked) (room : 0 < w.capacity)
    (operation : Operation) : (w.perform operation).queues.Stocked := by
  have outcome := w.outcome_perform operation
  generalize (w.perform operation).queues = queues at outcome ⊢
  generalize (w.perform operation).handed = handed at outcome
  cases outcome with
  | enqueued => exact h.enqueue room _ _
  | passed => exact ChannelQueues.stocked_pass _ _ _
  | flushed =>
    split
    · exact ChannelQueues.stocked_empty
    · exact h
  | cleared => exact h.clear _
  | clearedAll => exact ChannelQueues.stocked_empty
  | idle => exact h

theorem stocked_run [ZoneDatabase] (h : w.queues.Stocked) (room : 0 < w.capacity)
    (operations : List Operation) : (w.run operations).1.queues.Stocked := by
  induction operations using List.reverseRecOn with
  | nil => exact h
  | append_singleton operations last ih =>
    rw [run_snoc]
    exact stocked_perform ih (by rwa [capacity_run]) last

/-- In every state that a worker reaches, a notification is refused because the queue of its channel
is full. The worker is as before just when there is room for at least one notification or the
channel has a queue already; otherwise the channel gets an empty queue, and that is all that
changes. With room for one, no channel ever has an empty queue. -/
theorem refused_unchanged_iff [ZoneDatabase] (target : Option DeliveryTarget)
    (capacity tickMillis deadlineMillis : Nat) (quiet : QuietHours) (operations : List Operation)
    (n : Notification) (now : Instant) {fault : Fault}
    (refused : (((start target capacity tickMillis deadlineMillis quiet).run operations).1.enqueue n
      now).2 = .error fault) :
    let reached := ((start target capacity tickMillis deadlineMillis quiet).run operations).1
    let after := (reached.enqueue n now).1
    fault = .queueFull n.channel capacity ∧
      (after = reached ↔ 0 < capacity ∨ n.channel ∈ reached.queues.names) ∧
      (∀ channel, after.queues.ofChannel channel = reached.queues.ofChannel channel) ∧
      (∀ channel, channel ∈ after.queues.names ↔
        channel = n.channel ∨ channel ∈ reached.queues.names) ∧
      (0 < capacity → reached.queues.Stocked) := by
  intro reached after
  have same : reached.capacity = capacity := capacity_run _ operations
  have fault_of : (reached.queues.enqueue reached.capacity n now).2 = .error fault := refused
  obtain ⟨full, named, _⟩ := ChannelQueues.enqueue_of_refused fault_of
  refine ⟨same ▸ named, ?_, ?_, ChannelQueues.names_enqueue _ _ _ _, ?_⟩
  · rw [← same, ← ChannelQueues.enqueue_eq_self_iff fault_of]
    exact ⟨congrArg queues, congrArg fun queues => { reached with queues := queues }⟩
  · intro channel
    have queued : after.queues.ofChannel channel = _ :=
      ChannelQueues.ofChannel_enqueue reached.queues reached.capacity n now channel
    rw [queued, if_neg fun room => Nat.not_lt.mpr full room.2]
  · intro room
    exact stocked_run ChannelQueues.stocked_empty room operations

def roomless : QueueWorker := start none 0 60000 30000 QuietHours.none

/-- The first notification that it refuses leaves an empty queue, and the second one nothing. -/
theorem empty_queue_of_refused :
    (roomless.enqueue pumpBroken Instant.epoch).2 = .error (.queueFull "mail" 0) ∧
      (roomless.enqueue pumpBroken Instant.epoch).1 ≠ roomless ∧
      let once := (roomless.run [.enqueue pumpBroken Instant.epoch]).1
      once.queues.counts = [("mail", 0)] ∧ (once.enqueue pumpBroken Instant.epoch).1 = once := by
  have refused : (roomless.enqueue pumpBroken Instant.epoch).2 = .error (.queueFull "mail" 0) := rfl
  have again : ((roomless.run [.enqueue pumpBroken Instant.epoch]).1.enqueue pumpBroken
      Instant.epoch).2 = .error (.queueFull "mail" 0) := rfl
  have first := refused_unchanged_iff none 0 60000 30000 QuietHours.none [] pumpBroken Instant.epoch
    refused
  have second := refused_unchanged_iff none 0 60000 30000 QuietHours.none
    [.enqueue pumpBroken Instant.epoch] pumpBroken Instant.epoch again
  refine ⟨refused, fun same => ?_, rfl, second.2.1.mpr (.inr (by decide))⟩
  rcases first.2.1.mp same with room | there
  · exact absurd room (by decide)
  · exact absurd there (by decide)

/-- A refused notification may leave a channel listed that was not listed before. -/
theorem listed_by_refused :
    ¬ ∀ (target : Option DeliveryTarget) (capacity tickMillis deadlineMillis : Nat)
      (quiet : QuietHours) (operations : List Operation) (n : Notification) (now : Instant),
      let reached := ((start target capacity tickMillis deadlineMillis quiet).run operations).1
      (reached.enqueue n now).2 = .error (.queueFull n.channel capacity) →
      (reached.enqueue n now).1.queues.counts = reached.queues.counts := by
  intro claim
  have same := claim none 0 60000 30000 QuietHours.none [] pumpBroken Instant.epoch rfl
  exact absurd same (by decide)

end QueueWorker

end AlertAdmission
