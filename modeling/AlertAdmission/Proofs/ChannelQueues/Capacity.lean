import AlertAdmission.Proofs.ChannelQueues.Pass
import AlertAdmission.Proofs.ChannelQueues.Refusal

/-!
How long the queues of channels get.

Passes, flushes and clears only take from a queue, so it grows by accepted notifications alone, one
at a time and while it has room. A notification is therefore refused just when the queue of its
channel has reached the capacity (`QueueWorker.accepts_below_capacity`).
-/

namespace AlertAdmission

namespace ChannelQueues

variable {queues : ChannelQueues} {capacity : Nat} {n : Notification} {now : Instant}

def Within (capacity : Nat) (queues : ChannelQueues) : Prop :=
  ∀ channel, queues.count channel ≤ capacity

theorem Within.of_sublist {after : ChannelQueues} (h : queues.Within capacity)
    (taken : ∀ channel, (after.ofChannel channel).Sublist (queues.ofChannel channel)) :
    after.Within capacity :=
  fun channel => Nat.le_trans (taken channel).length_le (h channel)

theorem Within.enqueue (h : queues.Within capacity) (n : Notification) (now : Instant) :
    (queues.enqueue capacity n now).1.Within capacity := by
  intro channel
  have queued := h channel
  simp only [count, ofChannel_enqueue] at queued ⊢
  split
  · next own =>
    obtain ⟨rfl, room⟩ := own
    simpa using Nat.succ_le_of_lt room
  · exact queued

theorem refused_of_full (full : capacity ≤ queues.count n.channel) :
    (queues.enqueue capacity n now).2 = .error (.queueFull n.channel capacity) := by
  unfold count at full
  simp [ChannelQueues.enqueue, full]

theorem enqueue_of_room (room : queues.count n.channel < capacity) :
    queues.enqueue capacity n now =
      (queues.insert n.channel (queues.ofChannel n.channel ++ [n.stamp now]), .ok ()) := by
  unfold count at room
  simp [ChannelQueues.enqueue, Nat.not_le.mpr room]

end ChannelQueues

namespace QueueWorker

variable {w : QueueWorker}

theorem within_perform [ZoneDatabase] (h : w.queues.Within w.capacity) (operation : Operation) :
    (w.perform operation).queues.Within w.capacity := by
  have outcome := w.outcome_perform operation
  generalize (w.perform operation).queues = queues at outcome ⊢
  generalize (w.perform operation).handed = handed at outcome
  cases outcome with
  | enqueued => exact h.enqueue _ _
  | @passed now =>
    apply h.of_sublist
    intro channel
    rw [(w.queues.pass_spec w.quiet now).1]
    split
    · exact List.filter_sublist
    · exact List.nil_sublist _
  | flushed =>
    split
    · exact fun channel => Nat.zero_le _
    · exact h
  | @cleared name =>
    apply h.of_sublist
    intro channel
    rw [ChannelQueues.ofChannel_clear]
    split
    · exact List.nil_sublist _
    · exact List.Sublist.refl _
  | clearedAll => exact fun channel => Nat.zero_le _
  | idle => exact h

theorem within_run [ZoneDatabase] (h : w.queues.Within w.capacity) (operations : List Operation) :
    (w.run operations).1.queues.Within w.capacity := by
  induction operations using List.reverseRecOn with
  | nil => exact h
  | append_singleton operations last ih =>
    have same := w.capacity_run operations
    rw [run_snoc, ← same]
    exact within_perform (same ▸ ih) last

/-- In every state that a worker reaches no channel has more than so many notifications queued. One
that has exactly so many refuses the next one; otherwise the next one is put at the end of its queue
as it was given, with the times of now and of 24 hours later, and no other channel has any part in
it. -/
theorem accepts_below_capacity [ZoneDatabase] (target : Option DeliveryTarget)
    (capacity tickMillis deadlineMillis : Nat) (quiet : QuietHours) (operations : List Operation)
    (n : Notification) (now : Instant) :
    let reached := ((start target capacity tickMillis deadlineMillis quiet).run operations).1
    let after := (reached.enqueue n now).1
    let result := (reached.enqueue n now).2
    (∀ channel, reached.queues.count channel ≤ capacity) ∧
      (result = .error (.queueFull n.channel capacity) ↔
        reached.queues.count n.channel = capacity) ∧
      (reached.queues.count n.channel ≠ capacity →
        result = .ok () ∧
        after.queues.ofChannel n.channel = reached.queues.ofChannel n.channel ++
          [{ n with queuedAt := now, expiresAt := now + Span.ofHours 24 }] ∧
        ∀ channel, channel ≠ n.channel →
          after.queues.get? channel = reached.queues.get? channel) := by
  intro reached after result
  have same : reached.capacity = capacity := capacity_run _ operations
  have within : reached.queues.Within capacity := within_run (fun _ => Nat.zero_le _) operations
  obtain ⟨queues, answer⟩ : after.queues = (reached.queues.enqueue capacity n now).1 ∧
      result = (reached.queues.enqueue capacity n now).2 := by
    rw [← same]
    exact ⟨rfl, rfl⟩
  refine ⟨within, ?_, ?_⟩
  · constructor
    · intro refused
      have full := (ChannelQueues.enqueue_of_refused (answer ▸ refused)).1
      exact Nat.le_antisymm (within n.channel) full
    · intro full
      exact answer.trans (ChannelQueues.refused_of_full (Nat.le_of_eq full.symm))
  · intro other
    have room := Nat.lt_of_le_of_ne (within n.channel) other
    rw [ChannelQueues.enqueue_of_room room] at queues answer
    refine ⟨answer, ?_, ?_⟩
    · rw [queues, ChannelQueues.ofChannel_insert, if_pos rfl]
      rfl
    · intro channel apart
      rw [queues, Table.get?_insert, if_neg apart]

end QueueWorker

end AlertAdmission
