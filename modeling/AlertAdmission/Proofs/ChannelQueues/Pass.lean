import AlertAdmission.Proofs.ChannelQueues.Expiry

/-!
What a pass makes of the queues.

It sorts the notifications of every channel into those that have expired, which are dropped, and
those that remain. While it is quiet these are kept; otherwise the target is handed those of each
channel as one batch. It makes no difference whether a pass is made by hand or at a tick
(`QueueWorker.pass_sorts`).
-/

namespace AlertAdmission

namespace QuietHours

/-- Only the severity that may bypass quiet hours is ever treated better than information. -/
theorem suppresses_info [ZoneDatabase] {q : QuietHours} {severity : Severity} {now : Instant}
    (h : (q.check severity now).suppresses = true) : (q.check .info now).suppresses = true := by
  unfold check checkIn at h ⊢
  by_cases unconfigured : (!q.isConfigured) = true
  · rw [if_pos unconfigured] at h
    cases h
  · rw [if_neg unconfigured] at h ⊢
    by_cases bypassed : q.bypassCritical = true ∧ severity = .critical
    · rw [if_pos bypassed] at h
      cases h
    · rw [if_neg bypassed] at h
      rwa [if_neg fun info => Severity.noConfusion info.2]

end QuietHours

namespace ChannelQueues

/-- The notifications of a channel that have not expired, in their order. -/
def remaining (queues : ChannelQueues) (now : Instant) (channel : String) : List Notification :=
  (queues.ofChannel channel).filter fun n => now < n.expiresAt

/-- The batches of the channels with something that has not expired, each channel by its name. -/
def batches (queues : ChannelQueues) (now : Instant) : List (List Notification) :=
  (queues.names.map (queues.remaining now)).filter (· ≠ [])

variable {queues : ChannelQueues} {now : Instant}

theorem remaining_of_mem {name : String} {queue : List Notification}
    (member : (name, queue) ∈ queues.toList) :
    queues.remaining now name = queue.filter fun n => n.isLive now := by
  rw [remaining, ofChannel_of_mem member]
  rfl

theorem values_live (queues : ChannelQueues) (now : Instant) :
    (queues.live now).values = queues.batches now := by
  have queueOf : queues.names.map (queues.remaining now) =
      queues.toList.map fun entry => entry.2.filter fun n => n.isLive now := by
    rw [Table.names, List.map_map]
    exact List.map_congr_left fun entry member => remaining_of_mem member
  rw [batches, queueOf, List.filter_map]
  unfold live Table.values Table.filter Table.map
  dsimp only
  rw [List.filter_map, List.map_map]
  refine congrArg _ (List.filter_congr fun entry _ => ?_)
  simp only [Function.comp_apply]
  cases entry.2.filter fun n => n.isLive now <;> rfl

theorem count_ne_zero_of_live {entry : String × Nat} (h : entry ∈ (queues.live now).counts) :
    entry.2 ≠ 0 := by
  unfold counts live Table.map Table.filter at h
  simp only [List.mem_map, List.mem_filter] at h
  obtain ⟨pair, ⟨_, some⟩, rfl⟩ := h
  simpa using some

theorem pass_spec [ZoneDatabase] (queues : ChannelQueues) (quiet : QuietHours) (now : Instant) :
    (∀ channel, (queues.pass quiet now).1.ofChannel channel =
        if isQuiet quiet now then queues.remaining now channel else []) ∧
      (queues.pass quiet now).2.map Prod.snd =
        (if isQuiet quiet now then [] else queues.batches now) ∧
      ∀ entry ∈ (queues.pass quiet now).1.counts, entry.2 ≠ 0 := by
  unfold pass
  split
  · exact ⟨fun channel => ofChannel_live queues now channel, rfl,
      fun entry member => count_ne_zero_of_live member⟩
  · exact ⟨fun channel => rfl, values_live queues now, fun entry member => nomatch member⟩

end ChannelQueues

namespace QueueWorker

open ChannelQueues (isQuiet)

variable {w : QueueWorker} {operation : Operation} {now : Instant}

theorem perform_of_pass [ZoneDatabase] (passes : w.passAt? operation = some now) :
    (w.perform operation).queues = (w.queues.pass w.quiet now).1 ∧
      (w.perform operation).handed = w.handed ++
        if w.target.isSome then (w.queues.pass w.quiet now).2.map Prod.snd else [] := by
  have outcome := w.outcome_perform operation
  generalize (w.perform operation).queues = queues at outcome ⊢
  generalize (w.perform operation).handed = handed at outcome ⊢
  cases outcome with
  | passed same =>
    cases same.symm.trans passes
    exact ⟨rfl, rfl⟩
  | idle never => cases never.symm.trans passes
  | enqueued same => cases same ▸ passes
  | flushed same => cases same ▸ passes
  | cleared same => cases same ▸ passes
  | clearedAll same => cases same ▸ passes

/-- A pass drops what has expired, and that alone. What remains is kept in its order while it is
quiet; otherwise nothing is kept and a target, where there is one, is handed one batch of each
channel with something left. No empty queue is left behind, and when an alert of any severity would
be held, nothing is handed over. -/
theorem pass_sorts [ZoneDatabase] (passes : w.passAt? operation = some now) :
    let after := w.perform operation
    (∀ channel, after.queues.ofChannel channel =
        if isQuiet w.quiet now then w.queues.remaining now channel else []) ∧
      after.handed = w.handed ++
        (if w.target.isSome ∧ isQuiet w.quiet now = false then w.queues.batches now else []) ∧
      (∀ entry ∈ after.queues.counts, entry.2 ≠ 0) ∧
      ∀ severity, (w.quiet.check severity now).suppresses = true → after.handed = w.handed := by
  intro after
  obtain ⟨left, handed⟩ := perform_of_pass passes
  obtain ⟨kept, batches, counts⟩ := w.queues.pass_spec w.quiet now
  have added : after.handed = w.handed ++
      (if w.target.isSome ∧ isQuiet w.quiet now = false then w.queues.batches now else []) := by
    rw [handed, batches]
    cases w.target.isSome <;> cases isQuiet w.quiet now <;> rfl
  refine ⟨fun channel => left ▸ kept channel, added, fun entry => left ▸ counts entry, ?_⟩
  intro severity held
  have quiet : isQuiet w.quiet now = true := QuietHours.suppresses_info held
  rw [added, quiet, if_neg fun both => Bool.noConfusion both.2, List.append_nil]

/-- Two channels, the second written to a nanosecond after the first. -/
def twoChannels : QueueWorker :=
  ((mailing.run [.enqueue pumpBroken Instant.epoch,
    .enqueue { pumpBroken with channel := "chat" } (Instant.ofNanos 1)]).1)

/-- A tick a day after the first notification hands over the second one alone. -/
theorem second_handed_after_day :
    twoChannels.passAt? (.wait 60000 (Instant.epoch + Span.day)) =
        some (Instant.epoch + Span.day) ∧
      (twoChannels.perform (.wait 60000 (Instant.epoch + Span.day))).handed.map List.length =
        [1] := by
  have passes : twoChannels.passAt? (.wait 60000 (Instant.epoch + Span.day)) =
      some (Instant.epoch + Span.day) := by decide
  have handed := (pass_sorts passes).2.1
  refine ⟨passes, ?_⟩
  rw [handed]
  decide

end QueueWorker

end AlertAdmission
