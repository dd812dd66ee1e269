import AlertAdmission.Proofs.ChannelQueues.Refusal

/-!
What a flush hands over, and what it answers.

With a target everything that is queued goes into one batch, whatever the target replies, and the
answer is the reply or that none came in time. Without a target nothing changes
(`QueueWorker.flush_all_or_nothing`).
-/

namespace AlertAdmission

open ChannelQueues (onChannel)

/-- What whoever waits for a reply until a deadline is told. -/
def Reply.resultBy (deadline : Nat) : Reply → Except Fault Unit
  | .after millis result =>
    if millis ≤ deadline then result
    else .error (.deliveryTimeout (Duration.ofMillis deadline))
  | .never => .error (.deliveryTimeout (Duration.ofMillis deadline))

namespace ChannelQueues

variable {queues : ChannelQueues}

theorem everything_eq (queues : ChannelQueues) :
    queues.everything = (queues.names.map queues.ofChannel).flatten := by
  have whole : queues.names.map queues.ofChannel = queues.values := by
    simp only [Table.names, Table.values, List.map_map]
    exact List.map_congr_left fun entry member => ofChannel_of_mem member
  rw [whole]
  rfl

theorem everything_eq_nil_iff :
    queues.everything = [] ↔ ∀ channel, queues.ofChannel channel = [] := by
  simp only [List.eq_nil_iff_forall_not_mem, mem_everything_iff, not_exists]
  exact forall_comm

end ChannelQueues

namespace QueueWorker

variable {w : QueueWorker} {target : DeliveryTarget}

theorem flush_of_no_target (none : w.target = none) :
    w.flush = (w, if w.queues.everything = [] then .ok () else .error .noTarget) := by
  simp [flush, none]

theorem flush_answer (given : w.target = some target) :
    w.flush.2 = if w.queues.everything = [] then .ok () else
      (target.reply flushKey ((w.calls.get? flushKey).getD 0)).resultBy w.deadlineMillis := by
  simp only [flush, given]
  split
  · next nothing => simp [nothing]
  · next waiting =>
    simp only [if_neg waiting, handOver]
    cases target.reply flushKey ((w.calls.get? flushKey).getD 0) with
    | never => simp [Reply.heard?, Reply.resultBy]
    | after millis result =>
      by_cases inTime : millis ≤ w.deadlineMillis <;> simp [Reply.heard?, Reply.resultBy, inTime]

/-- In every state that a worker reaches, the queues of all channels one after the other are
everything that is queued, each notification once. Without a target a flush changes nothing, and
succeeds only where nothing is queued. With one it leaves no queue, hands over at most one batch,
which is all of that, and answers what the target replies by the deadline. -/
theorem flush_all_or_nothing [ZoneDatabase] (target : Option DeliveryTarget)
    (capacity tickMillis deadlineMillis : Nat) (quiet : QuietHours) (operations : List Operation) :
    let reached := ((start target capacity tickMillis deadlineMillis quiet).run operations).1
    let after := reached.flush.1
    let result := reached.flush.2
    let batch := (reached.queues.names.map reached.queues.ofChannel).flatten
    (∀ channel, onChannel channel batch = reached.queues.ofChannel channel) ∧
      (batch = [] ↔ ∀ channel, reached.queues.ofChannel channel = []) ∧
      match target with
      | none => after = reached ∧ result = if batch = [] then .ok () else .error .noTarget
      | some target =>
        after.queues = ChannelQueues.empty ∧
          after.handed = reached.handed ++ (if batch = [] then [] else [batch]) ∧
          result = if batch = [] then .ok () else
            (target.reply flushKey ((reached.calls.get? flushKey).getD 0)).resultBy
              deadlineMillis := by
  intro reached after result batch
  have filed : reached.queues.Filed := (accounts_run _ _ _ _ _ operations).filed
  have same : reached.target = target := target_run _ operations
  have deadline : reached.deadlineMillis = deadlineMillis :=
    congrArg (fun bounds => bounds.2.2) (bounds_run _ operations)
  have whole : reached.queues.everything = batch := reached.queues.everything_eq
  rw [← whole]
  refine ⟨filed.onChannel_everything, ChannelQueues.everything_eq_nil_iff, ?_⟩
  cases target with
  | none =>
    have unchanged := flush_of_no_target same
    exact ⟨congrArg Prod.fst unchanged, congrArg Prod.snd unchanged⟩
  | some target =>
    obtain ⟨_, queues, handed⟩ := reached.flush_spec
    refine ⟨?_, ?_, ?_⟩
    · simpa [same] using queues
    · by_cases nothing : reached.queues.everything = [] <;> simpa [same, nothing] using handed
    · rw [← deadline]
      exact flush_answer same

end QueueWorker

end AlertAdmission
