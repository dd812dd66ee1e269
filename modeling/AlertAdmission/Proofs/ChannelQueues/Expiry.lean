import AlertAdmission.Proofs.ChannelQueues.Conservation
import AlertAdmission.Zone.Catalogue

/-!
Expiry of queued notifications, and what the target is handed after it.

A notification expires a day after it is queued. Passes drop what has expired before they hand
anything out, but a flush hands out everything that is queued. What expires after one pass and is
flushed before the next is therefore handed out all the same, and nothing else is
(`hands_expired_iff`).
-/

namespace AlertAdmission

theorem ChannelQueues.mem_everything_iff {queues : ChannelQueues} {n : Notification} :
    n ∈ queues.everything ↔ ∃ channel, n ∈ queues.ofChannel channel := by
  unfold everything Table.values ofChannel
  constructor
  · intro member
    obtain ⟨queue, there, queued⟩ := List.mem_flatten.mp member
    obtain ⟨⟨channel, _⟩, entry, rfl⟩ := List.mem_map.mp there
    refine ⟨channel, ?_⟩
    rw [(queues.mem_toList_iff channel _).mp entry]
    exact queued
  · rintro ⟨channel, queued⟩
    cases found : queues.get? channel with
    | none => simp [found] at queued
    | some queue =>
      rw [found] at queued
      have entry := (queues.mem_toList_iff channel queue).mpr found
      exact List.mem_flatten.mpr ⟨queue, List.mem_map_of_mem entry, queued⟩

namespace QueueWorker

open ChannelQueues (isQuiet)

/-- The clock stands at an instant when an operation reads it. -/
def Operation.At (t : Instant) : Operation → Prop
  | .enqueue _ now => now = t
  | .process now => now = t
  | .wait _ now => now = t
  | _ => True

def passAt? (w : QueueWorker) : Operation → Option Instant
  | .process now => some now
  | .wait millis now => if w.ticksWithin millis then some now else none
  | _ => none

theorem passAt?_of_at {w : QueueWorker} {operation : Operation} {t now : Instant}
    (reads : operation.At t) (h : w.passAt? operation = some now) : now = t := by
  cases operation with
  | process u => exact (Option.some.inj h).symm.trans reads
  | wait millis u =>
    rw [passAt?] at h
    split at h
    · exact (Option.some.inj h).symm.trans reads
    · cases h
  | enqueue m u => cases h
  | flush => cases h
  | clear name => cases h
  | clearAll => cases h
  | update quiet => cases h
  | close => cases h

section Passing

variable [ZoneDatabase]

def passesIn (w : QueueWorker) : List Operation → List Instant
  | [] => []
  | operation :: later => (w.passAt? operation).toList ++ (w.perform operation).passesIn later

def handsOver (w : QueueWorker) (operation : Operation) : List (List Notification) :=
  (w.perform operation).handed.drop w.handed.length

/-- A notification that was accepted in a run and was live at every pass since. -/
def Outlives (w : QueueWorker) (operations : List Operation) (n : Notification) : Prop :=
  ∃ earlier m now later, operations = earlier ++ .enqueue m now :: later ∧ n = m.stamp now ∧
    ∀ pass ∈ ((w.run (earlier ++ [.enqueue m now])).1).passesIn later, n.isLive pass = true

variable {w : QueueWorker} {n : Notification}

/-! ### One operation -/

/-- The queues that an operation leaves, and all batches that have been handed out by then. -/
inductive Outcome (w : QueueWorker) (operation : Operation) :
    ChannelQueues → List (List Notification) → Prop where
  | enqueued {n : Notification} {now : Instant} : operation = .enqueue n now →
      Outcome w operation (w.queues.enqueue w.capacity n now).1 w.handed
  | passed {now : Instant} : w.passAt? operation = some now →
      Outcome w operation (w.queues.pass w.quiet now).1 (w.handed ++
        if w.target.isSome then (w.queues.pass w.quiet now).2.map Prod.snd else [])
  | flushed : operation = .flush →
      Outcome w operation (if w.target.isSome then ChannelQueues.empty else w.queues) (w.handed ++
        if w.target.isSome ∧ w.queues.everything ≠ [] then [w.queues.everything] else [])
  | cleared {name : String} : operation = .clear name →
      Outcome w operation (w.queues.clear name) w.handed
  | clearedAll : operation = .clearAll → Outcome w operation ChannelQueues.empty w.handed
  | idle : w.passAt? operation = none → Outcome w operation w.queues w.handed

theorem outcome_perform (w : QueueWorker) (operation : Operation) :
    w.Outcome operation (w.perform operation).queues (w.perform operation).handed := by
  cases operation with
  | enqueue n now => exact .enqueued rfl
  | process now =>
    obtain ⟨_, queues, handed⟩ := w.process_spec now
    rw [perform, queues, handed]
    exact .passed rfl
  | wait millis now =>
    obtain ⟨_, queues, handed⟩ := w.process_spec now
    obtain ⟨_, waited, handedOver⟩ := w.wait_spec now millis
    rw [perform, waited, handedOver]
    split
    · next ticks =>
      rw [queues, handed]
      exact .passed (if_pos ticks)
    · next ticks => exact .idle (if_neg ticks)
  | flush =>
    obtain ⟨_, queues, handed⟩ := w.flush_spec
    rw [perform, queues, handed]
    exact .flushed rfl
  | clear name => exact .cleared rfl
  | clearAll => exact .clearedAll rfl
  | update quiet => exact .idle rfl
  | close => exact .idle rfl

theorem live_of_pass {now : Instant} {channel : String}
    (h : n ∈ (w.queues.pass w.quiet now).1.ofChannel channel) :
    n ∈ w.queues.ofChannel channel ∧ n.isLive now = true := by
  unfold ChannelQueues.pass at h
  split at h
  · rw [ChannelQueues.ofChannel_live] at h
    exact List.mem_filter.mp h
  · exact absurd h List.not_mem_nil

/-- Whatever is queued after an operation has just been accepted, or was queued before it and is
live at its pass. -/
theorem queued_of_perform {operation : Operation} {channel : String}
    (h : n ∈ (w.perform operation).queues.ofChannel channel) :
    w.accepts? operation = some n ∨ (n ∈ w.queues.ofChannel channel ∧
      ∀ pass, w.passAt? operation = some pass → n.isLive pass = true) := by
  have unpassed : ∀ pass, none = some pass → n.isLive pass = true := by simp
  have outcome := w.outcome_perform operation
  generalize (w.perform operation).queues = queues at h outcome
  generalize (w.perform operation).handed = handed at outcome
  cases outcome with
  | @enqueued m now enqueues =>
    subst enqueues
    rw [accepts?_enqueue]
    rw [ChannelQueues.ofChannel_enqueue] at h
    split at h
    · next room =>
      rw [if_pos room.2]
      rcases List.mem_append.mp h with old | new
      · exact .inr ⟨old, unpassed⟩
      · exact .inl (congrArg some (List.mem_singleton.mp new).symm)
    · exact .inr ⟨h, unpassed⟩
  | passed passes =>
    obtain ⟨queued, live⟩ := live_of_pass h
    refine .inr ⟨queued, fun pass same => ?_⟩
    cases passes.symm.trans same
    exact live
  | flushed flushes =>
    subst flushes
    split at h
    · exact absurd h List.not_mem_nil
    · exact .inr ⟨h, unpassed⟩
  | cleared clears =>
    subst clears
    rw [ChannelQueues.ofChannel_clear] at h
    split at h
    · exact absurd h List.not_mem_nil
    · exact .inr ⟨h, unpassed⟩
  | clearedAll => exact absurd h List.not_mem_nil
  | idle passes =>
    rw [passes]
    exact .inr ⟨h, unpassed⟩

theorem handsOver_of_handed {operation : Operation} {batches : List (List Notification)}
    (h : (w.perform operation).handed = w.handed ++ batches) :
    w.handsOver operation = batches := by
  rw [handsOver, h, List.drop_left]

theorem handsOver_cases (w : QueueWorker) (operation : Operation) :
    (∃ now, w.passAt? operation = some now ∧ w.handsOver operation =
      if w.target.isSome then (w.queues.pass w.quiet now).2.map Prod.snd else []) ∨
    operation = .flush ∨ w.handsOver operation = [] := by
  have nothing : w.handed = w.handed ++ [] := (List.append_nil _).symm
  have outcome := w.outcome_perform operation
  generalize handed : (w.perform operation).handed = batches at outcome
  generalize (w.perform operation).queues = queues at outcome
  cases outcome with
  | @passed now passes => exact .inl ⟨now, passes, handsOver_of_handed handed⟩
  | flushed flushes => exact .inr (.inl flushes)
  | enqueued => exact .inr (.inr (handsOver_of_handed (handed.trans nothing)))
  | cleared => exact .inr (.inr (handsOver_of_handed (handed.trans nothing)))
  | clearedAll => exact .inr (.inr (handsOver_of_handed (handed.trans nothing)))
  | idle => exact .inr (.inr (handsOver_of_handed (handed.trans nothing)))

theorem live_of_passed {now : Instant} (h : n ∈ (if w.target.isSome then
      (w.queues.pass w.quiet now).2.map Prod.snd else []).flatten) : n.isLive now = true := by
  rw [ChannelQueues.pass] at h
  by_cases quiet : isQuiet w.quiet now = true
  · simp [quiet] at h
  · by_cases given : w.target.isSome = true
    · rw [if_pos given, if_neg quiet] at h
      have queued : n ∈ (w.queues.live now).everything := h
      obtain ⟨channel, there⟩ := ChannelQueues.mem_everything_iff.mp queued
      rw [ChannelQueues.ofChannel_live] at there
      exact (List.mem_filter.mp there).2
    · simp [given] at h

theorem mem_handsOver_flush : n ∈ (w.handsOver .flush).flatten ↔
    w.target.isSome = true ∧ n ∈ w.queues.everything := by
  have flushed : (w.perform .flush).handed = _ := w.flush_spec.2.2
  rw [handsOver_of_handed flushed]
  by_cases some : w.queues.everything = []
  · simp [some]
  · by_cases given : w.target.isSome = true <;> simp [some, given]

/-! ### Runs -/

theorem passesIn_snoc (w : QueueWorker) (operations : List Operation) (last : Operation) :
    w.passesIn (operations ++ [last]) =
      w.passesIn operations ++ ((w.run operations).1.passAt? last).toList := by
  rw [run_fst]
  induction operations generalizing w with
  | nil => simp [passesIn]
  | cons operation later ih => simp [passesIn, ih]

theorem run_append (w : QueueWorker) (operations more : List Operation) :
    (w.run (operations ++ more)).1 = ((w.run operations).1.run more).1 := by
  rw [run_fst, run_fst, run_fst, List.foldl_append]

theorem Outlives.snoc {operations : List Operation} {last : Operation}
    (h : w.Outlives operations n)
    (live : ∀ pass, (w.run operations).1.passAt? last = some pass → n.isLive pass = true) :
    w.Outlives (operations ++ [last]) n := by
  obtain ⟨earlier, m, now, later, rfl, stamped, alive⟩ := h
  refine ⟨earlier, m, now, later ++ [last], by simp, stamped, fun pass member => ?_⟩
  rw [passesIn_snoc, ← run_append, List.append_assoc, List.singleton_append] at member
  rcases List.mem_append.mp member with old | new
  · exact alive pass old
  · exact live pass (Option.mem_toList.mp new)

theorem outlives_of_accepts {operations : List Operation} {last : Operation}
    (h : (w.run operations).1.accepts? last = some n) : w.Outlives (operations ++ [last]) n := by
  cases last with
  | enqueue m now =>
    rw [accepts?_enqueue] at h
    split at h
    · cases h
      exact ⟨operations, m, now, [], rfl, rfl, by simp [passesIn]⟩
    · cases h
  | process now => cases h
  | wait millis now => cases h
  | flush => cases h
  | clear name => cases h
  | clearAll => cases h
  | update quiet => cases h
  | close => cases h

/-- Whatever is queued has been live at every pass since it was accepted. -/
theorem outlives_of_queued (empty : w.queues = ChannelQueues.empty) (operations : List Operation)
    {channel : String} (h : n ∈ (w.run operations).1.queues.ofChannel channel) :
    w.Outlives operations n := by
  induction operations using List.reverseRecOn with
  | nil =>
    have none : n ∈ w.queues.ofChannel channel := h
    rw [empty, ChannelQueues.ofChannel_empty] at none
    exact absurd none List.not_mem_nil
  | append_singleton operations last ih =>
    rw [run_snoc] at h
    rcases queued_of_perform h with accepted | ⟨queued, live⟩
    · exact outlives_of_accepts accepted
    · exact (ih queued).snoc live

/-- An operation hands over what has expired just when it is a flush while something that has
expired is queued. Whatever is queued expires a day after it was, and has been live at every pass
since. -/
theorem hands_expired_iff (target : Option DeliveryTarget)
    (capacity tickMillis deadlineMillis : Nat) (quiet : QuietHours) (operations : List Operation)
    (last : Operation) {t : Instant} (reads : last.At t) :
    let worker := start target capacity tickMillis deadlineMillis quiet
    let reached := (worker.run operations).1
    ((∃ n ∈ (reached.handsOver last).flatten, n.isLive t = false) ↔
      last = .flush ∧ target.isSome = true ∧
        ∃ n ∈ reached.queues.everything, n.expiresAt ≤ t) ∧
      ∀ n ∈ reached.queues.everything,
        n.expiresAt = n.queuedAt + Notification.lifetime ∧ worker.Outlives operations n := by
  intro worker reached
  have given : reached.target = target := worker.target_run operations
  have expired : ∀ n : Notification, n.isLive t = false ↔ n.expiresAt ≤ t := by
    simp [Notification.isLive]
  constructor
  · constructor
    · rintro ⟨n, handed, dead⟩
      rcases reached.handsOver_cases last with ⟨now, pass, batches⟩ | rfl | nothing
      · rw [batches] at handed
        have live := live_of_passed handed
        rw [passAt?_of_at reads pass, dead] at live
        cases live
      · obtain ⟨present, queued⟩ := mem_handsOver_flush.mp handed
        exact ⟨rfl, given ▸ present, n, queued, (expired n).mp dead⟩
      · rw [nothing] at handed
        exact absurd handed List.not_mem_nil
    · rintro ⟨rfl, present, n, queued, late⟩
      exact ⟨n, mem_handsOver_flush.mpr ⟨given.symm ▸ present, queued⟩, (expired n).mpr late⟩
  · intro n queued
    obtain ⟨channel, there⟩ := ChannelQueues.mem_everything_iff.mp queued
    have outlives := outlives_of_queued (w := worker) rfl operations there
    refine ⟨?_, outlives⟩
    obtain ⟨_, m, now, _, _, rfl, _⟩ := outlives
    rfl

end Passing

def pumpBroken : Notification :=
  .unqueued "mail" "a1" "pump" "broken" .error "state" .null

/-- A worker of a minute's tick on a target that accepts, without quiet hours. -/
def mailing : QueueWorker := start (some .accepting) 100 60000 30000 QuietHours.none

theorem everything_of_pumpBroken (t : Instant) :
    (mailing.run [.enqueue pumpBroken t]).1.queues.everything = [pumpBroken.stamp t] := rfl

/-- A flush a day after the only notification hands it over. -/
theorem hands_expired_after_day :
    Operation.flush.At (Instant.epoch + Span.day) ∧
      ∃ n ∈ ((mailing.run [.enqueue pumpBroken Instant.epoch]).1.handsOver .flush).flatten,
        n.isLive (Instant.epoch + Span.day) = false := by
  have reads : Operation.flush.At (Instant.epoch + Span.day) := trivial
  have both := hands_expired_iff (some .accepting) 100 60000 30000 QuietHours.none
    [.enqueue pumpBroken Instant.epoch] .flush reads
  have queued : ∃ n ∈ (mailing.run [.enqueue pumpBroken Instant.epoch]).1.queues.everything,
      n.expiresAt ≤ Instant.epoch + Span.day := by
    rw [everything_of_pumpBroken]
    exact ⟨_, List.mem_singleton_self _, by decide⟩
  exact ⟨reads, both.1.mpr ⟨rfl, rfl, queued⟩⟩

/-- What an operation hands over may have expired by the instant that it reads. -/
theorem not_all_live_when_handed :
    ¬ ∀ (target : Option DeliveryTarget) (capacity tickMillis deadlineMillis : Nat)
      (quiet : QuietHours) (operations : List Operation) (last : Operation) (t : Instant),
      last.At t →
      ∀ n ∈ (((start target capacity tickMillis deadlineMillis quiet).run operations).1.handsOver
        last).flatten, n.isLive t = true := by
  intro claim
  have live := claim (some .accepting) 100 60000 30000 QuietHours.none
    [.enqueue pumpBroken Instant.epoch] .flush (Instant.epoch + Span.day) trivial
  have handed : pumpBroken.stamp Instant.epoch ∈
      ((mailing.run [.enqueue pumpBroken Instant.epoch]).1.handsOver .flush).flatten := by
    refine mem_handsOver_flush.mpr ⟨rfl, ?_⟩
    rw [everything_of_pumpBroken]
    exact List.mem_singleton_self _
  have expired : (pumpBroken.stamp Instant.epoch).isLive (Instant.epoch + Span.day) = false := by
    decide
  cases expired.symm.trans (live _ handed)

end QueueWorker

end AlertAdmission
