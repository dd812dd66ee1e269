import AlertAdmission.Proofs.ChannelQueues.Ledger
import AlertAdmission.Proofs.Time.Order

/-!
Where every accepted notification is, in every run of the worker of the channel queues.

Each operation moves the queued notifications in one way (`QueueWorker.move`), and only a
notification that is accepted is entered into the ledger. One operation at a time, the worker goes
on to agree with its ledger (`accounts_perform`), so nothing is lost and nothing is there twice
(`run_accounts`).
-/

namespace AlertAdmission

open ChannelQueues (onChannel)

namespace QueueWorker

open ChannelQueues (isQuiet)

/-- The notification that an operation accepts, as it is queued. -/
def accepts? (w : QueueWorker) : Operation → Option Notification
  | .enqueue n now =>
    match (w.enqueue n now).2 with
    | .ok _ => some (n.stamp now)
    | .error _ => none
  | _ => none

theorem accepts?_enqueue (w : QueueWorker) (n : Notification) (now : Instant) :
    w.accepts? (.enqueue n now) =
      if (w.queues.ofChannel n.channel).length < w.capacity then some (n.stamp now) else none := by
  unfold accepts? enqueue ChannelQueues.enqueue
  by_cases full : w.capacity ≤ (w.queues.ofChannel n.channel).length
  · simp [full, Nat.not_lt.mpr full]
  · simp [full, Nat.lt_of_not_le full]

section Moving

variable [ZoneDatabase]

/-- A pass keeps the live notifications while it is quiet, and hands out one batch for each channel
that has some otherwise. -/
def passMove (w : QueueWorker) (now : Instant) : Move :=
  .pass now fun channel =>
    if isQuiet w.quiet now then .queued
    else if w.target.isSome then
      .handed (w.handed.length + (w.queues.live now).names.idxOf channel)
    else .discarded

def move (w : QueueWorker) : Operation → Move
  | .process now => w.passMove now
  | .wait millis now => if w.ticksWithin millis then w.passMove now else .stay
  | .flush => .all fun _ => if w.target.isSome then .handed w.handed.length else .queued
  | .clear name => .all fun channel => if channel = name then .cleared else .queued
  | .clearAll => .all fun _ => .cleared
  | .enqueue _ _ => .stay
  | .update _ => .stay
  | .close => .stay

theorem move_wait (w : QueueWorker) (millis : Nat) (now : Instant) :
    w.move (.wait millis now) = if w.ticksWithin millis then w.passMove now else .stay := rfl

def enter (w : QueueWorker) (ledger : Ledger) (operation : Operation) : Ledger :=
  match w.accepts? operation with
  | some n => (ledger.move (w.move operation)).accept n
  | none => ledger.move (w.move operation)

/-- The worker after a run, and the ledger of the run. -/
def run (w : QueueWorker) (operations : List Operation) : QueueWorker × Ledger :=
  operations.foldl (fun state operation =>
    (state.1.perform operation, state.1.enter state.2 operation)) (w, [])

theorem run_snoc (w : QueueWorker) (operations : List Operation) (last : Operation) :
    w.run (operations ++ [last]) = ((w.run operations).1.perform last,
      (w.run operations).1.enter (w.run operations).2 last) := by
  rw [run, List.foldl_append]
  rfl

/-! ### One operation -/

variable {w : QueueWorker} {ledger : Ledger}

theorem accounts_process (h : ledger.Accounts w) (now : Instant) :
    (ledger.move (w.passMove now)).Accounts (w.process now) := by
  obtain ⟨_, queues, handed⟩ := w.process_spec now
  have filed := h.filed.live now
  have live := ChannelQueues.ofChannel_live w.queues now
  unfold passMove
  -- what is live stays while it is quiet; else it fills the batches, or is lost without a target
  by_cases quiet : isQuiet w.quiet now = true
  · rw [ChannelQueues.pass, if_pos quiet] at queues handed
    apply h.move_within
    · simp [quiet]
    · intro channel
      simp [queues, live, quiet]
    · simpa using handed
  · rw [ChannelQueues.pass, if_neg quiet] at queues handed
    have nothing : ∀ channel, (w.process now).queues.ofChannel channel = [] := by
      intro channel
      rw [queues]
      exact ChannelQueues.ofChannel_empty channel
    by_cases given : w.target.isSome = true
    · rw [if_pos given] at handed
      apply h.move (w.queues.live now).values
      · intro channel
        simp [nothing, quiet, given]
      · exact handed
      · intro j channel
        rw [filed.onChannel_values, live]
        simp [quiet, given]
      · intro channel k goes
        simp only [Move.goes_pass, if_neg quiet, if_pos given, Place.handed.injEq] at goes
        omega
      · intro channel
        have all : onChannel channel (w.queues.live now).values.flatten = _ :=
          filed.onChannel_everything channel
        rw [nothing, all, live, List.append_nil]
        exact List.filter_sublist
    · apply h.move_within
      · simp [quiet, given]
      · intro channel
        simp [nothing, quiet, given]
      · simpa [given] using handed

theorem accounts_wait (h : ledger.Accounts w) (millis : Nat) (now : Instant) :
    (ledger.move (w.move (.wait millis now))).Accounts (w.wait millis now) := by
  obtain ⟨_, queues, handed⟩ := w.wait_spec now millis
  rw [move_wait]
  by_cases ticks : w.ticksWithin millis = true
  · rw [if_pos ticks] at queues handed ⊢
    exact (accounts_process h now).of_same (fun channel => by rw [queues]) handed
  · rw [if_neg ticks] at queues handed ⊢
    rw [Ledger.move_stay]
    exact h.of_same (fun channel => by rw [queues]) handed

theorem accounts_flush (h : ledger.Accounts w) :
    (ledger.move (w.move .flush)).Accounts w.flush.1 := by
  obtain ⟨_, queues, handed⟩ := w.flush_spec
  have everything := h.filed.onChannel_everything
  unfold move
  by_cases given : w.target.isSome = true
  · rw [if_pos given] at queues
    have nothing : ∀ channel, w.flush.1.queues.ofChannel channel = [] := by
      intro channel
      rw [queues]
      exact ChannelQueues.ofChannel_empty channel
    simp only [given, true_and, if_true] at handed ⊢
    apply h.move _ _ handed
    · intro j channel
      rw [← everything]
      by_cases some : w.queues.everything = []
      · simp [some]
      · cases j <;> simp [some]
    · intro channel k goes
      simp only [Move.goes_all, Place.handed.injEq] at goes
      omega
    · intro channel
      rw [← everything, nothing]
      by_cases some : w.queues.everything = [] <;> simp [some]
    · intro channel
      simp [nothing]
  · rw [if_neg given] at queues
    apply h.move_within
    · simp [given]
    · intro channel
      simp [queues, given]
    · simpa [given] using handed

theorem accounts_clear (h : ledger.Accounts w) (name : String) :
    (ledger.move (w.move (.clear name))).Accounts (w.perform (.clear name)) := by
  have cleared : ∀ channel, (w.perform (.clear name)).queues.ofChannel channel =
      if channel = name then [] else w.queues.ofChannel channel :=
    ChannelQueues.ofChannel_clear w.queues name
  unfold move
  apply h.move_within
  · intro channel k
    by_cases here : channel = name <;> simp [here]
  · intro channel
    rw [cleared]
    by_cases here : channel = name <;> simp [here]
  · rfl

theorem accounts_clearAll (h : ledger.Accounts w) :
    (ledger.move (w.move .clearAll)).Accounts (w.perform .clearAll) := by
  apply h.move_within
  · simp [move]
  · intro channel
    exact ChannelQueues.ofChannel_empty channel
  · rfl

theorem accounts_enqueue (h : ledger.Accounts w) (n : Notification) (now : Instant) :
    (w.enter ledger (.enqueue n now)).Accounts (w.enqueue n now).1 := by
  have queued : ∀ channel, (w.enqueue n now).1.queues.ofChannel channel =
      if channel = n.channel ∧ (w.queues.ofChannel n.channel).length < w.capacity
      then w.queues.ofChannel channel ++ [n.stamp now] else w.queues.ofChannel channel :=
    ChannelQueues.ofChannel_enqueue w.queues w.capacity n now
  have stays : ledger.move (w.move (.enqueue n now)) = ledger := Ledger.move_stay ledger
  unfold enter
  rw [accepts?_enqueue, stays]
  by_cases room : (w.queues.ofChannel n.channel).length < w.capacity
  · rw [if_pos room]
    apply h.accept
    · intro channel
      have stamped : (n.stamp now).channel = n.channel := rfl
      rw [queued, stamped]
      by_cases own : channel = n.channel
      · simp [own, room]
      · simp [own, Ne.symm own]
    · rfl
  · rw [if_neg room]
    apply h.of_same
    · intro channel
      simp [queued, room]
    · rfl

theorem accounts_perform (h : ledger.Accounts w) (operation : Operation) :
    (w.enter ledger operation).Accounts (w.perform operation) := by
  have stays : ledger.move .stay = ledger := Ledger.move_stay ledger
  cases operation with
  | enqueue n now => exact accounts_enqueue h n now
  | process now => exact accounts_process h now
  | wait millis now => exact accounts_wait h millis now
  | flush => exact accounts_flush h
  | clear name => exact accounts_clear h name
  | clearAll => exact accounts_clearAll h
  | update quiet =>
    have entered : w.enter ledger (.update quiet) = ledger := stays
    rw [entered]
    exact h.of_same (fun _ => rfl) rfl
  | close =>
    have entered : w.enter ledger .close = ledger := stays
    rw [entered]
    exact h.of_same (fun _ => rfl) rfl

end Moving

/-! ### Runs -/

def Passes (operations : List Operation) (now : Instant) : Prop :=
  .process now ∈ operations ∨ ∃ millis, .wait millis now ∈ operations

/-- What has to have happened for a notification to be at a place. -/
def Justifies (target : Option DeliveryTarget) (operations : List Operation) (n : Notification) :
    Place → Prop
  | .queued => True
  | .handed _ => target.isSome = true
  | .expired now => Passes operations now ∧ n.expiresAt ≤ now
  | .cleared => .clear n.channel ∈ operations ∨ .clearAll ∈ operations
  | .discarded => target = none ∧ ∃ now, Passes operations now

variable {target : Option DeliveryTarget} {operations : List Operation} {n : Notification}
  {place : Place}

theorem Passes.snoc {now : Instant} (h : Passes operations now) (last : Operation) :
    Passes (operations ++ [last]) now := by
  rcases h with processed | ⟨millis, waited⟩
  · exact .inl (List.mem_append_left _ processed)
  · exact .inr ⟨millis, List.mem_append_left _ waited⟩

theorem Justifies.snoc (h : Justifies target operations n place) (last : Operation) :
    Justifies target (operations ++ [last]) n place := by
  cases place with
  | queued => trivial
  | handed _ => exact h
  | expired now => exact ⟨h.1.snoc last, h.2⟩
  | cleared => exact h.imp (List.mem_append_left _) (List.mem_append_left _)
  | discarded =>
    obtain ⟨without, now, passes⟩ := h
    exact ⟨without, now, passes.snoc last⟩

section Runs

variable [ZoneDatabase] {w : QueueWorker} {ledger : Ledger}

/-- The notifications that were accepted in a run, in order. -/
def acceptedIn (w : QueueWorker) : List Operation → List Notification
  | [] => []
  | operation :: later => (w.accepts? operation).toList ++ (w.perform operation).acceptedIn later

theorem justifies_pass {now : Instant} (passes : Passes operations now) (n : Notification) :
    Justifies w.target operations n ((w.passMove now).place n) := by
  unfold passMove
  rw [Move.place_pass]
  by_cases live : n.isLive now = true
  · rw [if_pos live]
    by_cases quiet : isQuiet w.quiet now = true
    · rw [if_pos quiet]
      trivial
    · rw [if_neg quiet]
      cases given : w.target with
      | none => exact ⟨rfl, now, passes⟩
      | some target => exact rfl
  · rw [if_neg live]
    have expired : ¬ now < n.expiresAt := by simpa [Notification.isLive] using live
    exact ⟨passes, Instant.not_lt.mp expired⟩

theorem justifies_move (operations : List Operation) (last : Operation) (n : Notification) :
    Justifies w.target (operations ++ [last]) n ((w.move last).place n) := by
  have made : last ∈ operations ++ [last] := List.mem_append_right _ (List.mem_singleton_self last)
  cases last with
  | process now => exact justifies_pass (.inl made) n
  | wait millis now =>
    rw [move_wait]
    split
    · exact justifies_pass (.inr ⟨millis, made⟩) n
    · trivial
  | flush =>
    unfold move
    rw [Move.place_all]
    split
    · next given => exact given
    · trivial
  | clear name =>
    unfold move
    rw [Move.place_all]
    split
    · next here => exact .inl (here ▸ made)
    · trivial
  | clearAll => exact .inr made
  | enqueue n now => trivial
  | update quiet => trivial
  | close => trivial

theorem target_perform (w : QueueWorker) (operation : Operation) :
    (w.perform operation).target = w.target := by
  cases operation with
  | process now => exact (w.process_spec now).1
  | wait millis now => exact (w.wait_spec now millis).1
  | flush => exact w.flush_spec.1
  | enqueue n now => rfl
  | clear name => rfl
  | clearAll => rfl
  | update quiet => rfl
  | close => rfl

theorem run_fst (w : QueueWorker) (operations : List Operation) :
    (w.run operations).1 = operations.foldl perform w := by
  induction operations using List.reverseRecOn with
  | nil => rfl
  | append_singleton operations last ih => rw [run_snoc, ih, List.foldl_concat]

theorem acceptedIn_snoc (w : QueueWorker) (operations : List Operation) (last : Operation) :
    w.acceptedIn (operations ++ [last]) =
      w.acceptedIn operations ++ ((w.run operations).1.accepts? last).toList := by
  rw [run_fst]
  induction operations generalizing w with
  | nil => simp [acceptedIn]
  | cons operation later ih => simp [acceptedIn, ih]

theorem target_run (w : QueueWorker) (operations : List Operation) :
    (w.run operations).1.target = w.target := by
  induction operations using List.reverseRecOn with
  | nil => rfl
  | append_singleton operations last ih => rw [run_snoc, target_perform, ih]

theorem accepted_enter (operation : Operation) :
    (w.enter ledger operation).accepted = ledger.accepted ++ (w.accepts? operation).toList := by
  unfold enter
  cases w.accepts? operation with
  | none => simp
  | some n => simp [Ledger.accept, Ledger.accepted, Ledger.move]

theorem justified_enter (h : ∀ entry ∈ ledger, Justifies w.target operations entry.1 entry.2)
    (last : Operation) : ∀ entry ∈ w.enter ledger last,
      Justifies w.target (operations ++ [last]) entry.1 entry.2 := by
  have moved : ∀ entry ∈ ledger.move (w.move last),
      Justifies w.target (operations ++ [last]) entry.1 entry.2 := by
    intro entry member
    obtain ⟨earlier, there, rfl⟩ := List.mem_map.mp member
    dsimp only
    split
    · exact justifies_move operations last earlier.1
    · exact (h earlier there).snoc last
  unfold enter
  split
  · intro entry member
    rcases List.mem_append.mp member with old | new
    · exact moved entry old
    · rw [List.mem_singleton.mp new]
      trivial
  · exact moved

theorem accounts_run (target : Option DeliveryTarget) (capacity tickMillis deadlineMillis : Nat)
    (quiet : QuietHours) (operations : List Operation) :
    let result := (start target capacity tickMillis deadlineMillis quiet).run operations
    result.2.Accounts result.1 := by
  induction operations using List.reverseRecOn with
  | nil => exact Ledger.accounts_start target capacity tickMillis deadlineMillis quiet
  | append_singleton operations last ih =>
    simp only [run_snoc]
    exact accounts_perform ih last

/-- In every run the ledger lists what was accepted, each notification at one place that the run
gives a reason for, and the queues and batches hold exactly what it says. -/
theorem run_accounts (target : Option DeliveryTarget) (capacity tickMillis deadlineMillis : Nat)
    (quiet : QuietHours) (operations : List Operation) :
    let worker := start target capacity tickMillis deadlineMillis quiet
    let result := worker.run operations
    result.2.accepted = worker.acceptedIn operations ∧
      (∀ entry ∈ result.2, Justifies target operations entry.1 entry.2) ∧
      result.2.Accounts result.1 := by
  intro worker
  -- by induction on the run from its end: each operation keeps worker and ledger in agreement
  induction operations using List.reverseRecOn with
  | nil =>
    refine ⟨rfl, fun entry none => absurd none List.not_mem_nil, ?_⟩
    exact Ledger.accounts_start target capacity tickMillis deadlineMillis quiet
  | append_singleton operations last ih =>
    obtain ⟨listed, justified, accounts⟩ := ih
    have same : (worker.run operations).1.target = target := worker.target_run operations
    rw [run_snoc]
    refine ⟨?_, ?_, accounts_perform accounts last⟩
    · rw [accepted_enter, acceptedIn_snoc, listed]
    · rw [← same] at justified ⊢
      exact justified_enter justified last

end Runs

end QueueWorker

end AlertAdmission
