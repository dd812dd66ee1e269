import AlertAdmission.Proofs.ChannelQueues.Run

/-!
Ledgers of accepted notifications, and what it means that a worker agrees with one.

A ledger has one entry for each notification that was accepted, in order, and an entry names one
place. A notification leaves the queues once, for the place that the move of that moment gives it,
and stays there. A worker agrees (`Ledger.Accounts`) when its queues and the batches that its target
was handed hold exactly what the ledger says.
-/

namespace AlertAdmission

open ChannelQueues (onChannel)

inductive Place where
  | queued
  /-- In a batch that the target has been handed, counted from the first one. -/
  | handed (batch : Nat)
  /-- Dropped by a pass at an instant. -/
  | expired (pass : Instant)
  | cleared
  /-- Handed out by a pass while there was no target. -/
  | discarded
  deriving DecidableEq

/-- What becomes of the queued notifications at one moment. All of a channel go the same way, but a
pass drops those that have expired. -/
inductive Move where
  | all (goes : String → Place)
  | pass (now : Instant) (goes : String → Place)

namespace Move

def stay : Move := .all fun _ => .queued

def goes : Move → String → Place
  | .all goes, channel => goes channel
  | .pass _ goes, channel => goes channel

def keeps : Move → Notification → Bool
  | .all _, _ => true
  | .pass now _, n => n.isLive now

def place : Move → Notification → Place
  | .all goes, n => goes n.channel
  | .pass now goes, n => if n.isLive now then goes n.channel else .expired now

@[simp] theorem goes_all (goes : String → Place) : (Move.all goes).goes = goes := rfl

@[simp] theorem goes_pass (now : Instant) (goes : String → Place) :
    (Move.pass now goes).goes = goes := rfl

@[simp] theorem keeps_all (goes : String → Place) : (Move.all goes).keeps = fun _ => true := rfl

@[simp] theorem keeps_pass (now : Instant) (goes : String → Place) :
    (Move.pass now goes).keeps = fun n => n.isLive now := rfl

@[simp] theorem place_all (goes : String → Place) (n : Notification) :
    (Move.all goes).place n = goes n.channel := rfl

@[simp] theorem place_pass (now : Instant) (goes : String → Place) (n : Notification) :
    (Move.pass now goes).place n = if n.isLive now then goes n.channel else .expired now := rfl

/-- Of the notifications of a channel all that are kept arrive at one place, and none elsewhere. -/
theorem filter_place (m : Move) {queue : List Notification} {channel : String}
    (own : ∀ n ∈ queue, n.channel = channel) (place : Place) (safe : ∀ t, place ≠ .expired t) :
    (queue.filter fun n => m.place n = place) =
      if m.goes channel = place then queue.filter m.keeps else [] := by
  have pointwise : ∀ n ∈ queue,
      (m.place n = place ↔ m.keeps n = true ∧ m.goes channel = place) := by
    intro n member
    rw [← own n member]
    cases m with
    | all goes => simp
    | pass now goes =>
      cases live : n.isLive now with
      | true => simp [live]
      | false => simpa [live] using Ne.symm (safe now)
  by_cases here : m.goes channel = place
  · rw [if_pos here]
    apply List.filter_congr
    intro n member
    simp [pointwise n member, here]
  · rw [if_neg here, List.filter_eq_nil_iff]
    intro n member
    simp [pointwise n member, here]

end Move

/-- The accepted notifications, each with its place. -/
abbrev Ledger := List (Notification × Place)

namespace Ledger

def accepted (ledger : Ledger) : List Notification := ledger.map Prod.fst

def located (ledger : Ledger) (place : Place) (channel : String) : List Notification :=
  (ledger.filter fun entry => entry.2 = place ∧ entry.1.channel = channel).map Prod.fst

def accept (ledger : Ledger) (n : Notification) : Ledger := ledger ++ [(n, .queued)]

def move (ledger : Ledger) (m : Move) : Ledger :=
  ledger.map fun entry => (entry.1, if entry.2 = .queued then m.place entry.1 else entry.2)

variable {ledger : Ledger} {place : Place} {channel : String} {m : Move}

theorem channel_of_located {n : Notification} (h : n ∈ ledger.located place channel) :
    n.channel = channel := by
  obtain ⟨entry, member, rfl⟩ := List.mem_map.mp h
  have both := (List.mem_filter.mp member).2
  simp only [decide_eq_true_eq] at both
  exact both.2

theorem located_accept (n : Notification) :
    (ledger.accept n).located place channel = ledger.located place channel ++
      if place = .queued ∧ n.channel = channel then [n] else [] := by
  unfold located accept
  rw [List.filter_append, List.map_append]
  congr 1
  by_cases here : place = .queued ∧ n.channel = channel
  · simp [here]
  · rw [if_neg here, List.map_eq_nil_iff, List.filter_eq_nil_iff]
    intro entry member both
    rw [List.mem_singleton.mp member, decide_eq_true_eq] at both
    exact here ⟨both.1.symm, both.2⟩

@[simp] theorem accepted_move : (ledger.move m).accepted = ledger.accepted := by
  simp [accepted, move]

theorem move_stay (ledger : Ledger) : ledger.move .stay = ledger := by
  apply List.map_id''
  rintro ⟨n, place⟩
  by_cases queued : place = .queued
  · rw [queued]
    rfl
  · simp [queued]

theorem located_move : (ledger.move m).located place channel =
    (ledger.filter fun entry => (if entry.2 = .queued then m.place entry.1 else entry.2) = place ∧
      entry.1.channel = channel).map Prod.fst := by
  unfold located move
  rw [List.filter_map, List.map_map]
  rfl

theorem filter_located (keep : Notification → Bool) :
    (ledger.located place channel).filter keep = (ledger.filter fun entry =>
      keep entry.1 && decide (entry.2 = place ∧ entry.1.channel = channel)).map Prod.fst := by
  unfold located
  rw [List.filter_map, List.filter_filter]
  rfl

theorem located_move_queued : (ledger.move m).located .queued channel =
    (ledger.located .queued channel).filter fun n => m.place n = .queued := by
  rw [located_move, filter_located]
  congr 1
  apply List.filter_congr
  rintro ⟨n, place⟩ _
  by_cases queued : place = .queued <;> simp [queued]

theorem located_move_of_avoids (left : place ≠ .queued)
    (avoids : ∀ n ∈ ledger.located .queued channel, m.place n ≠ place) :
    (ledger.move m).located place channel = ledger.located place channel := by
  rw [located_move, located]
  congr 1
  apply List.filter_congr
  rintro ⟨n, current⟩ member
  by_cases queued : current = .queued
  · by_cases own : n.channel = channel
    · have here : n ∈ ledger.located .queued channel :=
        List.mem_map_of_mem (List.mem_filter.mpr ⟨member, by simp [queued, own]⟩)
      simp [queued, avoids n here, Ne.symm left]
    · simp [own]
  · simp [queued]

theorem located_move_of_new (new : ledger.located place channel = []) :
    (ledger.move m).located place channel =
      (ledger.located .queued channel).filter fun n => m.place n = place := by
  rw [located_move, filter_located]
  congr 1
  apply List.filter_congr
  rintro ⟨n, current⟩ member
  have none := List.filter_eq_nil_iff.mp (List.map_eq_nil_iff.mp new) (n, current) member
  by_cases queued : current = .queued
  · simp [queued]
  · simpa [queued] using none

/-- The queues and the batches hold what the ledger says, and for each channel the batches in their
order and then its queue follow the order in which notifications were accepted. -/
structure Accounts (ledger : Ledger) (w : QueueWorker) : Prop where
  queued : ∀ channel, w.queues.ofChannel channel = ledger.located .queued channel
  handed : ∀ k channel,
    onChannel channel ((w.handed[k]?).getD []) = ledger.located (.handed k) channel
  order : ∀ channel, (onChannel channel w.handed.flatten ++ w.queues.ofChannel channel).Sublist
    (onChannel channel ledger.accepted)

variable {w after : QueueWorker}

theorem accounts_start (target : Option DeliveryTarget)
    (capacity tickMillis deadlineMillis : Nat) (quiet : QuietHours) :
    Accounts [] (QueueWorker.start target capacity tickMillis deadlineMillis quiet) where
  queued := fun _ => rfl
  handed := fun _ _ => rfl
  order := fun _ => List.Sublist.refl _

theorem Accounts.filed (h : ledger.Accounts w) : w.queues.Filed := by
  intro channel n member
  rw [h.queued] at member
  exact channel_of_located member

theorem Accounts.of_same (h : ledger.Accounts w)
    (queues : ∀ channel, after.queues.ofChannel channel = w.queues.ofChannel channel)
    (handed : after.handed = w.handed) : ledger.Accounts after where
  queued := fun channel => (queues channel).trans (h.queued channel)
  handed := fun k channel => by rw [handed]; exact h.handed k channel
  order := fun channel => by rw [handed, queues]; exact h.order channel

theorem Accounts.accept (h : ledger.Accounts w) {n : Notification}
    (queues : ∀ channel, after.queues.ofChannel channel =
      w.queues.ofChannel channel ++ if n.channel = channel then [n] else [])
    (handed : after.handed = w.handed) : (ledger.accept n).Accounts after where
  queued := by
    intro channel
    rw [queues, h.queued, located_accept]
    simp
  handed := by
    intro k channel
    rw [handed, h.handed, located_accept]
    simp
  order := by
    intro channel
    have last : onChannel channel [n] = if n.channel = channel then [n] else [] := by
      unfold ChannelQueues.onChannel
      by_cases own : n.channel = channel <;> simp [own]
    rw [handed, queues, accepted, Ledger.accept, List.map_append, ChannelQueues.onChannel_append,
      ← List.append_assoc]
    exact List.Sublist.append (h.order channel) (last ▸ List.Sublist.refl _)

/-- A move is accounted for by what stays queued and what the new batches take of each channel. -/
theorem Accounts.move (h : ledger.Accounts w) (batches : List (List Notification))
    (stays : ∀ channel, after.queues.ofChannel channel =
      if m.goes channel = .queued then (w.queues.ofChannel channel).filter m.keeps else [])
    (grows : after.handed = w.handed ++ batches)
    (takes : ∀ j channel, onChannel channel ((batches[j]?).getD []) =
      if m.goes channel = .handed (w.handed.length + j)
      then (w.queues.ofChannel channel).filter m.keeps else [])
    (fresh : ∀ channel k, m.goes channel = .handed k → w.handed.length ≤ k)
    (order : ∀ channel,
      (onChannel channel batches.flatten ++ after.queues.ofChannel channel).Sublist
        (w.queues.ofChannel channel)) : (ledger.move m).Accounts after where
  queued := by
    intro channel
    rw [stays, located_move_queued, ← h.queued, m.filter_place (h.filed channel) _ (by simp)]
  handed := by
    intro k channel
    rw [grows]
    -- a batch from before the move gains nothing, and a later one was empty until now
    by_cases old : k < w.handed.length
    · rw [List.getElem?_append_left old, h.handed]
      symm
      apply located_move_of_avoids (by simp)
      intro n member
      rw [← h.queued] at member
      have none := m.filter_place (h.filed channel) (.handed k) (by simp)
      rw [if_neg fun goes => absurd (fresh channel k goes) (by omega)] at none
      simpa using List.filter_eq_nil_iff.mp none n member
    · obtain ⟨j, rfl⟩ := Nat.exists_eq_add_of_le (Nat.le_of_not_lt old)
      have none : ledger.located (.handed (w.handed.length + j)) channel = [] := by
        rw [← h.handed, List.getElem?_eq_none (by omega)]
        rfl
      rw [List.getElem?_append_right (by omega), located_move_of_new none, ← h.queued,
        m.filter_place (h.filed channel) _ (by simp), ← takes, Nat.add_sub_cancel_left]
  order := by
    intro channel
    rw [grows, List.flatten_append, ChannelQueues.onChannel_append, List.append_assoc,
      accepted_move]
    exact (List.Sublist.append (List.Sublist.refl _) (order channel)).trans (h.order channel)

theorem Accounts.move_within (h : ledger.Accounts w)
    (within : ∀ channel k, m.goes channel ≠ .handed k)
    (stays : ∀ channel, after.queues.ofChannel channel =
      if m.goes channel = .queued then (w.queues.ofChannel channel).filter m.keeps else [])
    (same : after.handed = w.handed) : (ledger.move m).Accounts after := by
  apply h.move [] stays
  · rw [same, List.append_nil]
  · intro j channel
    rw [if_neg (within channel _)]
    rfl
  · intro channel k goes
    exact absurd goes (within channel k)
  · intro channel
    rw [stays]
    split
    · exact List.filter_sublist
    · exact List.nil_sublist _

end Ledger

end AlertAdmission
