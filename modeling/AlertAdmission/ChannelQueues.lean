import AlertAdmission.Fault
import AlertAdmission.Notification
import AlertAdmission.QuietHours
import AlertAdmission.Table

/-!
Queues of notifications, one for each channel and of bounded length.

A pass drops what has expired and, outside of quiet hours, hands out the rest of every channel as
one batch. A flush hands out everything as a single batch. `ofChannel` is the view through which
each operation is described.
-/

namespace AlertAdmission

/-- The queued notifications of each channel that has a queue. -/
abbrev ChannelQueues := Table (List Notification)

/-- Notifications handed out together, with the channel they are from. -/
abbrev Batch := String × List Notification

namespace ChannelQueues

def empty : ChannelQueues := Table.empty

/-- The notifications queued for a channel, the oldest first. -/
def ofChannel (queues : ChannelQueues) (channel : String) : List Notification :=
  (queues.get? channel).getD []

def count (queues : ChannelQueues) (channel : String) : Nat := (queues.ofChannel channel).length

def counts (queues : ChannelQueues) : List (String × Nat) :=
  (queues.map fun _ queue => queue.length).toList

/-- Puts a notification at the end of the queue of its channel. The channel has a queue from then
on, even where the queue is full and the notification is refused. -/
def enqueue (queues : ChannelQueues) (capacity : Nat) (n : Notification) (now : Instant) :
    ChannelQueues × Except Fault Unit :=
  let queue := queues.ofChannel n.channel
  if capacity ≤ queue.length then
    (queues.insert n.channel queue, .error (.queueFull n.channel capacity))
  else (queues.insert n.channel (queue ++ [n.stamp now]), .ok ())

/-- The instants that are worked out to put a notification into the queue of its channel: its
expiry, unless the queue is full. -/
def reach (queues : ChannelQueues) (capacity : Nat) (n : Notification) (now : Instant) :
    List Instant :=
  if capacity ≤ queues.count n.channel then [] else [(n.stamp now).expiresAt]

def clear (queues : ChannelQueues) (channel : String) : ChannelQueues := queues.erase channel

/-- The queues without expired notifications, and without those that are empty then. -/
def live (queues : ChannelQueues) (now : Instant) : ChannelQueues :=
  let alive := queues.map fun _ queue => queue.filter fun n => n.isLive now
  alive.filter fun _ queue => !queue.isEmpty

def isQuiet [ZoneDatabase] (quiet : QuietHours) (now : Instant) : Bool :=
  (quiet.check .info now).suppresses

/-- The queues after a pass, and the batches it hands out in order of their channels. -/
def pass [ZoneDatabase] (queues : ChannelQueues) (quiet : QuietHours) (now : Instant) :
    ChannelQueues × List Batch :=
  if isQuiet quiet now then (queues.live now, []) else (empty, (queues.live now).toList)

def everything (queues : ChannelQueues) : List Notification := queues.values.flatten

/-! ### What a channel has after each operation -/

@[simp] theorem ofChannel_empty (channel : String) : empty.ofChannel channel = [] := rfl

theorem ofChannel_insert (queues : ChannelQueues) (name channel : String)
    (queue : List Notification) :
    ChannelQueues.ofChannel (queues.insert name queue) channel =
      if channel = name then queue else queues.ofChannel channel := by
  unfold ofChannel
  rw [Table.get?_insert]
  split <;> rfl

/-- A full queue keeps what it has; any other queue of the channel gets one more at its end. -/
theorem ofChannel_enqueue (queues : ChannelQueues) (capacity : Nat) (n : Notification)
    (now : Instant) (channel : String) :
    (queues.enqueue capacity n now).1.ofChannel channel =
      if channel = n.channel ∧ (queues.ofChannel n.channel).length < capacity
      then queues.ofChannel channel ++ [n.stamp now] else queues.ofChannel channel := by
  simp only [enqueue]
  split
  · rw [ofChannel_insert]
    by_cases h : channel = n.channel
    · subst h; simp; omega
    · simp [h]
  · rw [ofChannel_insert]
    by_cases h : channel = n.channel
    · subst h; simp; omega
    · simp [h]

theorem ofChannel_clear (queues : ChannelQueues) (name channel : String) :
    (queues.clear name).ofChannel channel =
      if channel = name then [] else queues.ofChannel channel := by
  unfold ofChannel clear
  rw [Table.get?_erase]
  split <;> rfl

theorem ofChannel_live (queues : ChannelQueues) (now : Instant) (channel : String) :
    (queues.live now).ofChannel channel =
      (queues.ofChannel channel).filter fun n => n.isLive now := by
  unfold live ofChannel
  rw [Table.get?_filter, Table.get?_map]
  cases queues.get? channel with
  | none => rfl
  | some queue =>
    cases h : queue.filter fun n => n.isLive now with
    | nil => simp [Option.filter, h]
    | cons a rest => simp [Option.filter, h]

/-- Dropping what has expired twice at one instant is dropping it once. -/
theorem live_live (queues : ChannelQueues) (now : Instant) :
    (queues.live now).live now = queues.live now := by
  apply Table.ext_get?
  intro name
  unfold live
  rw [Table.get?_filter, Table.get?_map, Table.get?_filter, Table.get?_map]
  cases queues.get? name with
  | none => rfl
  | some queue =>
    by_cases h : (queue.filter fun n => n.isLive now) = []
    · simp [Option.filter, h]
    · simp [Option.filter, h, List.filter_filter]

/-- Of passes at one instant all but the first find nothing to do. -/
theorem pass_pass [ZoneDatabase] (queues : ChannelQueues) (quiet : QuietHours) (now : Instant) :
    (queues.pass quiet now).1.pass quiet now = ((queues.pass quiet now).1, []) := by
  unfold pass
  split
  · rw [live_live]
  · rfl

end ChannelQueues

end AlertAdmission
