import AlertAdmission.ChannelQueues.Worker
import Mathlib.Data.List.Nodup
import Mathlib.Data.List.Induction

/-!
Runs of the worker of the channel queues, and what one operation does to the queues and to the
batches that the target has been handed.

A pass is made by hand or when a tick comes while someone waits; both take the instant at which the
clock stands, and nothing is assumed about the order of these instants.
-/

namespace AlertAdmission

namespace ChannelQueues

/-- Every notification is in the queue of its own channel. -/
def Filed (queues : ChannelQueues) : Prop :=
  ∀ channel, ∀ n ∈ queues.ofChannel channel, n.channel = channel

def onChannel (channel : String) (notifications : List Notification) : List Notification :=
  notifications.filter fun n => n.channel = channel

@[simp] theorem onChannel_nil (channel : String) : onChannel channel [] = [] := rfl

@[simp] theorem onChannel_append (channel : String) (l m : List Notification) :
    onChannel channel (l ++ m) = onChannel channel l ++ onChannel channel m :=
  List.filter_append l m

variable {queues : ChannelQueues}

theorem Filed.live (h : queues.Filed) (now : Instant) : (queues.live now).Filed := by
  intro channel n member
  rw [ofChannel_live] at member
  exact h channel n (List.mem_filter.mp member).1

theorem onChannel_of_own {name : String} {queue : List Notification}
    (own : ∀ n ∈ queue, n.channel = name) (channel : String) :
    onChannel channel queue = if channel = name then queue else [] := by
  by_cases same : channel = name
  · rw [if_pos same]
    exact List.filter_eq_self.mpr fun n hn => by simpa [same] using own n hn
  · rw [if_neg same]
    exact List.filter_eq_nil_iff.mpr fun n hn => by simpa [own n hn] using Ne.symm same

theorem ofChannel_of_mem {name : String} {queue : List Notification}
    (member : (name, queue) ∈ queues.toList) : queues.ofChannel name = queue := by
  simp [ofChannel, (queues.mem_toList_iff name queue).mp member]

theorem Filed.own (h : queues.Filed) {name : String} {queue : List Notification}
    (member : (name, queue) ∈ queues.toList) :
    queues.ofChannel name = queue ∧ ∀ n ∈ queue, n.channel = name := by
  have queued := ofChannel_of_mem member
  refine ⟨queued, fun n hn => ?_⟩
  rw [← queued] at hn
  exact h name n hn

theorem Filed.onChannel_everything (h : queues.Filed) (channel : String) :
    onChannel channel queues.everything = queues.ofChannel channel := by
  have own : ∀ entry ∈ queues.toList, ∀ n ∈ entry.2, n.channel = entry.1 :=
    fun entry member => (h.own member).2
  have ordered := queues.ordered
  unfold everything Table.values ofChannel Table.get?
  generalize queues.toList = l at own ordered
  induction l with
  | nil => rfl
  | cons head rest ih =>
    obtain ⟨name, queue⟩ := head
    have tail := ih (fun entry member => own entry (List.mem_cons_of_mem _ member)) ordered.of_cons
    rw [List.map_cons, List.flatten_cons, onChannel_append, tail, Table.lookup_pair,
      onChannel_of_own (own (name, queue) List.mem_cons_self)]
    by_cases same : channel = name
    · subst same
      have none := Table.lookup_eq_none_of_forall_lt (List.pairwise_cons.mp ordered).1
      rw [if_pos rfl, if_pos rfl, none]
      simp
    · simp [same]

theorem ofChannel_of_absent {channel : String} (absent : channel ∉ queues.names) :
    queues.ofChannel channel = [] := by
  rw [Table.mem_names_iff, Option.not_isSome_iff_eq_none] at absent
  rw [ofChannel, absent, Option.getD_none]

/-- The queue of a channel has one place among all queues, and no other queue has any of it. -/
theorem Filed.onChannel_values (h : queues.Filed) (channel : String) (j : Nat) :
    onChannel channel ((queues.values[j]?).getD []) =
      if queues.names.idxOf channel = j then queues.ofChannel channel else [] := by
  have name? : queues.names[j]? = (queues.toList[j]?).map Prod.fst := List.getElem?_map
  have queue? : queues.values[j]? = (queues.toList[j]?).map Prod.snd := List.getElem?_map
  rw [queue?]
  cases found : queues.toList[j]? with
  | none =>
    rw [found] at name?
    have past : queues.names.length ≤ j := List.getElem?_eq_none_iff.mp name?
    by_cases there : queues.names.idxOf channel = j
    · have absent : channel ∉ queues.names := by
        intro member
        have := List.idxOf_lt_length_of_mem member
        omega
      simp [ofChannel_of_absent absent]
    · simp [there]
  | some entry =>
    obtain ⟨name, queue⟩ := entry
    obtain ⟨queued, own⟩ := h.own (List.mem_of_getElem? found)
    rw [found] at name?
    obtain ⟨inside, at_j⟩ := List.getElem?_eq_some_iff.mp name?
    have position : queues.names.idxOf name = j := by
      have unique := queues.names_nodup.idxOf_getElem j inside
      rwa [at_j] at unique
    rw [Option.map_some, Option.getD_some, onChannel_of_own own]
    by_cases same : channel = name
    · rw [if_pos same, same, if_pos position, queued]
    · rw [if_neg same, if_neg]
      intro there
      have both : queues.names[queues.names.idxOf channel]? = some name := by
        rw [there]
        exact name?
      rw [List.getElem?_idxOf] at both
      · exact same (Option.some.inj both)
      · rw [← List.idxOf_lt_length_iff, there]
        exact inside

end ChannelQueues

def DeliveryEvent.handed? (e : DeliveryEvent) : Option (List Notification) :=
  if e.stage = .attempted then some e.batch else none

namespace QueueWorker

/-- The batches that have been handed over, which is dispatched, to the target, in that order. -/
def handed (w : QueueWorker) : List (List Notification) :=
  (w.events.filterMap DeliveryEvent.handed?).reverse

/-- What may happen to a worker, with the instant at which the clock stands where it is read. -/
inductive Operation where
  | enqueue (n : Notification) (now : Instant)
  | process (now : Instant)
  | wait (millis : Nat) (now : Instant)
  | flush
  | clear (channel : String)
  | clearAll
  | update (quiet : QuietHours)
  | close

def perform [ZoneDatabase] (w : QueueWorker) : Operation → QueueWorker
  | .enqueue n now => (w.enqueue n now).1
  | .process now => w.process now
  | .wait millis now => w.wait millis now
  | .flush => w.flush.1
  | .clear channel => { w with queues := w.queues.clear channel }
  | .clearAll => { w with queues := ChannelQueues.empty }
  | .update quiet => { w with quiet := quiet }
  | .close => w.close

/-- Whether a tick comes while someone waits. -/
def ticksWithin (w : QueueWorker) (millis : Nat) : Bool :=
  !w.isClosed && w.nextTick ≤ w.time + millis

variable (w : QueueWorker) (now : Instant)

@[simp] theorem queues_settle : w.settle.queues = w.queues := rfl

@[simp] theorem target_settle : w.settle.target = w.target := rfl

@[simp] theorem handed_settle : w.settle.handed = w.handed := by
  unfold handed settle
  rw [List.filterMap_append, List.filterMap_eq_nil_iff.mpr, List.nil_append]
  intro e member
  obtain ⟨delivery, _, rfl⟩ := List.mem_map.mp (List.mem_reverse.mp member)
  rfl

theorem handed_handOver (target : DeliveryTarget) (key : String) (batch : List Notification) :
    (w.handOver target key batch).1.handed = w.handed ++ [batch] := by
  simp [handOver, handed, DeliveryEvent.handed?]

theorem dispatchOne_spec (target : DeliveryTarget) (batch : Batch) :
    (w.dispatchOne target batch).queues = w.queues ∧
      (w.dispatchOne target batch).target = w.target ∧
      (w.dispatchOne target batch).handed = w.handed ++ [batch.2] :=
  ⟨rfl, rfl, w.handed_handOver target batch.1 batch.2⟩

theorem dispatchAll_spec (target : DeliveryTarget) (batches : List Batch) :
    let after := batches.foldl (fun w batch => w.dispatchOne target batch) w
    after.queues = w.queues ∧ after.target = w.target ∧
      after.handed = w.handed ++ batches.map Prod.snd := by
  induction batches generalizing w with
  | nil => exact ⟨rfl, rfl, (List.append_nil _).symm⟩
  | cons first rest ih =>
    obtain ⟨queues, same, handed⟩ := w.dispatchOne_spec target first
    obtain ⟨queues', same', handed'⟩ := ih (w.dispatchOne target first)
    refine ⟨queues'.trans queues, same'.trans same, ?_⟩
    rw [List.foldl_cons, handed', handed, List.map_cons, List.append_assoc]
    rfl

theorem dispatch_spec (batches : List Batch) :
    (w.dispatch batches).queues = w.queues ∧ (w.dispatch batches).target = w.target ∧
      (w.dispatch batches).handed =
        w.handed ++ if w.target.isSome then batches.map Prod.snd else [] := by
  unfold dispatch
  split
  · next none => simp [none]
  · next target given =>
    obtain ⟨queues, same, batches⟩ := w.dispatchAll_spec target batches
    rw [given, Option.isSome_some, if_pos rfl]
    exact ⟨queues, same.trans given, batches⟩

/-- Handing out batches leaves everything but the calls, the deliveries and the events. -/
theorem dispatch_frame (batches : List Batch) : ∃ calls running events,
    w.dispatch batches = { w with calls := calls, running := running, events := events } := by
  have all : ∀ target, ∃ calls running events,
      batches.foldl (fun w batch => w.dispatchOne target batch) w =
        { w with calls := calls, running := running, events := events } := by
    intro target
    induction batches generalizing w with
    | nil => exact ⟨_, _, _, rfl⟩
    | cons first rest ih => exact ih (w.dispatchOne target first)
  rcases Option.eq_none_or_eq_some w.target with none | ⟨target, given⟩
  · have nothing : w.dispatch batches = w := by
      unfold dispatch
      rw [none]
    exact ⟨_, _, _, nothing⟩
  · have each : w.dispatch batches =
        batches.foldl (fun w batch => w.dispatchOne target batch) w := by
      unfold dispatch
      rw [given]
    rw [each]
    exact all target

/-- A pass leaves the queues and hands out the batches of `ChannelQueues.pass`; without a target
these go nowhere. -/
theorem process_spec [ZoneDatabase] : (w.process now).target = w.target ∧
    (w.process now).queues = (w.queues.pass w.quiet now).1 ∧
    (w.process now).handed = w.handed ++
      if w.target.isSome then (w.queues.pass w.quiet now).2.map Prod.snd else [] := by
  obtain ⟨queues, same, handed⟩ :=
    dispatch_spec { w with queues := (w.queues.pass w.quiet now).1 } (w.queues.pass w.quiet now).2
  unfold process
  rw [target_settle, queues_settle, handed_settle]
  exact ⟨same, queues, handed⟩

/-- Whoever waits for ticks sees one pass at the most. -/
theorem wait_spec [ZoneDatabase] (millis : Nat) :
    (w.wait millis now).target = w.target ∧
      (w.wait millis now).queues =
        (if w.ticksWithin millis then w.process now else w).queues ∧
      (w.wait millis now).handed =
        (if w.ticksWithin millis then w.process now else w).handed := by
  obtain ⟨target, queues, handed⟩ := w.process_spec now
  obtain ⟨target', queues', handed'⟩ := process_spec { w with time := w.nextTick } now
  unfold wait
  rw [target_settle, queues_settle, handed_settle]
  unfold ticksWithin
  split
  · exact ⟨target', queues'.trans queues.symm, handed'.trans handed.symm⟩
  · exact ⟨rfl, rfl, rfl⟩

/-- Whatever the reply, a flush empties the queues into one batch. Without a target it leaves
them. -/
theorem flush_spec : w.flush.1.target = w.target ∧
    w.flush.1.queues = (if w.target.isSome then ChannelQueues.empty else w.queues) ∧
    w.flush.1.handed = w.handed ++
      if w.target.isSome ∧ w.queues.everything ≠ [] then [w.queues.everything] else [] := by
  have handedOver : ∀ (target : DeliveryTarget) (batch : List Notification),
      (({ w with queues := ChannelQueues.empty } : QueueWorker).handOver target flushKey
        batch).1.handed = w.handed ++ [batch] :=
    fun target batch => handed_handOver _ target flushKey batch
  unfold flush
  split
  · next none => simp [none]
  · next target given =>
    have present : w.target.isSome = true := by rw [given]; rfl
    rw [if_pos present]
    dsimp only
    split
    · next nothing =>
      rw [if_neg (by simp [nothing]), List.append_nil]
      exact ⟨rfl, rfl, rfl⟩
    · next batch some =>
      rw [if_pos ⟨present, some⟩]
      -- replies differ in how long the worker waits, and in nothing that counts here
      split
      · exact ⟨rfl, rfl, (handed_settle _).trans (handedOver target _)⟩
      · exact ⟨rfl, rfl, (handed_settle _).trans (handedOver target _)⟩

end QueueWorker

end AlertAdmission
