import AlertAdmission.Proofs.Admission.Digests
import AlertAdmission.Proofs.Throttle.Suppressed
import AlertAdmission.Simulation

/-!
Reports of simulations add up.

The counters of a simulation, its gates and its queue are kept apart, and the report is put together
from all of them. `Counts` says how they agree after any number of alerts; each alert keeps them in
agreement, whatever becomes of it.
-/

namespace AlertAdmission

namespace Gates

variable {g : Gates} {c : StormConfig} {a : Arrival} {call : ThrottleCall}

/-- What the throttle makes of an alert with a limit, by what becomes of it: a storm keeps it from
the throttle, and every other fate goes with a decision. -/
def Decides (g after : Gates) (call : ThrottleCall) : Admission → Prop
  | .droppedByStorm => after.throttle = g.throttle
  | .droppedByThrottle _ =>
    after.throttle = g.throttle.afterCall call ∧ (g.throttle.decision call).denials = 1
  | .deliver | .deferred _ =>
    after.throttle = g.throttle.afterCall call ∧ (g.throttle.decision call).denials = 0

theorem decides_arrive [ZoneDatabase] (called : a.call? = some call) :
    Decides g (g.arrive c a).1 call (g.arrive c a).2 := by
  cases passes : (g.storm.record c a.now).2 with
  | false =>
    rw [arrive_of_storm passes]
    rfl
  | true =>
    rw [arrive_of_called passes called]
    cases decision : g.throttle.decision call with
    | denied _ _ _ => exact ⟨rfl, by rw [decision]; rfl⟩
    | allowed =>
      obtain ⟨fate, _, throttle, _⟩ := passQuietHours_spec
        ⟨(g.storm.record c a.now).1, g.throttle.afterCall call, g.held⟩ g a rfl
      have none : (g.throttle.decision call).denials = 0 := by rw [decision]; rfl
      have admitted := isAdmitted_quietFate a
      rw [← fate] at admitted
      dsimp only [ThrottleDecision.reason?]
      revert throttle admitted
      generalize passQuietHours _ _ _ _ = result
      intro throttle admitted
      cases reached : result.2 with
      | deliver => exact ⟨throttle, none⟩
      | deferred reason => exact ⟨throttle, none⟩
      | droppedByStorm =>
        rw [reached] at admitted
        cases admitted
      | droppedByThrottle reason =>
        rw [reached] at admitted
        cases admitted

end Gates

namespace ChannelQueues

/-- A queue that has as much of what was offered as it can hold goes on to do so. -/
theorem enqueue_spec (queues : ChannelQueues) (capacity : Nat) (n : Notification) (now : Instant)
    {offered : Nat} (filled : queues.count n.channel = min offered capacity) :
    (queues.enqueue capacity n now).1.count n.channel = min (offered + 1) capacity ∧
      ((queues.enqueue capacity n now).2 = .ok () ↔ offered < capacity) := by
  unfold count at filled ⊢
  rw [ofChannel_enqueue, filled]
  unfold enqueue
  dsimp only
  rw [filled]
  by_cases room : offered < capacity
  · rw [if_pos ⟨rfl, by omega⟩, if_neg (by omega), List.length_append, filled]
    exact ⟨by simp only [List.length_cons, List.length_nil]; omega, by simp [room]⟩
  · rw [if_neg (by omega), if_pos (by omega), filled]
    exact ⟨by omega, by simp [room]⟩

end ChannelQueues

namespace Throttle

variable {rule : String} {limit : RateLimit} {asked denied : Nat} {t : Throttle}

/-- A throttle that was asked about alerts of one rule under one limit. The rule has state once it
was asked under a limit that is turned on, and counts each alert that was denied. -/
inductive OfRule (rule : String) (limit : RateLimit) (asked denied : Nat) : Throttle → Prop where
  | unused (unasked : limit.isEnabled → asked = 0) (none : denied = 0) :
    OfRule rule limit asked denied empty
  | used (enabled : limit.isEnabled) (some : 0 < asked) (r : RuleState) (own : r.limit = limit)
    (counted : r.allSuppressed = denied) :
    OfRule rule limit asked denied (Table.empty.insert rule r)

theorem ofRule_empty : OfRule rule limit 0 0 empty := .unused (fun _ => rfl) rfl

theorem OfRule.call (h : OfRule rule limit asked denied t) {call : ThrottleCall}
    (own : call.rule = rule) (under : call.limit = limit) :
    OfRule rule limit (asked + 1) (denied + (t.decision call).denials) (t.afterCall call) := by
  by_cases enabled : call.limit.isEnabled
  · obtain ⟨decision, after⟩ := t.call_of_enabled enabled
    have added := (t.rule call.rule call.limit call.now).allSuppressed_offer call.group call.limit
      call.now
    have limited : (t.ruleAfter call).1.limit = call.limit := RuleState.limit_offer _ _ _ _
    have on : limit.isEnabled := under ▸ enabled
    have total : (t.ruleAfter call).1.allSuppressed = denied + (t.decision call).denials := by
      rw [decision]
      refine added.trans (congrArg (· + _) ?_)
      cases h with
      | unused _ none => exact none.symm
      | used _ _ r _ counted =>
        rw [Throttle.rule, Table.get?_insert, if_pos own]
        exact counted
    have single : t.afterCall call = Table.empty.insert rule (t.ruleAfter call).1 := by
      rw [after, own]
      apply Table.ext_get?
      intro name
      rw [Table.get?_insert, Table.get?_insert]
      split
      · rfl
      · next other =>
        cases h with
        | unused _ _ => rfl
        | used _ _ r _ _ => rw [Table.get?_insert, if_neg other]
    rw [single]
    exact .used on (Nat.succ_pos _) _ (limited.trans under) total
  · obtain ⟨passes, same⟩ := t.decision_of_disabled enabled
    rw [passes, same]
    cases h with
    | unused _ none => exact .unused (fun on => absurd (under ▸ on) enabled) none
    | used on _ _ _ _ => exact absurd (under ▸ on) enabled

theorem OfRule.summary_isSome (h : OfRule rule limit asked denied t) (now : Instant) :
    (t.summary? rule now).isSome ↔ limit.isEnabled ∧ 0 < asked := by
  unfold summary?
  cases h with
  | unused unasked _ =>
    refine iff_of_false Bool.false_ne_true ?_
    rintro ⟨on, some⟩
    exact Nat.ne_of_gt some (unasked on)
  | used on some r _ _ =>
    rw [Table.get?_insert, if_pos rfl]
    exact iff_of_true rfl ⟨on, some⟩

theorem OfRule.totalSuppressed (h : OfRule rule limit asked denied t) {now : Instant}
    {summary : RuleSummary} (shown : summary ∈ t.summary? rule now) :
    summary.totalSuppressed = denied := by
  unfold summary? at shown
  cases h with
  | unused _ _ => cases shown
  | used _ _ r _ counted =>
    rw [Table.get?_insert, if_pos rfl] at shown
    cases shown
    rw [r.totalSuppressed_summary, counted]

/-- A publisher that takes everything is offered one event, if anything was denied. -/
theorem OfRule.published (h : OfRule rule limit asked denied t) (now : Instant) :
    ((t.publish Simulation.takeAll now).2.filter Prod.snd).length =
      if 0 < denied then 1 else 0 := by
  cases h with
  | unused _ none => rw [none]; rfl
  | used _ _ r _ counted =>
    have told : (r.summary rule now).totalSuppressed = denied :=
      (r.totalSuppressed_summary rule now).trans counted
    have names : Table.names (Table.empty.insert rule r) = [rule] := rfl
    unfold publish
    rw [names, List.foldl_cons, List.foldl_nil]
    unfold publishRule event? summary?
    dsimp only
    rw [Table.get?_insert, if_pos rfl, Option.map_some]
    dsimp only
    rw [told]
    by_cases none : denied = 0
    · rw [if_pos none, none]
      rfl
    · rw [if_neg none, if_pos (Nat.pos_of_ne_zero none)]
      rfl

end Throttle

structure SimulationReport.AddsUp (r : SimulationReport) (s : Simulation) (settings : Settings) :
    Prop where
  events : r.events = s.events
  fates : r.delivered + r.droppedByStorm + r.droppedByThrottle + r.deferred = s.events
  digests : (r.digests.map Digest.alertCount).sum = r.deferred
  rejected : r.queueRejected = r.deferred - min r.deferred settings.queue.maxQueueSize.toNat
  summarized : r.throttle.isSome ↔ s.limit.isEnabled ∧ r.droppedByStorm < s.events
  suppressed : ∀ summary ∈ r.throttle, summary.totalSuppressed = r.droppedByThrottle
  published : r.summariesPublished = if 0 < r.droppedByThrottle then 1 else 0

namespace Simulation

variable {s : Simulation} {settings : Settings} {quiet : Option QuietHours}
  {state final : SimulationState} {capacity alerts number : Nat}

/-- The counters of so many simulated alerts, and the gates and the queue that go with them. -/
structure Counts (s : Simulation) (capacity alerts : Nat) (state : SimulationState) : Prop where
  fates : state.delivered + state.droppedByStorm + state.droppedByThrottle + state.deferred = alerts
  held : ∃ held, state.gates.held.Holds held ∧ held.length = state.deferred
  queued : state.queues.count channel = min state.deferred capacity
  rejected : state.queueRejected = state.deferred - min state.deferred capacity
  throttled : Throttle.OfRule s.rule s.limit
    (state.delivered + state.droppedByThrottle + state.deferred) state.droppedByThrottle
    state.gates.throttle

theorem counts_initial (s : Simulation) (capacity : Nat) : s.Counts capacity 0 s.initial where
  fates := rfl
  held := ⟨[], HeldAlerts.holds_nothing, rfl⟩
  queued := (Nat.zero_min capacity).symm
  rejected := (Nat.zero_sub _).symm
  throttled := Throttle.ofRule_empty

/-- An alert that is not deferred leaves the held alerts and the queue as they are. -/
theorem Counts.undeferred (h : s.Counts capacity alerts state) {gates : Gates}
    {delivered byStorm byThrottle : Nat}
    (fates : delivered + byStorm + byThrottle + state.deferred = alerts + 1)
    (holds : ∀ held, state.gates.held.Holds held → gates.held.Holds (held ++ []))
    (throttled : Throttle.OfRule s.rule s.limit (delivered + byThrottle + state.deferred) byThrottle
      gates.throttle) :
    s.Counts capacity (alerts + 1) { state with
      gates := gates
      delivered := delivered
      droppedByStorm := byStorm
      droppedByThrottle := byThrottle } where
  fates := fates
  held := by
    obtain ⟨held, before, length⟩ := h.held
    exact ⟨held, List.append_nil held ▸ holds held before, length⟩
  queued := h.queued
  rejected := h.rejected
  throttled := throttled

/-- A deferred alert is held, and is put into the queue unless it is full. -/
theorem Counts.deferred (h : s.Counts capacity alerts state) {gates : Gates} {d : HeldAlert}
    (holds : ∀ held, state.gates.held.Holds held → gates.held.Holds (held ++ [d]))
    (throttled : Throttle.OfRule s.rule s.limit
      (state.delivered + state.droppedByThrottle + state.deferred + 1) state.droppedByThrottle
      gates.throttle) {n : Notification} (own : n.channel = channel) (reason : String) :
    s.Counts capacity (alerts + 1)
      (tally { state with gates := gates } capacity n (.deferred reason)) := by
  have queued := h.queued
  rw [← own] at queued
  obtain ⟨count, accepted⟩ := state.queues.enqueue_spec capacity n state.now queued
  have rejected := h.rejected
  constructor
  case fates => exact congrArg (· + 1) h.fates
  case held =>
    obtain ⟨held, before, length⟩ := h.held
    exact ⟨_, holds held before, by rw [List.length_append, length]; rfl⟩
  case queued => exact own ▸ count
  case rejected =>
    unfold Simulation.tally
    dsimp only
    by_cases room : state.deferred < capacity
    · rw [accepted.mpr room]
      dsimp only
      omega
    · cases result : (state.queues.enqueue capacity n state.now).2 with
      | ok _ => exact absurd (accepted.mp result) room
      | error _ =>
        dsimp only
        omega
  case throttled => exact throttled

theorem Counts.tally (h : s.Counts capacity alerts state) {gates : Gates} {a : Arrival}
    {call : ThrottleCall} {fate : Admission} (rule : call.rule = s.rule)
    (limit : call.limit = s.limit) (decides : Gates.Decides state.gates gates call fate)
    (holds : ∀ held, state.gates.held.Holds held →
      gates.held.Holds (held ++ (Received.deferred? ⟨a, fate⟩).toList))
    {n : Notification} (own : n.channel = channel) :
    s.Counts capacity (alerts + 1) (tally { state with gates := gates } capacity n fate) := by
  have fates := h.fates
  have asked := h.throttled.call rule limit
  cases fate with
  | droppedByStorm =>
    have throttle : gates.throttle = state.gates.throttle := decides
    exact h.undeferred (by dsimp only; omega) holds (throttle ▸ h.throttled)
  | deliver =>
    obtain ⟨throttle, none⟩ := decides
    rw [none, ← throttle] at asked
    refine h.undeferred ?_ holds ?_ <;> dsimp only
    · omega
    · convert asked using 1 <;> omega
  | droppedByThrottle reason =>
    obtain ⟨throttle, one⟩ := decides
    rw [one, ← throttle] at asked
    refine h.undeferred ?_ holds ?_ <;> dsimp only
    · omega
    · convert asked using 1
      omega
  | deferred reason =>
    obtain ⟨throttle, none⟩ := decides
    rw [none, ← throttle] at asked
    exact h.deferred holds asked own reason

def arrival (s : Simulation) (quiet : Option QuietHours) (number : Nat) (now : Instant) : Arrival :=
  ⟨s.alert number, some s.limit, quiet, now⟩

/-- The state after the alert of a number, whether or not the instants that it takes have dates. -/
def next [ZoneDatabase] (s : Simulation) (settings : Settings) (quiet : Option QuietHours)
    (state : SimulationState) (number : Nat) : SimulationState :=
  let (gates, admission) := state.gates.arrive settings.storm (s.arrival quiet number state.now)
  { tally { state with gates := gates } settings.queue.maxQueueSize.toNat
      (notification (s.alert number) number) admission with now := state.now + s.spacing }

theorem Counts.next [ZoneDatabase] (h : s.Counts settings.queue.maxQueueSize.toNat alerts state)
    (quiet : Option QuietHours) (number : Nat) :
    s.Counts settings.queue.maxQueueSize.toNat (alerts + 1)
      (s.next settings quiet state number) := by
  have counts := h.tally (a := s.arrival quiet number state.now) rfl rfl
    (Gates.decides_arrive (c := settings.storm) rfl)
    (fun held holds => Gates.holds_arrive holds settings.storm _)
    (n := notification (s.alert number) number) rfl
  exact ⟨counts.fates, counts.held, counts.queued, counts.rejected, counts.throttled⟩

/-! ### Runs -/

theorem step?_eq_some [ZoneDatabase] (h : s.step? settings quiet state number = some final) :
    final = s.next settings quiet state number := by
  unfold step? at h
  dsimp only at h
  split at h
  · exact (Option.some.inj h).symm
  · cases h

theorem Counts.run [ZoneDatabase] {before : Nat}
    (h : s.Counts settings.queue.maxQueueSize.toNat before state)
    (ran : s.run? settings quiet alerts number state = some final) :
    s.Counts settings.queue.maxQueueSize.toNat (before + alerts) final := by
  induction alerts generalizing before number state with
  | zero =>
    cases ran
    exact h
  | succ rest ih =>
    unfold run? at ran
    cases stepped : s.step? settings quiet state number with
    | none =>
      rw [stepped] at ran
      cases ran
    | some after =>
      rw [stepped] at ran
      have counts := h.next quiet number
      rw [← step?_eq_some stepped] at counts
      rw [Nat.add_comm rest 1, ← Nat.add_assoc]
      exact ih counts ran

theorem Counts.addsUp (h : s.Counts settings.queue.maxQueueSize.toNat s.events state) :
    (s.reportOn settings state).AddsUp s settings where
  events := rfl
  fates := h.fates
  digests := by
    obtain ⟨held, holds, length⟩ := h.held
    exact holds.tells.count.trans length
  rejected := h.rejected
  summarized := by
    have fates := h.fates
    refine (h.throttled.summary_isSome state.now).trans (and_congr_right fun _ => ?_)
    unfold reportOn
    dsimp only
    omega
  suppressed := fun _ shown => h.throttled.totalSuppressed shown
  published := h.throttled.published state.now

end Simulation

end AlertAdmission
