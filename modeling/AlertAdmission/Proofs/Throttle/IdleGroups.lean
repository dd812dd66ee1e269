import AlertAdmission.Proofs.Throttle.Drift
import AlertAdmission.Proofs.Throttle.Status
import AlertAdmission.Proofs.Time.Difference

/-!
Idle groups do not stay.

A rule drops its idle groups at most once in a window, and whatever happens to a group in between
leaves it with something to report or with an alert newer than the start of the window that was
looked at last (`RuleState.Swept`). The last look is less than a window ago after every call, so no
group is held for more than two windows after its last alert, unless it has something to report
(`Throttle.held_groups_alive`). Within a leap second that does not end its day, the time since the
last look can come out a second short.
-/

namespace AlertAdmission

theorem RateLimit.second_le_window {limit : RateLimit} (enabled : limit.isEnabled) :
    1000000000 ≤ limit.window := by
  simp only [isEnabled, Bool.and_eq_true, decide_eq_true_eq] at enabled
  have whole : 0 < limit.periodSeconds.toNat := enabled.2
  unfold window windowLength Span.ofSeconds longestWindow
  split <;> lia

/-! ### One group -/

namespace GroupWindow

/-- A group with suppressed alerts that are not reported, or with an alert newer than a cutoff. -/
def Alive (w : GroupWindow) (cutoff : Instant) : Prop :=
  w.suppressed ≠ 0 ∨ ∃ t ∈ w.recent.toList, cutoff < t

instance (w : GroupWindow) (cutoff : Instant) : Decidable (w.Alive cutoff) :=
  inferInstanceAs (Decidable (_ ∨ _))

variable {w : GroupWindow} {cutoff : Instant}

theorem isIdle_eq_false_iff : w.isIdle cutoff = false ↔ w.Alive cutoff := by
  simp only [isIdle, countSince, entriesSince, Alive, Bool.and_eq_false_iff, beq_eq_false_iff_ne,
    ne_eq, List.length_eq_zero_iff, List.filter_eq_nil_iff, decide_eq_true_eq, not_forall,
    Decidable.not_not, exists_prop]

theorem Alive.before (h : w.Alive cutoff) {earlier : Instant} (le : earlier ≤ cutoff) :
    w.Alive earlier := by
  rcases h with suppressed | ⟨t, member, newer⟩
  · exact .inl suppressed
  · exact .inr ⟨t, member, Instant.lt_of_le_of_lt le newer⟩

/-- An alert leaves its group with its instant, or with one more to report. -/
theorem alive_offer (w : GroupWindow) (capacity : Nat) (window : Span) {now : Instant}
    (newer : cutoff < now) : (w.offer capacity window now).1.Alive cutoff := by
  unfold offer
  dsimp only
  split
  · exact .inr ⟨now, Ring.mem_push _ now, newer⟩
  · exact .inl (Nat.succ_ne_zero _)

end GroupWindow

/-! ### One rule -/

namespace RuleState

variable {s : RuleState} {limit : RateLimit} {now : Instant}

/-- No group is idle in the window that ended when idle groups were last dropped. -/
def Swept (s : RuleState) (window : Span) : Prop :=
  ∀ group w, s.groups.get? group = some w → w.Alive (s.lastSweep - window)

theorem swept_fresh (limit : RateLimit) (now : Instant) (window : Span) :
    (fresh limit now).Swept window := by
  intro group w found
  cases found

theorem Swept.sweep {window : Span} (h : s.Swept window) (now : Instant) :
    (s.sweep now window).Swept window := by
  unfold RuleState.sweep
  split
  · exact h
  · intro group w found
    dsimp only at found
    rw [Table.get?_filter, Option.filter_eq_some_iff] at found
    exact GroupWindow.isIdle_eq_false_iff.mp (by simpa using found.2)

theorem Swept.offer (h : s.Swept limit.window) (enabled : limit.isEnabled)
    (past : s.lastSweep ≤ now) (key : String) :
    (s.offer key limit now).1.Swept limit.window := by
  have swept : (RuleState.sweep { s with limit := limit } now limit.window).Swept limit.window :=
    Swept.sweep (s := { s with limit := limit }) h now
  have looked : (RuleState.sweep { s with limit := limit } now limit.window).lastSweep ≤ now := by
    rw [lastSweep_sweep]
    split
    · exact past
    · exact Instant.le_refl now
  have newer := Instant.lt_of_lt_of_le (Instant.sub_lt (RateLimit.window_pos enabled)) looked
  intro group w found
  unfold RuleState.offer at found ⊢
  dsimp only at found ⊢
  rw [Table.get?_insert] at found
  split at found
  · cases found
    exact GroupWindow.alive_offer _ _ _ newer
  · exact swept group w found

end RuleState

/-! ### All rules -/

namespace ThrottleLog

/-- A rule without idle groups, last looked for at one of its calls. -/
structure Tidy (log : ThrottleLog) (rule : String) (window : Span) (s : RuleState) : Prop where
  swept : s.Swept window
  looked : ∃ call ∈ log.calls, call.rule = rule ∧ call.now = s.lastSweep

variable {log : ThrottleLog} {rule : String} {window : Span} {s : RuleState}

theorem Tidy.append (h : log.Tidy rule window s) (more : ThrottleLog) :
    Tidy (log ++ more) rule window s := by
  obtain ⟨call, member, own, looked⟩ := h.looked
  exact ⟨h.swept, call, mem_calls_append member more, own, looked⟩

end ThrottleLog

namespace Throttle

variable {t u : Throttle} {log : ThrottleLog} {record : ThrottleRecord} {rule : String}

theorem tidy_ruleAfter {call : ThrottleCall} (enabled : call.limit.isEnabled)
    (h : ∀ s, t.get? call.rule = some s → log.Tidy call.rule call.limit.window s)
    (clock : ∀ c ∈ log.calls, c.now ≤ call.now) (decision : ThrottleDecision) :
    ThrottleLog.Tidy (log ++ [.decided call decision]) call.rule call.limit.window
      (t.ruleAfter call).1 := by
  have last := ThrottleLog.mem_calls_decided log enabled decision
  have before : (t.rule call.rule call.limit call.now).Swept call.limit.window ∧
      ∃ c ∈ ThrottleLog.calls (log ++ [.decided call decision]), c.rule = call.rule ∧
        c.now ≤ call.now ∧ c.now = (t.rule call.rule call.limit call.now).lastSweep := by
    unfold Throttle.rule
    cases found : t.get? call.rule with
    | none => exact ⟨RuleState.swept_fresh _ _ _, call, last, rfl, Instant.le_refl _, rfl⟩
    | some s =>
      obtain ⟨swept, c, member, own, looked⟩ := h s found
      exact ⟨swept, c, ThrottleLog.mem_calls_append member _, own, clock c member, looked⟩
  obtain ⟨swept, c, member, own, past, looked⟩ := before
  refine ⟨swept.offer enabled (looked ▸ past) call.group, ?_⟩
  rw [ruleAfter, RuleState.lastSweep_offer]
  split
  · exact ⟨c, member, own, looked⟩
  · exact ⟨call, last, rfl, rfl⟩

/-- After a call, idle groups have been looked for less than a window ago. -/
theorem since_lastSweep_lt (t : Throttle) {call : ThrottleCall} (enabled : call.limit.isEnabled) :
    call.now - (t.ruleAfter call).1.lastSweep < call.limit.window := by
  rw [ruleAfter, RuleState.lastSweep_offer]
  split
  · next recent => exact recent
  · rw [Instant.since_self]
    exact RateLimit.window_pos enabled

/-- Whatever happens to a throttle, a rule whose counts are kept has no idle groups that were there
when it was looked at last. -/
theorem tidy_step {window : Span} (step : Step t record u)
    (h : ∀ s, t.get? rule = some s → log.Tidy rule window s)
    (keeps : record.keepsCounts rule)
    (ordered : ThrottleLog.Ordered (log ++ [record]))
    (one : ∀ c ∈ ThrottleLog.calls (log ++ [record]), c.rule = rule → c.limit.window = window) :
    ∀ s, u.get? rule = some s → ThrottleLog.Tidy (log ++ [record]) rule window s := by
  intro s found
  have leaves := step.leaves rule
  rw [found] at leaves
  generalize after : some s = state at leaves
  cases leaves with
  | dropped => cases after
  | @called call same enabled own =>
    cases after
    subst same own
    obtain rfl := one call (ThrottleLog.mem_calls_decided log enabled _) rfl
    exact tidy_ruleAfter enabled h (ordered.le_last enabled) _
  | kept _ _ _ unchanged =>
    rw [unchanged keeps, Option.map_id] at after
    exact (h s after.symm).append _

theorem tidy_of_reached {window : Span} (reached : Reached log t)
    (keeps : ∀ record ∈ log, record.keepsCounts rule) (ordered : log.Ordered)
    (one : ∀ c ∈ log.calls, c.rule = rule → c.limit.window = window) :
    ∀ s, t.get? rule = some s → log.Tidy rule window s := by
  induction reached with
  | none =>
    intro s found
    cases found
  | snoc _ step ih =>
    refine tidy_step step (ih ?_ ?_ ?_) (keeps _ (by simp)) ordered one
    · exact fun record member => keeps record (List.mem_append_left _ member)
    · exact ordered.of_append
    · exact fun c member => one c (ThrottleLog.mem_calls_append member _)

/-- After every call of a run in which the calls of its rule have one period, the clock does not go
back, and no suppressed alerts of the rule are taken off its counts, each group that the rule holds
has suppressed alerts to report, or an alert that is newer than two windows before the call. One
second more has to be given only to a call within a leap second, if a call of its rule before it had
a later time of day: none has where leap seconds end their days. -/
theorem held_groups_alive (operations : List Operation) (call : ThrottleCall)
    (enabled : call.limit.isEnabled)
    (ordered : (run (operations ++ [.allow call])).2.Ordered)
    (one : (run (operations ++ [.allow call])).2.OnePeriod call.rule)
    (keeps : ∀ record ∈ (run operations).2, record.keepsCounts call.rule) :
    ∃ s, (run (operations ++ [.allow call])).1.get? call.rule = some s ∧
      ∀ group w, s.groups.get? group = some w →
        w.Alive (call.now - (2 * call.limit.window + Span.ofSeconds 1)) ∧
        ((call.now.leap = true → ∀ c ∈ (run operations).2.calls, c.rule = call.rule →
            c.now.secondOfDay ≤ call.now.secondOfDay) →
          w.Alive (call.now - 2 * call.limit.window)) := by
  have after : run (operations ++ [.allow call]) = ((run operations).1.afterCall call,
      (run operations).2 ++ [.decided call ((run operations).1.decision call)]) := by
    exact course_append empty operations [.allow call]
  have reached := run_reached operations
  generalize run operations = before at after reached keeps ⊢
  obtain ⟨t, log⟩ := before
  rw [after] at ordered one ⊢
  dsimp only at ordered one keeps reached ⊢
  have all : ∀ c ∈ ThrottleLog.calls (log ++ [.decided call (t.decision call)]),
      c.rule = call.rule → c.limit.window = call.limit.window := by
    intro c member own
    have last := ThrottleLog.mem_calls_decided log enabled (t.decision call)
    exact congrArg (fun p => windowLength (UInt64.toNat p)) (one c member call last own rfl)
  have before : ∀ s, t.get? call.rule = some s → log.Tidy call.rule call.limit.window s :=
    tidy_of_reached reached keeps ordered.of_append
      fun c member => all c (ThrottleLog.mem_calls_append member _)
  have tidy := tidy_ruleAfter enabled before (ordered.le_last enabled) (t.decision call)
  refine ⟨_, by rw [(t.call_of_enabled enabled).2, Table.get?_insert, if_pos rfl], ?_⟩
  intro group w found
  have alive := tidy.swept group w found
  obtain ⟨c, member, own, looked⟩ := tidy.looked
  have recent : Instant.since call.now c.now < call.limit.window := by
    rw [looked]
    exact t.since_lastSweep_lt enabled
  have reaches := Instant.sub_two_windows_le (RateLimit.second_le_window enabled) recent
  rw [looked] at reaches
  refine ⟨alive.before reaches.1, fun timely => alive.before (reaches.2 fun leap => ?_)⟩
  rw [ThrottleLog.calls_decided log enabled, List.mem_append, List.mem_singleton] at member
  rcases member with earlier | rfl
  · exact looked ▸ timely leap c earlier own
  · exact looked ▸ Int.le_refl _

/-- Port a has one alert, and port b has three in half a minute, of which the last is denied. -/
def quietPorts : List Operation :=
  [.allow (portCall "a" (Instant.ofNanos 0)),
   .allow (portCall "b" (Instant.ofNanos 10000000000)),
   .allow (portCall "b" (Instant.ofNanos 20000000000)),
   .allow (portCall "b" (Instant.ofNanos 30000000000)),
   .allow (portCall "c" (Instant.ofNanos 61000000000))]

def twoMinutesOn : ThrottleCall := portCall "c" (Instant.ofNanos 185000000000)

/-- Two minutes on port a is gone, and port b is held for what it has to report. -/
theorem held_until_reported :
    (run (quietPorts ++ [.allow twoMinutesOn])).2.Ordered ∧
      (run (quietPorts ++ [.allow twoMinutesOn])).2.OnePeriod "link" ∧
      (∀ record ∈ (run quietPorts).2, record.keepsCounts "link") ∧
      ∃ s, (run (quietPorts ++ [.allow twoMinutesOn])).1.get? "link" = some s ∧
        s.groups.names = ["b", "c"] ∧
        ∀ group w, s.groups.get? group = some w → w.Alive (Instant.ofNanos 65000000000) := by
  have ordered : (run (quietPorts ++ [.allow twoMinutesOn])).2.Ordered := by
    unfold ThrottleLog.Ordered
    decide +kernel
  have one : (run (quietPorts ++ [.allow twoMinutesOn])).2.OnePeriod "link" := by
    unfold ThrottleLog.OnePeriod
    decide +kernel
  have keeps : ∀ record ∈ (run quietPorts).2, record.keepsCounts "link" := by decide +kernel
  have held : ((run (quietPorts ++ [.allow twoMinutesOn])).1.get? "link").map
      (fun s => s.groups.names) = some ["b", "c"] := by decide +kernel
  obtain ⟨s, found, alive⟩ :=
    held_groups_alive quietPorts twoMinutesOn (by decide) ordered one keeps
  have names : s.groups.names = ["b", "c"] := by
    have same := congrArg (Option.map fun s : RuleState => s.groups.names) found
    exact Option.some.inj (same.symm.trans held)
  have ordinary : twoMinutesOn.now.leap ≠ true := by decide
  exact ⟨ordered, one, keeps, s, found, names, fun group w there =>
    (alive group w there).2 (absurd · ordinary)⟩

/-! ### Leap seconds -/

/-- Port b has an alert at the end of a day, and idle groups are dropped with it. -/
def endOfDay : List ThrottleCall :=
  [portCall "b" (Instant.ofNanos 1709337539900000000),
   portCall "a" (Instant.ofNanos 1709337540300000000),
   portCall "b" (Instant.ofNanos 1709337599900000000)]

/-- A call half a second into a leap second after the first minute of the next day. -/
def leapSecondOn : ThrottleCall := portCall "b" ⟨1709337659500000000, true⟩

/-- In that leap second the time since idle groups were dropped comes out a second short, and
port a, whose only alert is two windows old, is still held. -/
theorem idle_held_in_leap_second :
    ¬ ∀ (calls : List ThrottleCall) (call : ThrottleCall),
      (∀ c ∈ calls ++ [call], c.rule = call.rule ∧ c.limit.isEnabled ∧
        c.limit.maxAlerts = call.limit.maxAlerts ∧
        c.limit.periodSeconds = call.limit.periodSeconds) →
      ((calls ++ [call]).map ThrottleCall.now).Pairwise (· ≤ ·) →
      ∀ s, (run ((calls ++ [call]).map Operation.allow)).1.get? call.rule = some s →
        ∀ group w, s.groups.get? group = some w →
          w.Alive (call.now - 2 * call.limit.window) := by
  intro claim
  have alike : ∀ c ∈ endOfDay ++ [leapSecondOn], c.rule = leapSecondOn.rule ∧ c.limit.isEnabled ∧
      c.limit.maxAlerts = leapSecondOn.limit.maxAlerts ∧
      c.limit.periodSeconds = leapSecondOn.limit.periodSeconds := by decide
  have ordered : ((endOfDay ++ [leapSecondOn]).map ThrottleCall.now).Pairwise (· ≤ ·) := by
    decide +kernel
  have held : ((run ((endOfDay ++ [leapSecondOn]).map Operation.allow)).1.get? "link").bind
      (fun s => (s.groups.get? "a").map fun w =>
        decide (w.Alive (leapSecondOn.now - 2 * leapSecondOn.limit.window))) = some false := by
    decide +kernel
  obtain ⟨s, found, group⟩ := Option.bind_eq_some_iff.mp held
  obtain ⟨w, there, idle⟩ := Option.map_eq_some_iff.mp group
  exact of_decide_eq_false idle
    (claim endOfDay leapSecondOn alike ordered s found "a" w there)

end Throttle

end AlertAdmission
