import AlertAdmission.Proofs.Throttle.Records
import AlertAdmission.Proofs.Throttle.Window

/-!
The throttle decides as if it never forgot an allowed alert.

`ThrottleCall.ruling` decides on a call from the whole log. A throttle keeps one ring for a group,
compacts it now and then, and drops idle groups; `Throttle.Kept` says what it must not lose by that.
The start of the window must not go back: from within a leap second it can.
-/

namespace AlertAdmission

/-! ### Rulings from the whole log -/

/-- What the limit of a call says when no allowed alert is ever forgotten. -/
def ThrottleCall.ruling (call : ThrottleCall) (log : ThrottleLog) : ThrottleDecision :=
  if call.limit.isEnabled then
    let inWindow := (log.allowedSinceDrop call.rule call.group).filter fun t => call.cutoff < t
    if inWindow.length < call.limit.capacity then .allowed
    else .denied call.limit.maxAlerts call.limit.periodSeconds call.limit.capacity
  else .allowed

namespace ThrottleLog

/-- The calls are made under a clock that does not go back. -/
def Ordered (log : ThrottleLog) : Prop :=
  log.calls.Pairwise fun call later => call.now ≤ later.now

/-- Nor do the starts of the windows behind the calls go back. -/
def Steady (log : ThrottleLog) : Prop :=
  log.calls.Pairwise fun call later => call.now.Leads later.limit.window later.now

theorem Ordered.steady {log : ThrottleLog} (ordered : log.Ordered)
    (ordinary : ∀ call ∈ log.calls, call.now.leap = false) : log.Steady := by
  apply List.Pairwise.imp_of_mem _ ordered
  intro call later member _ le
  exact Instant.leads_of_le (windowLength_nonneg _) (ordinary call member) le

/-- The limits of a rule agree on the number of alerts and on the period. -/
def OneLimit (log : ThrottleLog) : Prop :=
  ∀ call ∈ log.calls, ∀ other ∈ log.calls, call.rule = other.rule →
    call.limit.maxAlerts = other.limit.maxAlerts ∧
      call.limit.periodSeconds = other.limit.periodSeconds

variable {log more : ThrottleLog} {call : ThrottleCall}

theorem mem_calls_append (h : call ∈ log.calls) (more : ThrottleLog) :
    call ∈ (log ++ more).calls := by
  rw [calls_append]
  exact List.mem_append_left _ h

theorem mem_calls_decided (log : ThrottleLog) (enabled : call.limit.isEnabled)
    (decision : ThrottleDecision) : call ∈ calls (log ++ [.decided call decision]) := by
  rw [calls_decided log enabled]
  exact List.mem_append_right _ (List.mem_singleton_self call)

theorem Ordered.of_append (ordered : Ordered (log ++ more)) : log.Ordered := by
  rw [Ordered, calls_append, List.pairwise_append] at ordered
  exact ordered.1

theorem Ordered.le_last {decision : ThrottleDecision}
    (ordered : Ordered (log ++ [.decided call decision])) (enabled : call.limit.isEnabled) :
    ∀ c ∈ log.calls, c.now ≤ call.now := by
  rw [Ordered, calls_decided log enabled, List.pairwise_append] at ordered
  exact fun c member => ordered.2.2 c member call (List.mem_singleton_self call)

theorem Steady.of_append (steady : Steady (log ++ more)) : log.Steady := by
  rw [Steady, calls_append, List.pairwise_append] at steady
  exact steady.1

theorem OneLimit.of_append (one : OneLimit (log ++ more)) : log.OneLimit := by
  intro c hc other ho
  exact one c (mem_calls_append hc more) other (mem_calls_append ho more)

/-- A call that may come next: the start of its window does not go back, and its rule keeps its
limit. -/
structure Continues (log : ThrottleLog) (call : ThrottleCall) : Prop where
  leads : ∀ c ∈ log.calls, c.now.Leads call.limit.window call.now
  same : ∀ c ∈ log.calls, c.rule = call.rule →
    c.limit.maxAlerts = call.limit.maxAlerts ∧ c.limit.periodSeconds = call.limit.periodSeconds

theorem continues_of_snoc {decision : ThrottleDecision} (enabled : call.limit.isEnabled)
    (steady : Steady (log ++ [.decided call decision]))
    (one : OneLimit (log ++ [.decided call decision])) : log.Continues call := by
  rw [Steady, calls_decided log enabled, List.pairwise_append] at steady
  constructor
  · intro c hc
    exact steady.2.2 c hc call (List.mem_singleton_self call)
  · intro c hc own
    exact one c (mem_calls_append hc _) call (mem_calls_decided log enabled decision) own

end ThrottleLog

/-! ### One rule -/

namespace RuleState

/-- Every group of a rule holds what its log has in the window that trails the last instant. -/
def Keeps (s : RuleState) (capacity : Nat) (window : Span) (logs : String → List Instant)
    (last : Instant) : Prop :=
  ∀ key, (s.group key capacity last).Holds capacity window (logs key) last

variable {s : RuleState} {capacity : Nat} {window : Span} {logs : String → List Instant}
  {last now : Instant}

/-- A group that a rule does not have is a fresh one at any instant. -/
theorem recent_group (s : RuleState) (key : String) (capacity : Nat) (t u : Instant) :
    (s.group key capacity t).recent = (s.group key capacity u).recent := by
  unfold group
  cases s.groups.get? key <;> rfl

theorem Keeps.later (h : s.Keeps capacity window logs last) (leads : last.Leads window now) :
    s.Keeps capacity window logs now := by
  intro key
  exact ((h key).later leads).of_recent (recent_group s key capacity now last)

theorem Keeps.of_recent {s' : RuleState} (h : s.Keeps capacity window logs last)
    (same : ∀ key, (s'.groups.get? key).map GroupWindow.recent =
      (s.groups.get? key).map GroupWindow.recent) :
    s'.Keeps capacity window logs last := by
  intro key
  apply (h key).of_recent
  have key_same := same key
  unfold group
  cases hs : s.groups.get? key <;> cases hs' : s'.groups.get? key <;>
    simp_all

theorem Keeps.sweep (pos : 0 < capacity) (h : s.Keeps capacity window logs now) :
    (s.sweep now window).Keeps capacity window logs now := by
  unfold RuleState.sweep
  split
  · exact h
  · intro key
    have held := h key
    unfold group at held ⊢
    rw [Table.get?_filter]
    cases found : s.groups.get? key with
    | none =>
      rw [found] at held
      exact held
    | some w =>
      rw [found] at held
      cases idle : w.isIdle (now - window) with
      | false => simpa [Option.filter, idle] using held
      | true =>
        have nothing := held.filter_of_idle idle
        simpa [Option.filter, idle] using GroupWindow.holds_fresh pos now nothing

theorem Keeps.insert {w : GroupWindow} {key : String} {logs' : String → List Instant}
    (h : s.Keeps capacity window logs now) (held : w.Holds capacity window (logs' key) now)
    (others : ∀ other, other ≠ key → logs' other = logs other) :
    ({ s with groups := s.groups.insert key w } : RuleState).Keeps capacity window logs' now := by
  intro other
  unfold group
  rw [Table.get?_insert]
  by_cases same : other = key
  · rw [if_pos same, same]
    exact held
  · rw [if_neg same, others other same]
    exact h other

variable {limit : RateLimit} {key : String}

theorem Keeps.offer_of_room (logs' : String → List Instant) (pos : 0 < limit.capacity)
    (h : s.Keeps limit.capacity limit.window logs now)
    (room : ((logs key).filter fun t => now - limit.window < t).length < limit.capacity)
    (appended : logs' key = logs key ++ [now])
    (others : ∀ other, other ≠ key → logs' other = logs other) :
    (s.offer key limit now).2 = .allowed ∧
      (s.offer key limit now).1.Keeps limit.capacity limit.window logs' now := by
  have swept : (({ s with limit := limit } : RuleState).sweep now limit.window).Keeps
      limit.capacity limit.window logs now := Keeps.sweep pos h
  obtain ⟨passes, held⟩ := (swept key).offer_of_room pos room
  unfold offer
  rw [appended.symm] at held
  simp only [passes]
  exact ⟨trivial, swept.insert held others⟩

theorem Keeps.offer_of_full (pos : 0 < limit.capacity)
    (h : s.Keeps limit.capacity limit.window logs now)
    (full : ¬ ((logs key).filter fun t => now - limit.window < t).length < limit.capacity) :
    (s.offer key limit now).2 =
        .denied limit.maxAlerts limit.periodSeconds limit.capacity ∧
      (s.offer key limit now).1.Keeps limit.capacity limit.window logs now := by
  have swept : (({ s with limit := limit } : RuleState).sweep now limit.window).Keeps
      limit.capacity limit.window logs now := Keeps.sweep pos h
  obtain ⟨stopped, held⟩ := (swept key).offer_of_full pos full
  unfold offer
  simp only [stopped]
  exact ⟨trivial, swept.insert held fun _ _ => rfl⟩

end RuleState

/-! ### All rules -/

namespace ThrottleLog

/-- A rule without state has no alert in its log; a rule with state keeps the log of each group
since a call of its own. -/
inductive KeptFor (log : ThrottleLog) (rule : String) : Option RuleState → Prop where
  | absent : (∀ group, log.allowedSinceDrop rule group = []) → KeptFor log rule none
  | present {s : RuleState} {call : ThrottleCall} : call ∈ log.calls → call.rule = rule →
      s.Keeps call.limit.capacity call.limit.window (log.allowedSinceDrop rule) call.now →
      KeptFor log rule (some s)

/-- A throttle that has lost nothing that its limits can ask for. -/
def Kept (log : ThrottleLog) (t : Throttle) : Prop := ∀ rule, log.KeptFor rule (t.get? rule)

variable {log : ThrottleLog} {record : ThrottleRecord} {rule : String} {o : Option RuleState}

theorem KeptFor.frame (h : log.KeptFor rule o)
    (same : (log ++ [record]).allowedSinceDrop rule = log.allowedSinceDrop rule) :
    (log ++ [record]).KeptFor rule o := by
  cases h with
  | absent nothing =>
    apply KeptFor.absent
    intro group
    rw [same]
    exact nothing group
  | present member own kept =>
    apply KeptFor.present (mem_calls_append member _) own
    rw [same]
    exact kept

theorem KeptFor.dropped (drops : record.drops rule = true) :
    (log ++ [record]).KeptFor rule none := by
  apply KeptFor.absent
  intro group
  rw [allowedSinceDrop_snoc, if_pos drops]

theorem KeptFor.map (h : log.KeptFor rule o) {f : RuleState → RuleState}
    (same : ∀ s key, ((f s).groups.get? key).map GroupWindow.recent =
      (s.groups.get? key).map GroupWindow.recent) : log.KeptFor rule (o.map f) := by
  cases h with
  | absent nothing => exact .absent nothing
  | present member own kept => exact .present member own (kept.of_recent (same _))

theorem allowedSinceDrop_of_silent (keeps : record.drops rule = false)
    (silent : ∀ group, record.allowedAt? rule group = none) :
    (log ++ [record]).allowedSinceDrop rule = log.allowedSinceDrop rule := by
  funext group
  rw [allowedSinceDrop_snoc, keeps, silent group]
  simp

end ThrottleLog

namespace Throttle

variable {log : ThrottleLog} {t : Throttle} {call : ThrottleCall}

theorem keeps_rule (h : log.KeptFor call.rule (t.get? call.rule)) (pos : 0 < call.limit.capacity)
    (next : log.Continues call) :
    (t.rule call.rule call.limit call.now).Keeps call.limit.capacity call.limit.window
      (log.allowedSinceDrop call.rule) call.now := by
  unfold rule
  cases found : t.get? call.rule with
  | none =>
    rw [found] at h
    cases h with
    | absent nothing =>
      intro key
      apply GroupWindow.holds_fresh pos
      rw [nothing key]
      rfl
  | some s =>
    rw [found] at h
    cases h with
    | @present _ c member own kept =>
      obtain ⟨number, period⟩ := next.same c member own
      have capacity : c.limit.capacity = call.limit.capacity := congrArg UInt32.toNat number
      have window : c.limit.window = call.limit.window :=
        congrArg (fun p => windowLength (UInt64.toNat p)) period
      rw [capacity, window] at kept
      exact kept.later (next.leads c member)

theorem ruleAfter_of_keeps (enabled : call.limit.isEnabled) (pos : 0 < call.limit.capacity)
    (before : (t.rule call.rule call.limit call.now).Keeps call.limit.capacity call.limit.window
      (log.allowedSinceDrop call.rule) call.now) :
    (t.ruleAfter call).2 = call.ruling log ∧
      (t.ruleAfter call).1.Keeps call.limit.capacity call.limit.window
        (ThrottleLog.allowedSinceDrop (log ++ [.decided call (t.ruleAfter call).2]) call.rule)
        call.now := by
  unfold ruleAfter ThrottleCall.ruling
  rw [if_pos enabled]
  by_cases room : ((log.allowedSinceDrop call.rule call.group).filter fun t =>
      call.cutoff < t).length < call.limit.capacity
  · obtain ⟨passes, kept⟩ := before.offer_of_room
      (ThrottleLog.allowedSinceDrop (log ++ [.decided call .allowed]) call.rule) pos room
      (by
        rw [ThrottleLog.allowedSinceDrop_snoc]
        simp [ThrottleRecord.drops, ThrottleRecord.allowedAt?, enabled])
      (by
        intro other different
        rw [ThrottleLog.allowedSinceDrop_snoc]
        simp [ThrottleRecord.drops, ThrottleRecord.allowedAt?, Ne.symm different])
    rw [passes]
    exact ⟨(if_pos room).symm, kept⟩
  · obtain ⟨stopped, kept⟩ := before.offer_of_full pos room
    rw [stopped, ThrottleLog.allowedSinceDrop_of_silent rfl fun _ => rfl]
    exact ⟨(if_neg room).symm, kept⟩

theorem kept_call (h : log.Kept t) (enabled : call.limit.isEnabled) (next : log.Continues call) :
    t.decision call = call.ruling log ∧
      ThrottleLog.KeptFor (log ++ [.decided call (t.decision call)]) call.rule
        (some (t.ruleAfter call).1) := by
  have pos := RateLimit.capacity_pos enabled
  obtain ⟨ruling, keeps⟩ := ruleAfter_of_keeps enabled pos (keeps_rule (h call.rule) pos next)
  rw [(t.call_of_enabled enabled).1]
  exact ⟨ruling, .present (ThrottleLog.mem_calls_decided log enabled _) rfl keeps⟩

theorem kept_step {record : ThrottleRecord} {u : Throttle} (h : log.Kept t)
    (step : Step t record u) (steady : ThrottleLog.Steady (log ++ [record]))
    (one : ThrottleLog.OneLimit (log ++ [record])) : ThrottleLog.Kept (log ++ [record]) u := by
  intro rule
  have leaves := step.leaves rule
  generalize u.get? rule = after at leaves
  cases leaves with
  | dropped drops => exact .dropped drops
  | called same enabled own =>
    subst same own
    exact (kept_call h enabled (ThrottleLog.continues_of_snoc enabled steady one)).2
  | kept keeps other recounts _ =>
    have framed := (h rule).frame
      (ThrottleLog.allowedSinceDrop_of_silent keeps (ThrottleRecord.allowedAt?_of_other other))
    exact framed.map recounts.recent

theorem kept_of_reached (h : Reached log t) (steady : log.Steady) (one : log.OneLimit) :
    log.Kept t := by
  induction h with
  | none => exact fun rule => .absent fun group => rfl
  | snoc reached step ih => exact kept_step (ih steady.of_append one.of_append) step steady one

/-- Every decision of a run, whoever asked for it, is the ruling from the log before it. -/
theorem decision_eq_ruling (operations : List Operation) (steady : (run operations).2.Steady)
    (one : (run operations).2.OneLimit) {before after : ThrottleLog} {call : ThrottleCall}
    {decision : ThrottleDecision}
    (position : (run operations).2 = before ++ .decided call decision :: after) :
    decision = call.ruling before := by
  obtain ⟨t, reached, rfl⟩ := (run_reached operations).justified before _ after position _ _ rfl
  rw [position, List.append_cons] at steady one
  -- of the conditions on the run, only the part up to the call matters
  have untilCall := ThrottleLog.Steady.of_append steady
  have limits := ThrottleLog.OneLimit.of_append one
  by_cases enabled : call.limit.isEnabled
  · have kept : before.Kept t := kept_of_reached reached untilCall.of_append limits.of_append
    exact (kept_call kept enabled (ThrottleLog.continues_of_snoc enabled untilCall limits)).1
  · rw [(t.decision_of_disabled enabled).1, ThrottleCall.ruling, if_neg enabled]

/-- A call of a rule that lets two alerts of a port pass in a minute. -/
def portCall (port : String) (now : Instant) : ThrottleCall :=
  ⟨"link", .obj [("port", .str port)], ⟨2, 60, some "port"⟩, now⟩

/-- Two alerts of a port pass, one of another port between them, and the third is denied while its
summary is being published. -/
def busyMinute : List Operation :=
  [.allow (portCall "a" (Instant.ofNanos 0)),
   .allow (portCall "b" (Instant.ofNanos 20000000000)),
   .allow (portCall "a" (Instant.ofNanos 40000000000)),
   .allow (portCall "a" (Instant.ofNanos 41000000000)),
   .publish (fun _ => ⟨[portCall "a" (Instant.ofNanos 59999999999)], true⟩)
     (Instant.ofNanos 50000000000)]

set_option maxRecDepth 1000 in
/-- The alert that comes while the summary is published is the third of its port in the window. -/
theorem denied_while_publishing :
    (run busyMinute).2.Steady ∧ (run busyMinute).2.OneLimit ∧
      (run busyMinute).2 = (run busyMinute).2.take 4 ++
        .decided (portCall "a" (Instant.ofNanos 59999999999)) (.denied 2 60 2) ::
          (run busyMinute).2.drop 5 ∧
      (portCall "a" (Instant.ofNanos 59999999999)).ruling ((run busyMinute).2.take 4) =
        .denied 2 60 2 := by
  have steady : (run busyMinute).2.Steady := by
    unfold ThrottleLog.Steady
    decide +kernel
  have one : (run busyMinute).2.OneLimit := by
    unfold ThrottleLog.OneLimit
    decide +kernel
  have position : (run busyMinute).2 = (run busyMinute).2.take 4 ++
      .decided (portCall "a" (Instant.ofNanos 59999999999)) (.denied 2 60 2) ::
        (run busyMinute).2.drop 5 := by rfl
  exact ⟨steady, one, position, (decision_eq_ruling busyMinute steady one position).symm⟩

/-! ### Leap seconds -/

/-- Half a second into the leap second at the end of 2016, the first alert has left the window. Half
a second on, at midnight, it would be in the window again, but it is forgotten. -/
def endOfYear : List Operation :=
  [.allow (portCall "a" (Instant.ofNanos 1483228740300000000)),
   .allow (portCall "a" ⟨1483228799500000000, true⟩),
   .allow (portCall "a" (Instant.ofNanos 1483228800000000000))]

set_option maxRecDepth 1000 in
/-- A clock that goes on is not enough: right after a leap second a third alert passes. -/
theorem ruling_missed_after_leap_second :
    ¬ ∀ (operations : List Operation) (before after : ThrottleLog) (call : ThrottleCall)
        (decision : ThrottleDecision), (run operations).2.Ordered → (run operations).2.OneLimit →
      (run operations).2 = before ++ .decided call decision :: after →
      decision = call.ruling before := by
  intro claim
  have ordered : (run endOfYear).2.Ordered := by
    unfold ThrottleLog.Ordered
    decide +kernel
  have one : (run endOfYear).2.OneLimit := by
    unfold ThrottleLog.OneLimit
    decide +kernel
  have position : (run endOfYear).2 = (run endOfYear).2.take 2 ++
      .decided (portCall "a" (Instant.ofNanos 1483228800000000000)) .allowed ::
        (run endOfYear).2.drop 3 := by rfl
  have third := claim endOfYear _ _ _ _ ordered one position
  revert third
  decide +kernel

end Throttle

end AlertAdmission
