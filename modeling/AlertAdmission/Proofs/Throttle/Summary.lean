import AlertAdmission.Proofs.Throttle.Reports
import AlertAdmission.Proofs.Throttle.Status

/-!
Summaries tell of each group what the log of a run tells.

A summary reads what rings and the table of groups still hold. With one limit for a rule and windows
that do not go back, they have lost nothing that a summary can ask for (`Throttle.Kept`), so the
allowed alerts in the window are those of the log, and a group that is missing has none
(`Throttle.summary_tells`). Counts of suppressed alerts are those of `ThrottleLog.Accounted`.
-/

namespace AlertAdmission

/-! ### The first and the last of some instants -/

namespace GroupWindow

variable {l : List Instant} {t : Instant}

theorem least?_eq_none_iff : least? l = none ↔ l = [] := by cases l <;> simp [least?]

theorem greatest?_eq_none_iff : greatest? l = none ↔ l = [] := by cases l <;> simp [greatest?]

theorem least?_eq_some_iff : least? l = some t ↔ t ∈ l ∧ ∀ u ∈ l, t ≤ u := by
  cases l with
  | nil => simp [least?]
  | cons first rest => simp only [least?, Option.some.injEq, Instant.foldl_least_eq_iff]

theorem greatest?_eq_some_iff : greatest? l = some t ↔ t ∈ l ∧ ∀ u ∈ l, u ≤ t := by
  cases l with
  | nil => simp [greatest?]
  | cons first rest => simp only [greatest?, Option.some.injEq, Instant.foldl_greatest_eq_iff]

end GroupWindow

/-! ### What a summary has to tell -/

/-- A summary of a group that agrees with a log: its allowed alerts in the window, the first and the
last of them, and its denied alerts that no published event has told of. -/
structure GroupSummary.Tells (g : GroupSummary) (log : ThrottleLog) (rule : String)
    (start now : Instant) : Prop where
  windowStart : g.windowStart = start
  allowed : g.allowed = (log.allowedBetween rule g.group start now).length
  oldest : ∀ t, g.oldest = some t ↔ t ∈ log.allowedBetween rule g.group start now ∧
    ∀ u ∈ log.allowedBetween rule g.group start now, t ≤ u
  newest : ∀ t, g.newest = some t ↔ t ∈ log.allowedBetween rule g.group start now ∧
    ∀ u ∈ log.allowedBetween rule g.group start now, u ≤ t
  absent : (g.oldest = none ↔ log.allowedBetween rule g.group start now = []) ∧
    (g.newest = none ↔ log.allowedBetween rule g.group start now = [])
  suppressed : g.suppressed + (log.sinceTouched rule).reported rule g.group =
    (log.sinceTouched rule).denied rule g.group

/-- A summary of a rule that agrees with a log, and leaves out no group that has anything to tell. -/
structure RuleSummary.Tells (s : RuleSummary) (log : ThrottleLog) (rule : String)
    (now : Instant) : Prop where
  named : s.rule = rule
  limit : ∀ call ∈ log.calls, call.rule = rule →
    s.maxAlerts = call.limit.maxAlerts ∧ s.periodSeconds = call.limit.periodSeconds
  ordered : (s.groups.map GroupSummary.group).Pairwise (· < ·)
  groups : ∀ g ∈ s.groups, g.Tells log rule (now - windowLength s.periodSeconds.toNat) now
  complete : ∀ group,
    log.allowedBetween rule group (now - windowLength s.periodSeconds.toNat) now ≠ [] ∨
      (log.sinceTouched rule).reported rule group < (log.sinceTouched rule).denied rule group →
    group ∈ s.groups.map GroupSummary.group
  totalAllowed : s.totalAllowed = total (s.groups.map GroupSummary.allowed)
  totalSuppressed : s.totalSuppressed = total (s.groups.map GroupSummary.suppressed)

theorem GroupWindow.tells_summary {w : GroupWindow} {log : ThrottleLog} {rule key : String}
    {start now : Instant}
    (entries : w.entriesSince start = log.allowedBetween rule key start now)
    (counted : w.suppressed + (log.sinceTouched rule).reported rule key =
      (log.sinceTouched rule).denied rule key) :
    (w.summary key start).Tells log rule start now := by
  constructor
  · rfl
  · exact congrArg List.length entries
  · intro t
    exact entries ▸ least?_eq_some_iff
  · intro t
    exact entries ▸ greatest?_eq_some_iff
  · exact entries ▸ ⟨least?_eq_none_iff, greatest?_eq_none_iff⟩
  · exact counted

/-! ### What a rule shows -/

namespace RuleState

variable {s : RuleState} {name key : String} {now : Instant}

theorem mem_summary_iff {g : GroupSummary} : g ∈ (s.summary name now).groups ↔
    ∃ key w, s.groups.get? key = some w ∧ g = w.summary key (now - s.limit.window) := by
  simp only [summary, Table.values, Table.map, List.map_map, List.mem_map, Prod.exists,
    Table.mem_toList_iff, Function.comp_apply, eq_comm]

theorem names_summary (s : RuleState) (name : String) (now : Instant) :
    (s.summary name now).groups.map GroupSummary.group = s.groups.names := by
  simp [summary, Table.values, Table.map, Table.names, GroupWindow.summary, Function.comp_def]

theorem ordered_summary (s : RuleState) (name : String) (now : Instant) :
    ((s.summary name now).groups.map GroupSummary.group).Pairwise (· < ·) := by
  rw [names_summary]
  exact List.pairwise_map.mpr s.groups.ordered

theorem mem_names_summary (h : (s.groups.get? key).isSome) :
    key ∈ (s.summary name now).groups.map GroupSummary.group := by
  rw [names_summary]
  exact (Table.mem_names_iff _ _).mpr h

section Keeps

variable {capacity : Nat} {window : Span} {logs : String → List Instant}

theorem Keeps.filter_of_absent (h : s.Keeps capacity window logs now)
    (missing : s.groups.get? key = none) :
    ((logs key).filter fun t => now - window < t) = [] := by
  have held := h key
  simp only [group, missing, Option.getD_none] at held
  exact held.agrees.symm

theorem Keeps.entriesSince {w : GroupWindow} (h : s.Keeps capacity window logs now)
    (found : s.groups.get? key = some w) :
    w.entriesSince (now - window) = (logs key).filter fun t => now - window < t := by
  have held := h key
  simp only [group, found, Option.getD_some] at held
  exact held.agrees

end Keeps

end RuleState

/-! ### Runs -/

theorem ThrottleLog.allowedBetween_eq {log : ThrottleLog} {rule : String} {now : Instant}
    (past : ∀ call ∈ log.calls, call.rule = rule → call.now ≤ now) (group : String)
    (start : Instant) : log.allowedBetween rule group start now =
      (log.allowedSinceDrop rule group).filter fun t => start < t := by
  apply List.filter_congr
  intro t member
  obtain ⟨call, made, own, rfl⟩ := mem_calls_of_allowed member
  simp [past call made own]

namespace Throttle

variable {t : Throttle} {log : ThrottleLog} {rule : String} {now : Instant} {s : RuleState}

theorem Limited.alike (limited : t.Limited log) (one : log.OneLimit) (found : t.get? rule = some s) :
    ∀ call ∈ log.calls, call.rule = rule → s.limit.maxAlerts = call.limit.maxAlerts ∧
      s.limit.periodSeconds = call.limit.periodSeconds := by
  intro call made own
  obtain ⟨last, called, ofRule, limit⟩ :=
    ThrottleLog.mem_calls_of_lastLimit? (limited rule s found)
  exact limit ▸ one last called call made (ofRule.trans own.symm)

/-- A rule keeps, at any instant to which the windows of its calls lead on, what the log has in the
window that trails this instant. -/
theorem keeps_now (kept : log.Kept t) (limited : t.Limited log) (one : log.OneLimit)
    (leads : ∀ call ∈ log.calls, call.rule = rule → call.now.Leads call.limit.window now)
    (found : t.get? rule = some s) : ∃ capacity,
      s.Keeps capacity s.limit.window (log.allowedSinceDrop rule) now := by
  have state := kept rule
  rw [found] at state
  cases state with
  | @present _ call made own keeps =>
    have window : call.limit.window = s.limit.window :=
      congrArg (fun p => windowLength (UInt64.toNat p))
        (limited.alike one found call made own).2.symm
    exact ⟨call.limit.capacity, window ▸ keeps.later (leads call made own)⟩

theorem denied_of_accounted (accounted : log.Accounted t) (found : t.get? rule = some s)
    (group : String) : s.suppressedOf group + (log.sinceTouched rule).reported rule group =
      (log.sinceTouched rule).denied rule group := by
  have account := accounted rule group
  simp only [Throttle.suppressedOf, found, Option.map_some, Option.getD_some] at account
  omega

theorem summary_tells_of_state (kept : log.Kept t) (limited : t.Limited log)
    (accounted : log.Accounted t) (one : log.OneLimit)
    (leads : ∀ call ∈ log.calls, call.rule = rule → call.now.Leads call.limit.window now)
    (found : t.get? rule = some s) : (s.summary rule now).Tells log rule now := by
  obtain ⟨capacity, keeps⟩ := keeps_now kept limited one leads found
  have inWindow := ThrottleLog.allowedBetween_eq fun call made own => (leads call made own).1
  have counts := denied_of_accounted accounted found
  refine ⟨rfl, limited.alike one found, s.ordered_summary rule now, ?_, ?_, rfl, rfl⟩
  · intro g member
    obtain ⟨key, w, there, rfl⟩ := RuleState.mem_summary_iff.mp member
    have counted := counts key
    simp only [RuleState.suppressedOf, there, Option.map_some, Option.getD_some] at counted
    exact GroupWindow.tells_summary ((keeps.entriesSince there).trans (inWindow key _).symm) counted
  · intro group something
    apply RuleState.mem_names_summary
    cases missing : s.groups.get? group with
    | some w => rfl
    | none =>
      exfalso
      rcases something with alert | owed
      · exact alert ((inWindow group _).trans (keeps.filter_of_absent missing))
      · have counted := counts group
        simp only [RuleState.suppressedOf, missing, Option.map_none, Option.getD_none] at counted
        omega

/-- After any run with one limit for each rule, and at any instant to which the windows of the calls
of a rule lead on, the summary of the rule tells what the log tells; where there is none, the rule
has had no alert allowed since it was dropped and owes no report. -/
theorem summary_tells (operations : List Operation) (rule : String) (now : Instant)
    (steady : (run operations).2.Steady) (one : (run operations).2.OneLimit)
    (leads : ∀ call ∈ (run operations).2.calls, call.rule = rule →
      call.now.Leads call.limit.window now) :
    let log := (run operations).2
    (∀ summary ∈ (run operations).1.summary? rule now, summary.Tells log rule now) ∧
      ((run operations).1.summary? rule now = none → ∀ group,
        log.allowedSinceDrop rule group = [] ∧ (log.sinceTouched rule).denied rule group =
          (log.sinceTouched rule).reported rule group) := by
  intro log
  have reached := run_reached operations
  have kept := kept_of_reached reached steady one
  have accounted := accounted_run operations
  constructor
  · intro summary told
    obtain ⟨s, found, rfl⟩ := Option.map_eq_some_iff.mp (Option.mem_def.mp told)
    exact summary_tells_of_state kept (limited_of_reached reached) accounted one leads found
  · intro untold group
    have missing := Option.map_eq_none_iff.mp untold
    have state := kept rule
    rw [missing] at state
    cases state with
    | absent nothing =>
      have account := accounted rule group
      simp only [suppressedOf, missing, Option.map_none, Option.getD_none] at account
      exact ⟨nothing group, account⟩

set_option maxRecDepth 1000 in
/-- At the end of a busy minute the summary owes a report of the one alert that was denied while the
other was being reported. -/
theorem one_owed_after_busyMinute :
    let log := (run busyMinute).2
    let now := Instant.ofNanos 59999999999
    log.Steady ∧ log.OneLimit ∧
      (∀ call ∈ log.calls, call.rule = "link" → call.now.Leads call.limit.window now) ∧
      ∃ summary, (run busyMinute).1.summary? "link" now = some summary ∧
        summary.Tells log "link" now ∧
        summary.groups.map (fun g => (g.group, g.allowed, g.suppressed)) =
          [("a", 2, 1), ("b", 1, 0)] := by
  intro log now
  have steady : log.Steady := by
    unfold ThrottleLog.Steady
    decide +kernel
  have one : log.OneLimit := by
    unfold ThrottleLog.OneLimit
    decide +kernel
  have leads : ∀ call ∈ log.calls, call.rule = "link" →
      call.now.Leads call.limit.window now := by decide +kernel
  obtain ⟨summary, told⟩ := Option.isSome_iff_exists.mp
    (show ((run busyMinute).1.summary? "link" now).isSome by decide +kernel)
  have counts : ∀ summary ∈ (run busyMinute).1.summary? "link" now,
      summary.groups.map (fun g => (g.group, g.allowed, g.suppressed)) =
        [("a", 2, 1), ("b", 1, 0)] := by decide +kernel
  exact ⟨steady, one, leads, summary, told,
    (summary_tells busyMinute "link" now steady one leads).1 summary told, counts summary told⟩

set_option maxRecDepth 1000 in
/-- A clock that goes on is not enough: right after a leap second the summary has forgotten an alert
that is in the window again. -/
theorem summary_short_after_leap_second :
    ¬ ∀ (operations : List Operation) (rule : String) (now : Instant),
      (run operations).2.Ordered → (run operations).2.OneLimit →
      (∀ call ∈ (run operations).2.calls, call.now ≤ now) →
      ∀ summary ∈ (run operations).1.summary? rule now,
        summary.Tells (run operations).2 rule now := by
  intro claim
  have ordered : (run (endOfYear.take 2)).2.Ordered := by
    unfold ThrottleLog.Ordered
    decide +kernel
  have one : (run (endOfYear.take 2)).2.OneLimit := by
    unfold ThrottleLog.OneLimit
    decide +kernel
  have past : ∀ call ∈ (run (endOfYear.take 2)).2.calls,
      call.now ≤ Instant.ofNanos 1483228800000000000 := by decide +kernel
  have counts : ∀ summary ∈ (run (endOfYear.take 2)).1.summary? "link"
      (Instant.ofNanos 1483228800000000000), ∀ g ∈ summary.groups, g.allowed =
        ((run (endOfYear.take 2)).2.allowedBetween "link" g.group
          (Instant.ofNanos 1483228800000000000 - windowLength summary.periodSeconds.toNat)
          (Instant.ofNanos 1483228800000000000)).length :=
    fun summary told g member =>
      ((claim _ "link" _ ordered one past summary told).groups g member).allowed
  revert counts
  decide +kernel

end Throttle

end AlertAdmission
