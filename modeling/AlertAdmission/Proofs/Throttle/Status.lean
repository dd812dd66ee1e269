import AlertAdmission.Proofs.Throttle.Genuine

/-!
The status of a rule tells what its next call would be told.

A status counts the entries that a rule has for a group against the last limit of the rule. A call
first drops idle groups, then gives the group as many slots as its limit counts, which may be more or
fewer than the group has, and then compacts it. While the clock does not go back the entries are in
order, and none of this changes whether the limit is reached (`Throttle.denied_iff_throttled`).
-/

namespace AlertAdmission

/-! ### The limit of a rule -/

namespace ThrottleLog

/-- The limit of the last call of a rule, of those under a limit that is turned on. -/
def lastLimit? (log : ThrottleLog) (rule : String) : Option RateLimit :=
  ((log.calls.filter fun call => call.rule = rule).map ThrottleCall.limit).getLast?

theorem lastLimit?_decided (log : ThrottleLog) {call : ThrottleCall} (enabled : call.limit.isEnabled)
    (decision : ThrottleDecision) :
    lastLimit? (log ++ [.decided call decision]) call.rule = some call.limit := by
  simp [lastLimit?, calls_decided log enabled]

theorem lastLimit?_of_other {record : ThrottleRecord} {rule : String}
    (other : ∀ call ∈ record.call?, call.rule ≠ rule) (log : ThrottleLog) :
    lastLimit? (log ++ [record]) rule = log.lastLimit? rule := by
  have silent : (calls [record]).filter (fun call => call.rule = rule) = [] := by
    rw [List.filter_eq_nil_iff]
    intro call made
    obtain ⟨_, only, called⟩ := List.mem_filterMap.mp made
    rw [List.mem_singleton.mp only] at called
    simpa using other call called
  rw [lastLimit?, calls_append, List.filter_append, silent, List.append_nil]
  rfl

theorem enabled_of_mem_calls {log : ThrottleLog} {call : ThrottleCall} (h : call ∈ log.calls) :
    call.limit.isEnabled := by
  obtain ⟨record, _, made⟩ := List.mem_filterMap.mp h
  cases record with
  | decided other decision =>
    simp only [ThrottleRecord.call?, Option.ite_none_right_eq_some, Option.some.injEq] at made
    exact made.2 ▸ made.1
  | reset other => cases made
  | cleaned active => cases made
  | countsReset other => cases made
  | offered event published => cases made

theorem mem_calls_of_lastLimit? {log : ThrottleLog} {rule : String} {limit : RateLimit}
    (h : log.lastLimit? rule = some limit) :
    ∃ call ∈ log.calls, call.rule = rule ∧ call.limit = limit := by
  obtain ⟨call, member, same⟩ := List.mem_map.mp (List.mem_of_getLast? h)
  simp only [List.mem_filter, decide_eq_true_eq] at member
  exact ⟨call, member.1, member.2, same⟩

end ThrottleLog

theorem RuleState.lastSweep_sweep (s : RuleState) (now : Instant) (window : Span) :
    (s.sweep now window).lastSweep = if now - s.lastSweep < window then s.lastSweep else now := by
  unfold sweep
  split <;> rfl

theorem RuleState.lastSweep_offer (s : RuleState) (key : String) (limit : RateLimit)
    (now : Instant) : (s.offer key limit now).1.lastSweep =
      if now - s.lastSweep < limit.window then s.lastSweep else now :=
  lastSweep_sweep { s with limit := limit } now limit.window

namespace Throttle

variable {t u : Throttle} {log : ThrottleLog} {record : ThrottleRecord}

/-- A rule with state has the limit of its last call. -/
def Limited (t : Throttle) (log : ThrottleLog) : Prop :=
  ∀ rule s, t.get? rule = some s → log.lastLimit? rule = some s.limit

theorem limited_step (h : t.Limited log) (step : Step t record u) :
    u.Limited (log ++ [record]) := by
  intro rule s found
  have leaves := step.leaves rule
  rw [found] at leaves
  generalize after : some s = state at leaves
  cases leaves with
  | dropped => cases after
  | called same enabled own =>
    cases after
    subst same own
    rw [ThrottleLog.lastLimit?_decided log enabled, ruleAfter, RuleState.limit_offer]
  | kept _ other recounts _ =>
    obtain ⟨before, was, rfl⟩ := Option.map_eq_some_iff.mp after.symm
    rw [ThrottleLog.lastLimit?_of_other other, h rule before was, recounts.limit]

theorem limited_of_reached (h : Reached log t) : t.Limited log := by
  induction h with
  | none =>
    intro rule s found
    cases found
  | snoc _ step ih => exact limited_step ih step

/-! ### Entries in order -/

end Throttle

theorem ThrottleLog.Ordered.allowed {log : ThrottleLog} (ordered : log.Ordered)
    (rule group : String) : (log.allowedSinceDrop rule group).Pairwise (· ≤ ·) := by
  have instants : ∀ records : ThrottleLog,
      (records.filterMap (ThrottleRecord.allowedAt? rule group)).Sublist
        (records.calls.map ThrottleCall.now) := by
    intro records
    induction records with
    | nil => exact List.Sublist.refl _
    | cons record rest ih =>
      cases alert : record.allowedAt? rule group with
      | none =>
        rw [List.filterMap_cons_none alert]
        cases call : record.call? with
        | none => simpa [ThrottleLog.calls, call] using ih
        | some c => simpa [ThrottleLog.calls, call] using ih.cons c.now
      | some now =>
        obtain ⟨call, rfl, enabled, _, _, rfl⟩ := ThrottleRecord.eq_of_allowedAt? alert
        have made : (ThrottleRecord.decided call .allowed).call? = some call := if_pos enabled
        rw [List.filterMap_cons_some alert]
        simpa [ThrottleLog.calls, made] using ih.cons_cons call.now
  have since := (List.rtakeWhile_suffix (fun record => !record.drops rule) log).sublist
  apply List.Pairwise.sublist ((instants _).trans ((since.filterMap _).map ThrottleCall.now))
  exact List.pairwise_map.mpr ordered

/-! ### What a status lists -/

theorem GroupWindow.isThrottled_status (w : GroupWindow) (key : String) (capacity : Nat)
    (start now : Instant) : (w.status key capacity start now).isThrottled = true ↔
      capacity ≤ (w.recent.toList.filter fun t => start < t).length :=
  decide_eq_true_iff

namespace RuleState

/-- A rule lists a group as throttled just when the entries of the group fill its window. -/
theorem lists_throttled_iff (s : RuleState) (pos : 0 < s.limit.capacity) (name key : String)
    (now : Instant) :
    (∃ g ∈ (s.status name now).groups, g.group = key ∧ g.isThrottled = true) ↔
      s.limit.capacity ≤ ((s.entries key).filter fun t => now - s.limit.window < t).length := by
  constructor
  · rintro ⟨g, member, rfl, throttled⟩
    simp only [status, Table.values, Table.map, List.map_map, List.mem_map] at member
    obtain ⟨⟨key, w⟩, entry, rfl⟩ := member
    have full := (w.isThrottled_status _ _ _ _).mp throttled
    have found : s.groups.get? key = some w := (Table.mem_toList_iff _ _ _).mp entry
    simpa [GroupWindow.status, entries, found] using full
  · intro full
    cases found : s.groups.get? key with
    | none =>
      simp only [entries, found, Option.map_none, Option.getD_none, List.filter_nil,
        List.length_nil] at full
      omega
    | some w =>
      simp only [entries, found, Option.map_some, Option.getD_some] at full
      refine ⟨w.status key s.limit.capacity (now - s.limit.window) now, ?_, rfl,
        (w.isThrottled_status _ _ _ _).mpr full⟩
      simp only [status, Table.values, Table.map, List.map_map, List.mem_map]
      exact ⟨(key, w), (Table.mem_toList_iff _ _ _).mpr found, rfl⟩

theorem denied_iff_full {s : RuleState} {key : String} {limit : RateLimit} {now : Instant}
    (pos : 0 < limit.capacity) (ordered : (s.entries key).Pairwise (· ≤ ·)) :
    (s.offer key limit now).2 ≠ .allowed ↔
      limit.capacity ≤ ((s.entries key).filter fun t => now - limit.window < t).length := by
  constructor
  · intro denied
    apply Nat.le_of_not_lt
    intro room
    exact denied (offer_of_room pos ordered room).1
  · intro full passes
    rw [(offer_of_full pos ordered full).1] at passes
    cases passes

end RuleState

namespace Throttle

/-- Whatever a throttle has been through under a clock that does not go back, a call under the last
limit of its rule is denied just when the status of the rule at that instant lists its group as
throttled. A group that is not listed is not throttled. -/
theorem denied_iff_throttled {t : Throttle} {log : ThrottleLog} (reached : Reached log t)
    (ordered : log.Ordered) {call : ThrottleCall} (state : (t.get? call.rule).isSome)
    (last : log.lastLimit? call.rule = some call.limit) :
    t.decision call ≠ .allowed ↔
      ∃ status ∈ t.statusOf call.rule call.now,
        ∃ g ∈ status.groups, g.group = call.group ∧ g.isThrottled = true := by
  obtain ⟨s, found⟩ := Option.isSome_iff_exists.mp state
  have limit : s.limit = call.limit :=
    Option.some.inj ((limited_of_reached reached call.rule s found).symm.trans last)
  have enabled : call.limit.isEnabled := by
    obtain ⟨earlier, made, _, same⟩ := ThrottleLog.mem_calls_of_lastLimit? last
    exact same ▸ ThrottleLog.enabled_of_mem_calls made
  have pos := RateLimit.capacity_pos enabled
  have inOrder : (s.entries call.group).Pairwise (· ≤ ·) := by
    have genuine := genuine_of_reached reached call.rule call.group
    simp only [entries, found, Option.map_some, Option.getD_some] at genuine
    exact (ordered.allowed _ _).sublist genuine
  have listed := s.lists_throttled_iff (limit ▸ pos) call.rule call.group call.now
  rw [limit] at listed
  rw [(t.call_of_enabled enabled).1, ruleAfter, rule, found, Option.getD_some,
    RuleState.denied_iff_full pos inOrder, ← listed]
  simp [statusOf, found]

/-- Three alerts of a port pass, and then the limit is lowered by a call of another port. -/
def loweredElsewhere : List Operation :=
  let three (second : Int) := { portCall "a" (Instant.ofNanos (second * 1000000000)) with
    limit := ⟨3, 60, some "port"⟩ }
  [.allow (three 0), .allow (three 1), .allow (three 2),
   .allow (portCall "b" (Instant.ofNanos 3000000000))]

set_option maxRecDepth 1000 in
/-- The first port, which still has slots for three, is listed as throttled under the lower limit. -/
theorem throttled_by_loweredElsewhere :
    let t := (run loweredElsewhere).1
    let call := portCall "a" (Instant.ofNanos 3000000000)
    (run loweredElsewhere).2.Ordered ∧ (t.get? "link").isSome ∧
      (run loweredElsewhere).2.lastLimit? "link" = some call.limit ∧
      t.decision call = .denied 2 60 2 ∧
      ∃ status ∈ t.statusOf "link" call.now,
        ∃ g ∈ status.groups, g.group = "a" ∧ g.isThrottled = true := by
  intro t call
  have ordered : (run loweredElsewhere).2.Ordered := by
    unfold ThrottleLog.Ordered
    decide +kernel
  have state : (t.get? "link").isSome := by decide +kernel
  have last : (run loweredElsewhere).2.lastLimit? "link" = some call.limit := by decide +kernel
  have denied : t.decision call = .denied 2 60 2 := by decide +kernel
  have listed : t.decision call ≠ .allowed ↔ _ :=
    denied_iff_throttled (run_reached loweredElsewhere) ordered state last
  exact ⟨ordered, state, last, denied, listed.mp (denied ▸ by decide)⟩

end Throttle

end AlertAdmission
