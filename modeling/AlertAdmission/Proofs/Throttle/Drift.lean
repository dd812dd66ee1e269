import AlertAdmission.Proofs.Throttle.Recall

/-!
Limits that are raised and lowered from one call to the next, over one period.

A limit is not always kept when it is raised. A call that is denied under a low limit leaves only as
many alerts as that limit counts, and until a higher limit has counted that many alerts again it
allows more, whatever the window holds. `exceeds_limit_iff` says exactly when a call goes over its
limit by that.
-/

namespace AlertAdmission

namespace ThrottleLog

/-- The calls of a rule are made under limits of one period. -/
def OnePeriod (log : ThrottleLog) (rule : String) : Prop :=
  ∀ call ∈ log.calls, ∀ other ∈ log.calls, call.rule = rule → other.rule = rule →
    call.limit.periodSeconds = other.limit.periodSeconds

/-- Between two parts of a log, a call of a group was denied under a limit of so many alerts, and its
rule has not been dropped since. -/
structure Denial (log : ThrottleLog) (rule group : String) (earlier : ThrottleLog)
    (capacity : Nat) (later : ThrottleLog) : Prop where
  position : ∃ record : ThrottleRecord,
    record.deniedUnder? rule group = some capacity ∧ log = earlier ++ record :: later
  kept : ∀ record ∈ later, record.drops rule = false

/-- At a call, a denial under a lower limit hides alerts: with those allowed since, the lower limit
comes to less than the limit of the call counts, but the alerts in the window do not. -/
def Hides (log : ThrottleLog) (call : ThrottleCall) : Prop :=
  ∃ earlier capacity later, log.Denial call.rule call.group earlier capacity later ∧
    capacity + (later.allowedSinceDrop call.rule call.group).length < call.limit.capacity ∧
    call.limit.capacity ≤ ((earlier.allowedSinceDrop call.rule call.group).filter fun t =>
      call.cutoff < t).length + (later.allowedSinceDrop call.rule call.group).length

/-- The allowed alerts of the group of a call in the window that ends with the call. -/
def inWindow (log : ThrottleLog) (call : ThrottleCall) : List Instant :=
  (log.allowedSinceDrop call.rule call.group).filter fun t => call.cutoff < t ∧ t ≤ call.now

variable {log : ThrottleLog} {rule group : String}

theorem OnePeriod.of_append {more : ThrottleLog} (h : OnePeriod (log ++ more) rule) :
    log.OnePeriod rule :=
  fun call before other before' =>
    h call (mem_calls_append before more) other (mem_calls_append before' more)

theorem OnePeriod.trails (one : log.OnePeriod rule) (steady : log.Steady) (group : String) :
    log.Trails rule group := by
  rintro before record after rfl call called ⟨own, _⟩ earlier made same
  rw [List.append_cons] at one steady
  have last : call ∈ calls [record] := List.mem_filterMap.mpr ⟨_, List.mem_singleton_self _, called⟩
  have now : call ∈ calls (before ++ [record]) := by
    rw [calls_append]
    exact List.mem_append_right _ last
  have period := one.of_append earlier (mem_calls_append made _) call now (same.trans own) own
  have window : earlier.limit.window = call.limit.window :=
    congrArg (fun p => windowLength (UInt64.toNat p)) period
  have leads := Steady.of_append steady
  rw [Steady, calls_append, List.pairwise_append] at leads
  have start := leads.2.2 earlier made call last
  refine ⟨start.1, fun t _ reached => Instant.le_trans reached ?_⟩
  unfold ThrottleCall.cutoff
  rw [window]
  exact start.2

theorem allowedSinceDrop_append {more : ThrottleLog}
    (kept : ∀ record ∈ more, record.drops rule = false) :
    (log ++ more).allowedSinceDrop rule group =
      log.allowedSinceDrop rule group ++ more.allowedSinceDrop rule group := by
  induction more using List.reverseRecOn with
  | nil => simp [allowedSinceDrop]
  | append_singleton more last ih =>
    have before := ih fun record member => kept record (List.mem_append_left _ member)
    have keeps := kept last (List.mem_append_right _ (List.mem_singleton_self last))
    rw [← List.append_assoc, allowedSinceDrop_snoc, allowedSinceDrop_snoc, keeps, before]
    simp

theorem keeps_of_deniedUnder? {record : ThrottleRecord} {capacity : Nat}
    (h : record.deniedUnder? rule group = some capacity) : record.drops rule = false := by
  cases record with
  | decided call decision => rfl
  | reset other => cases h
  | cleaned active => cases h
  | countsReset other => cases h
  | offered event published => cases h

theorem Denial.snoc {earlier later : ThrottleLog} {capacity : Nat} {last : ThrottleRecord}
    (h : log.Denial rule group earlier capacity later) (keeps : last.drops rule = false) :
    Denial (log ++ [last]) rule group earlier capacity (later ++ [last]) := by
  obtain ⟨⟨record, denied, rfl⟩, kept⟩ := h
  refine ⟨⟨record, denied, by simp⟩, fun other member => ?_⟩
  rcases List.mem_append.mp member with old | new
  · exact kept other old
  · rw [List.mem_singleton.mp new]
    exact keeps

theorem Denial.allowed {earlier later : ThrottleLog} {capacity : Nat}
    (h : log.Denial rule group earlier capacity later) : log.allowedSinceDrop rule group =
      earlier.allowedSinceDrop rule group ++ later.allowedSinceDrop rule group := by
  obtain ⟨⟨record, denied, rfl⟩, kept⟩ := h
  have silent := ThrottleRecord.allowedAt?_of_deniedUnder? denied
  rw [List.append_cons, allowedSinceDrop_append kept, allowedSinceDrop_snoc,
    keeps_of_deniedUnder? denied, silent]
  simp

/-- What is remembered after a denial is no more than its limit counts and what is allowed since. -/
theorem Denial.length_recalled_le {earlier later : ThrottleLog} {capacity : Nat}
    (h : log.Denial rule group earlier capacity later) : (log.recalled rule group).length ≤
      capacity + (later.allowedSinceDrop rule group).length := by
  obtain ⟨⟨record, denied, rfl⟩, kept⟩ := h
  induction later using List.reverseRecOn with
  | nil =>
    rw [recalled_snoc, ThrottleRecord.recalled, keeps_of_deniedUnder? denied, denied]
    simp only [Bool.false_eq_true, if_false, Instant.length_rtake]
    omega
  | append_singleton later last ih =>
    have before := ih fun other member => kept other (List.mem_append_left _ member)
    have keeps := kept last (List.mem_append_right _ (List.mem_singleton_self last))
    rw [← List.cons_append, ← List.append_assoc, recalled_snoc, allowedSinceDrop_snoc,
      ThrottleRecord.recalled, keeps]
    cases denied : last.deniedUnder? rule group with
    | none =>
      simp only [Bool.false_eq_true, if_false, List.length_append]
      omega
    | some lower =>
      simp only [Bool.false_eq_true, if_false, List.length_append, Instant.length_rtake]
      omega

/-- Where a group has forgotten alerts, one of its denials tells how many are left. -/
theorem length_recalled (log : ThrottleLog) (rule group : String) :
    (log.recalled rule group).length = (log.allowedSinceDrop rule group).length ∨
      ∃ earlier capacity later, log.Denial rule group earlier capacity later ∧
        (log.recalled rule group).length =
          capacity + (later.allowedSinceDrop rule group).length := by
  induction log using List.reverseRecOn with
  | nil => exact .inl rfl
  | append_singleton log last ih =>
    rw [recalled_snoc, allowedSinceDrop_snoc, ThrottleRecord.recalled]
    cases drops : last.drops rule with
    | true => exact .inl rfl
    | false =>
      simp only [Bool.false_eq_true, if_false]
      cases denied : last.deniedUnder? rule group with
      | none =>
        rcases ih with all | ⟨earlier, capacity, later, denial, left⟩
        · exact .inl (by rw [List.length_append, List.length_append, all])
        · refine .inr ⟨earlier, capacity, later ++ [last], denial.snoc drops, ?_⟩
          rw [allowedSinceDrop_snoc, drops, List.length_append, left]
          simp [Nat.add_assoc]
      | some lower =>
        rw [ThrottleRecord.allowedAt?_of_deniedUnder? denied, Instant.length_rtake]
        by_cases few : (recalled log rule group).length < lower
        · rw [Nat.min_eq_right (Nat.le_of_lt few)]
          rcases ih with all | ⟨earlier, capacity, later, denial, left⟩
          · exact .inl (by simpa using all)
          · refine .inr ⟨earlier, capacity, later ++ [last], denial.snoc drops, ?_⟩
            rw [allowedSinceDrop_snoc, drops,
              ThrottleRecord.allowedAt?_of_deniedUnder? denied, left]
            simp
        · rw [Nat.min_eq_left (Nat.le_of_not_lt few)]
          exact .inr ⟨log, lower, [], ⟨⟨last, denied, rfl⟩, by simp⟩, rfl⟩

/-- At a call that remembers too few of the alerts in its window, it is a denial that hides them. -/
theorem hides_iff {call : ThrottleCall} (ordered :
    (log.allowedSinceDrop call.rule call.group).Pairwise (· ≤ ·)) :
    log.Hides call ↔
      (log.recalled call.rule call.group).length < call.limit.capacity ∧
        call.limit.capacity ≤ ((log.allowedSinceDrop call.rule call.group).filter fun t =>
          call.cutoff < t).length := by
  have most := List.length_filter_le (fun t => decide (call.cutoff < t))
  constructor
  · rintro ⟨earlier, capacity, later, denial, lower, inWindow⟩
    refine ⟨Nat.lt_of_le_of_lt denial.length_recalled_le lower, ?_⟩
    rw [denial.allowed] at ordered ⊢
    -- some alert before the denial is in the window, so all after it are
    have since : ((later.allowedSinceDrop call.rule call.group).filter fun t =>
        call.cutoff < t) = later.allowedSinceDrop call.rule call.group := by
      obtain ⟨t, there⟩ := List.exists_mem_of_length_pos (show 0 < ((earlier.allowedSinceDrop
        call.rule call.group).filter fun t => call.cutoff < t).length by omega)
      obtain ⟨member, newer⟩ := List.mem_filter.mp there
      apply List.filter_eq_self.mpr
      intro u later
      have order := (List.pairwise_append.mp ordered).2.2 t member u later
      simpa using Instant.lt_of_lt_of_le (by simpa using newer) order
    rw [List.filter_append, List.length_append, since]
    exact inWindow
  · rintro ⟨fewer, inWindow⟩
    rcases log.length_recalled call.rule call.group with
      all | ⟨earlier, capacity, later, denial, left⟩
    · have := most (log.allowedSinceDrop call.rule call.group)
      omega
    · refine ⟨earlier, capacity, later, denial, by omega, ?_⟩
      have since := most (later.allowedSinceDrop call.rule call.group)
      rw [denial.allowed, List.filter_append, List.length_append] at inWindow
      omega

theorem length_inWindow_allowed {call : ThrottleCall} (enabled : call.limit.isEnabled)
    (follows : log.Follows call) :
    (inWindow (log ++ [.decided call .allowed]) call).length =
      ((log.allowedSinceDrop call.rule call.group).filter fun t => call.cutoff < t).length + 1 := by
  have past : ((log.allowedSinceDrop call.rule call.group).filter fun t =>
      call.cutoff < t ∧ t ≤ call.now) =
        (log.allowedSinceDrop call.rule call.group).filter fun t => call.cutoff < t := by
    apply List.filter_congr
    intro t member
    obtain ⟨earlier, made, own, rfl⟩ := mem_calls_of_allowed member
    simp [(follows earlier made own).1]
  have later : call.cutoff < call.now := Instant.sub_lt (RateLimit.window_pos enabled)
  have own : (ThrottleRecord.decided call .allowed).allowedAt? call.rule call.group =
      some call.now := by
    simp [ThrottleRecord.allowedAt?, enabled]
  unfold inWindow
  rw [allowedSinceDrop_snoc, own, if_neg (by simp [ThrottleRecord.drops]), List.filter_append,
    past]
  simp [later, Instant.le_refl]

end ThrottleLog

namespace Throttle

/-- A call goes over its limit just when a denial under a lower limit hides alerts from it. -/
theorem exceeds_limit_iff (operations : List Operation) (steady : (run operations).2.Steady)
    {before after : ThrottleLog} {call : ThrottleCall} {decision : ThrottleDecision}
    (one : (run operations).2.OnePeriod call.rule) (enabled : call.limit.isEnabled)
    (position : (run operations).2 = before ++ .decided call decision :: after) :
    (decision = .allowed ∧ call.limit.capacity <
        (ThrottleLog.inWindow (before ++ [.decided call decision]) call).length) ↔
      before.Hides call := by
  obtain ⟨t, reached, rfl⟩ := (run_reached operations).justified before _ after position _ _ rfl
  rw [position, List.append_cons] at steady one
  have trails := one.of_append.trails (ThrottleLog.Steady.of_append steady) call.group
  have follows := trails.follows enabled ⟨rfl, rfl⟩
  have ordered := trails.of_append.ordered
  have decides := decision_eq_rulingFrom reached trails.of_append fun _ => follows
  have fewer := Instant.length_filter_suffix ordered
    (before.recalled_suffix call.rule call.group) call.cutoff
  rw [ThrottleLog.hides_iff ordered, decides, ThrottleCall.rulingFrom, if_pos enabled]
  by_cases room : ((before.recalled call.rule call.group).filter fun t =>
      call.cutoff < t).length < call.limit.capacity
  · rw [if_pos room, ThrottleLog.length_inWindow_allowed enabled follows]
    simp only [true_and]
    omega
  · rw [if_neg room]
    constructor
    · rintro ⟨denied, _⟩
      cases denied
    · omega

/-- A call of a rule in one second, under a limit of so many alerts in a minute. -/
def minuteCall (maxAlerts : UInt32) (second : Int) : ThrottleCall :=
  ⟨"link", .null, ⟨maxAlerts, 60, none⟩, Instant.ofNanos (second * 1000000000)⟩

/-- Three alerts pass. The fourth is denied under a limit that is lowered to two, and the fifth
passes under a limit that is raised again. -/
def loweredAndRaised : List ThrottleCall :=
  [minuteCall 3 0, minuteCall 3 1, minuteCall 3 2, minuteCall 2 3, minuteCall 3 59]

set_option maxRecDepth 1000 in
/-- The denial hides the first alert from the last call. -/
theorem hidden_by_lowered_limit :
    let log := (run (loweredAndRaised.map .allow)).2
    log.Steady ∧ log.OnePeriod "link" ∧
      log = log.take 4 ++ .decided (minuteCall 3 59) .allowed :: [] ∧
      3 < (ThrottleLog.inWindow (log.take 4 ++ [.decided (minuteCall 3 59) .allowed])
        (minuteCall 3 59)).length ∧
      ThrottleLog.Hides (log.take 4) (minuteCall 3 59) := by
  intro log
  have steady : log.Steady := by
    unfold ThrottleLog.Steady
    decide +kernel
  have one : log.OnePeriod "link" := by
    unfold ThrottleLog.OnePeriod
    decide +kernel
  have position : log = log.take 4 ++ .decided (minuteCall 3 59) .allowed :: [] := by rfl
  have beyond : 3 < (ThrottleLog.inWindow (log.take 4 ++ [.decided (minuteCall 3 59) .allowed])
      (minuteCall 3 59)).length := by decide +kernel
  exact ⟨steady, one, position, beyond,
    (exceeds_limit_iff (loweredAndRaised.map .allow) steady one rfl position).mp ⟨rfl, beyond⟩⟩

set_option maxRecDepth 1000 in
/-- A limit that is raised is not always kept, not even where there is nothing but calls of one
group. -/
theorem not_all_within_limit :
    ¬ ∀ (calls : List ThrottleCall) (before after : ThrottleLog) (call : ThrottleCall),
      (∀ c ∈ calls, c.rule = call.rule ∧ c.group = call.group ∧ c.limit.isEnabled = true ∧
        c.limit.periodSeconds = call.limit.periodSeconds) →
      (run (calls.map .allow)).2.Steady →
      (run (calls.map .allow)).2 = before ++ .decided call .allowed :: after →
      (ThrottleLog.inWindow (before ++ [.decided call .allowed]) call).length ≤
        call.limit.capacity := by
  intro claim
  have alike : ∀ c ∈ loweredAndRaised, c.rule = "link" ∧ c.group = "default" ∧
      c.limit.isEnabled = true ∧ c.limit.periodSeconds = 60 := by decide +kernel
  have steady : (run (loweredAndRaised.map .allow)).2.Steady := by
    unfold ThrottleLog.Steady
    decide +kernel
  have position : (run (loweredAndRaised.map .allow)).2 =
      (run (loweredAndRaised.map .allow)).2.take 4 ++
        .decided (minuteCall 3 59) .allowed :: [] := by rfl
  have within := claim loweredAndRaised _ _ _ alike steady position
  revert within
  decide +kernel

end Throttle

end AlertAdmission
