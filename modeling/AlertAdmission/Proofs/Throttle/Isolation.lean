import AlertAdmission.Proofs.Throttle.Recall

/-!
The groups of a rule do not affect each other, under limits that may change with every call.

Two runs are compared: one of calls of all groups and rules, and one of the calls of a single group
among them. They decide alike on these calls (`answers_filter`) as long as no window of the group
reaches back to one of its alerts that had left an earlier window of the rule. Where a period is
made longer that can happen: a call of another group under the shorter period drops the group as
idle, and what the longer period would have counted is lost (`not_isolated_from_shorter_period`).
-/

namespace AlertAdmission

def ThrottleCall.isOf (rule group : String) (call : ThrottleCall) : Bool :=
  call.rule = rule ∧ call.group = group

def ThrottleRecord.isOf (rule group : String) : ThrottleRecord → Bool
  | .decided call _ => call.isOf rule group
  | _ => false

def ThrottleRecord.isDenial : ThrottleRecord → Bool
  | .decided _ decision => !decision.isAllowed
  | _ => false

namespace Throttle

theorem answers_snoc (t : Throttle) (calls : List ThrottleCall) (last : ThrottleCall) :
    t.answers (calls ++ [last]) =
      t.answers calls ++ [.decided last ((t.answer calls).decision last)] := by
  induction calls generalizing t with
  | nil => rfl
  | cons call rest ih => exact congrArg _ (ih (t.afterCall call))

theorem isOf_iff {call : ThrottleCall} {rule group : String} :
    call.isOf rule group = true ↔ call.rule = rule ∧ call.group = group := by
  simp [ThrottleCall.isOf]

theorem told_filter (t : Throttle) (calls : List ThrottleCall) (rule group : String) :
    ThrottleLog.recalled ((t.answers calls).filter (ThrottleRecord.isOf rule group)) rule group =
        (t.answers calls).recalled rule group ∧
      ThrottleLog.allowedSinceDrop ((t.answers calls).filter (ThrottleRecord.isOf rule group))
        rule group = (t.answers calls).allowedSinceDrop rule group := by
  induction calls using List.reverseRecOn with
  | nil => exact ⟨rfl, rfl⟩
  | append_singleton calls last ih =>
    obtain ⟨recalled, allowed⟩ := ih
    rw [answers_snoc, List.filter_append]
    by_cases own : last.isOf rule group = true
    · rw [List.filter_cons_of_pos (by exact own), List.filter_nil]
      rw [ThrottleLog.recalled_snoc, ThrottleLog.recalled_snoc, recalled]
      rw [ThrottleLog.allowedSinceDrop_snoc, ThrottleLog.allowedSinceDrop_snoc, allowed]
      exact ⟨rfl, rfl⟩
    · rw [List.filter_cons_of_neg (by exact own), List.filter_nil, List.append_nil]
      have noAlert : (ThrottleRecord.decided last ((t.answer calls).decision last)).allowedAt? rule
          group = none := by
        rw [isOf_iff] at own
        cases (t.answer calls).decision last <;> simp [ThrottleRecord.allowedAt?, own]
      have noDenial : (ThrottleRecord.decided last ((t.answer calls).decision last)).deniedUnder?
          rule group = none := by
        rw [isOf_iff] at own
        cases (t.answer calls).decision last <;> simp [ThrottleRecord.deniedUnder?, own]
      rw [ThrottleLog.recalled_of_silent rfl noDenial noAlert, ThrottleLog.allowedSinceDrop_snoc,
        noAlert, allowed]
      exact ⟨recalled, (List.append_nil _).symm⟩

/-- The calls of a group follow each other where they follow those of its rule. -/
theorem trails_filter {t : Throttle} {calls : List ThrottleCall} {rule group : String}
    (trails : (t.answers calls).Trails rule group) : ThrottleLog.Trails
      ((t.answers calls).filter (ThrottleRecord.isOf rule group)) rule group := by
  induction calls using List.reverseRecOn with
  | nil => exact .nil
  | append_singleton calls last ih =>
    rw [answers_snoc] at trails ⊢
    rw [List.filter_append]
    by_cases own : last.isOf rule group = true
    · rw [List.filter_cons_of_pos (by exact own), List.filter_nil]
      apply (ih trails.of_append).snoc
      intro call called here earlier made same
      obtain ⟨rfl, rfl⟩ := here
      have follows := Justified.last trails call called ⟨rfl, rfl⟩
      have among := (List.filter_sublist.filterMap ThrottleRecord.call?).subset made
      rw [(told_filter t calls call.rule call.group).2]
      exact follows earlier among same
    · rw [List.filter_cons_of_neg (by exact own), List.filter_nil, List.append_nil]
      exact ih trails.of_append

/-- Leaving out the calls of all other groups leaves the decision on every call of a group as it
is. -/
theorem answers_filter (calls : List ThrottleCall) (rule group : String)
    (trails : (empty.answers calls).Trails rule group) :
    (empty.answers calls).filter (ThrottleRecord.isOf rule group) =
      empty.answers (calls.filter (ThrottleCall.isOf rule group)) := by
  -- by induction on the run from its end: both runs rule on a call from what the group remembers
  induction calls using List.reverseRecOn with
  | nil => rfl
  | append_singleton calls last ih =>
    have reached := answer_steps empty calls
    have alone := answer_steps empty (calls.filter (ThrottleCall.isOf rule group))
    have remembered := (told_filter empty calls rule group).1
    have apart := trails_filter trails
    rw [answers_snoc] at trails apart ⊢
    have same := ih trails.of_append
    rw [List.filter_append] at apart
    rw [List.filter_append, List.filter_append, same]
    rw [same] at apart remembered
    by_cases own : last.isOf rule group = true
    · rw [List.filter_cons_of_pos (by exact own), List.filter_nil] at apart ⊢
      rw [List.filter_cons_of_pos own, List.filter_nil, answers_snoc]
      obtain ⟨rfl, rfl⟩ := isOf_iff.mp own
      rw [decision_eq_rulingFrom reached trails.of_append fun on => trails.follows on ⟨rfl, rfl⟩,
        decision_eq_rulingFrom alone apart.of_append fun on => apart.follows on ⟨rfl, rfl⟩,
        remembered]
    · rw [List.filter_cons_of_neg (by exact own), List.filter_cons_of_neg own, List.filter_nil,
        List.filter_nil, List.append_nil, List.append_nil]

/-- A call of a port in one second, under a limit of so many alerts in so many seconds. -/
def periodCall (port : String) (maxAlerts : UInt32) (periodSeconds : UInt64) (second : Int) :
    ThrottleCall :=
  ⟨"link", .obj [("port", .str port)], ⟨maxAlerts, periodSeconds, some "port"⟩,
    Instant.ofNanos (second * 1000000000)⟩

/-- Two ports take turns while limits and periods change, at the end to a longer period. -/
def varied : List ThrottleCall :=
  [periodCall "a" 2 60 0, periodCall "b" 3 60 1, periodCall "a" 1 60 2, periodCall "b" 1 30 40,
   periodCall "a" 1 30 41, periodCall "a" 1 30 50, periodCall "a" 2 45 60]

set_option maxRecDepth 1000 in
/-- The calls of one port alone are decided as they are among the others: two of them are denied. -/
theorem alike_while_limits_vary :
    (empty.answers varied).Trails "link" "a" ∧
      (empty.answers (varied.filter (ThrottleCall.isOf "link" "a"))).map
          ThrottleRecord.isDenial = [false, true, false, true, false] ∧
      (empty.answers varied).filter (ThrottleRecord.isOf "link" "a") =
        empty.answers (varied.filter (ThrottleCall.isOf "link" "a")) := by
  have trails : (empty.answers varied).Trails "link" "a" := by
    unfold ThrottleLog.Trails
    decide +kernel
  exact ⟨trails, by decide +kernel, answers_filter varied "link" "a" trails⟩

/-- A minute after the only alert of one port, a call of the other port comes under a period of a
second, and then one of the first port under its long period. -/
def shortPeriodBetween : List ThrottleCall :=
  [periodCall "a" 1 1000 0, periodCall "b" 1 1 60, periodCall "a" 1 1000 61]

set_option maxRecDepth 1000 in
/-- A clock that goes on is not enough: the call of the other port lets one more alert pass. -/
theorem not_isolated_from_shorter_period :
    ¬ ∀ (calls : List ThrottleCall) (rule group : String),
      (∀ call ∈ calls, call.rule = rule ∧ call.limit.isEnabled = true) →
      (empty.answers calls).Ordered →
      (empty.answers calls).filter (ThrottleRecord.isOf rule group) =
        empty.answers (calls.filter (ThrottleCall.isOf rule group)) := by
  intro claim
  have alike : ∀ call ∈ shortPeriodBetween, call.rule = "link" ∧ call.limit.isEnabled = true := by
    decide +kernel
  have ordered : (empty.answers shortPeriodBetween).Ordered := by
    unfold ThrottleLog.Ordered
    decide +kernel
  have same := congrArg (List.map ThrottleRecord.isDenial)
    (claim shortPeriodBetween "link" "a" alike ordered)
  revert same
  decide +kernel

end Throttle

end AlertAdmission
