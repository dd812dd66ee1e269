import AlertAdmission.Proofs.Throttle.Log

/-!
What a record leaves of the state of one rule.

Whatever a record tells, either it drops the rule, or it is a call of the rule, or nothing but counts
of suppressed alerts is taken from the rule (`Throttle.Step.leaves`). What a throttle keeps from
record to record is proved from these three cases.
-/

namespace AlertAdmission

/-! ### Giving counts back -/

namespace RuleState

theorem recent_forgetSuppressed (s : RuleState) (key : String) :
    (s.forgetSuppressed.groups.get? key).map GroupWindow.recent =
      (s.groups.get? key).map GroupWindow.recent := by
  rw [forgetSuppressed, Table.get?_map]
  cases s.groups.get? key <;> rfl

theorem recent_deduct (s : RuleState) (told : List GroupSummary) (key : String) :
    ((s.deduct told).groups.get? key).map GroupWindow.recent =
      (s.groups.get? key).map GroupWindow.recent := by
  unfold deduct
  generalize s.groups = groups
  induction told generalizing groups with
  | nil => rfl
  | cons summary rest ih =>
    rw [List.foldl_cons, ih, Table.get?_modify]
    split
    · next same =>
      rw [same]
      cases groups.get? summary.group <;> rfl
    · rfl

/-- The limit of a rule and the allowed alerts of its groups stay as they are. -/
structure Recounts (f : RuleState → RuleState) : Prop where
  limit : ∀ s, (f s).limit = s.limit
  recent : ∀ s key, ((f s).groups.get? key).map GroupWindow.recent =
    (s.groups.get? key).map GroupWindow.recent

theorem recounts_id : Recounts id := ⟨fun _ => rfl, fun _ _ => rfl⟩

theorem recounts_forgetSuppressed : Recounts forgetSuppressed :=
  ⟨fun _ => rfl, recent_forgetSuppressed⟩

theorem recounts_deduct (told : List GroupSummary) : Recounts fun s => s.deduct told :=
  ⟨fun _ => rfl, fun s => s.recent_deduct told⟩

end RuleState

/-! ### Calls -/

theorem RuleState.limit_offer (s : RuleState) (key : String) (limit : RateLimit) (now : Instant) :
    (s.offer key limit now).1.limit = limit := by
  unfold offer sweep
  dsimp only
  split <;> rfl

namespace Throttle

variable {call : ThrottleCall}

def ruleAfter (t : Throttle) (call : ThrottleCall) : RuleState × ThrottleDecision :=
  (t.rule call.rule call.limit call.now).offer call.group call.limit call.now

theorem call_of_enabled (t : Throttle) (enabled : call.limit.isEnabled) :
    t.decision call = (t.ruleAfter call).2 ∧
      t.afterCall call = t.insert call.rule (t.ruleAfter call).1 := by
  rw [decision, afterCall, allow, if_pos enabled]
  exact ⟨rfl, rfl⟩

theorem decision_of_disabled (t : Throttle) (disabled : ¬ call.limit.isEnabled) :
    t.decision call = .allowed ∧ t.afterCall call = t := by
  rw [decision, afterCall, allow, if_neg disabled]
  exact ⟨rfl, rfl⟩

end Throttle

/-! ### Records -/

theorem ThrottleRecord.other_of_noCall {record : ThrottleRecord} (noCall : record.call? = none)
    (rule : String) : ∀ call ∈ record.call?, call.rule ≠ rule := by
  intro call made
  rw [noCall] at made
  cases made

namespace Throttle

variable {t u : Throttle} {record : ThrottleRecord} {rule : String}

theorem get?_cleanup (t : Throttle) (active : List String) (rule : String) :
    (t.cleanup active).get? rule = if active.contains rule then t.get? rule else none := by
  rw [cleanup, Table.get?_filter]
  cases t.get? rule with
  | none => exact (ite_self none).symm
  | some s => rfl

/-- What a record can leave of the state of a rule, and when it does. -/
inductive Leaves (t : Throttle) (record : ThrottleRecord) (rule : String) :
    Option RuleState → Prop where
  | dropped : record.drops rule = true → Leaves t record rule none
  | called {call : ThrottleCall} : record = .decided call (t.decision call) →
      call.limit.isEnabled → call.rule = rule → Leaves t record rule (some (t.ruleAfter call).1)
  | kept {f : RuleState → RuleState} : record.drops rule = false →
      (∀ call ∈ record.call?, call.rule ≠ rule) → RuleState.Recounts f →
      (record.keepsCounts rule = true → f = id) → Leaves t record rule ((t.get? rule).map f)

theorem Leaves.unchanged (keeps : record.drops rule = false)
    (other : ∀ call ∈ record.call?, call.rule ≠ rule) : Leaves t record rule (t.get? rule) := by
  simpa using Leaves.kept keeps other RuleState.recounts_id fun _ => rfl

theorem Leaves.modify {name : String} {f : RuleState → RuleState}
    (keeps : record.drops rule = false) (other : ∀ call ∈ record.call?, call.rule ≠ rule)
    (recounts : RuleState.Recounts f) (counts : record.keepsCounts rule = true → rule ≠ name) :
    Leaves t record rule ((t.modify name f).get? rule) := by
  rw [Table.get?_modify]
  split
  · next own =>
    subst own
    exact .kept keeps other recounts fun kept => absurd rfl (counts kept)
  · exact .unchanged keeps other

theorem Step.leaves (step : Step t record u) (rule : String) :
    Leaves t record rule (u.get? rule) := by
  cases step with
  | call call =>
    by_cases enabled : call.limit.isEnabled
    · rw [(t.call_of_enabled enabled).2, Table.get?_insert]
      split
      · next own => exact .called rfl enabled own.symm
      · next other => exact .unchanged rfl (by simp [ThrottleRecord.call?, Ne.symm other])
    · rw [(t.decision_of_disabled enabled).2]
      exact .unchanged rfl (by simp [ThrottleRecord.call?, enabled])
  | reset other =>
    rw [Throttle.reset, Table.get?_erase]
    split
    · next own => exact .dropped (by simp [ThrottleRecord.drops, own])
    · next different =>
      exact .unchanged (by simp [ThrottleRecord.drops, different])
        (ThrottleRecord.other_of_noCall rfl rule)
  | cleanup active =>
    rw [get?_cleanup]
    split
    · next kept =>
      exact .unchanged (by simpa [ThrottleRecord.drops] using kept)
        (ThrottleRecord.other_of_noCall rfl rule)
    · next gone => exact .dropped (by simpa [ThrottleRecord.drops] using gone)
  | resetCounts other =>
    refine .modify rfl (ThrottleRecord.other_of_noCall rfl rule)
      RuleState.recounts_forgetSuppressed ?_
    intro counts own
    simp [ThrottleRecord.keepsCounts, own] at counts
  | offered event published =>
    cases published with
    | false => exact .unchanged rfl (ThrottleRecord.other_of_noCall rfl rule)
    | true =>
      refine .modify rfl (ThrottleRecord.other_of_noCall rfl rule)
        (RuleState.recounts_deduct event.groups) ?_
      intro counts own
      simp [ThrottleRecord.keepsCounts, own] at counts

end Throttle

end AlertAdmission
