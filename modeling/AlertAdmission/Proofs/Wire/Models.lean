import AlertAdmission.Proofs.Wire.Stable
import AlertAdmission.Wire.Models

/-!
The forms of all models are stable.

Each proof goes through the fields of a record in the order in which they are read. At its end every
field is found under its name among the members that are written; the two that may be left out are
told apart by what is written for them.
-/

namespace AlertAdmission.Codec

theorem stable_alert : Stable alert := by
  apply stable_record
  refine .required stable_text fun rule => ?_
  refine .required stable_text fun device => ?_
  refine .required stable_text fun kind => ?_
  refine .required stable_severity fun severity => ?_
  refine .defaulted stable_any rfl fun fields => ?_
  apply Restores.pure
  and_intros
  · trivial
  all_goals rfl

theorem stable_heldAlert : Stable heldAlert := by
  apply stable_record
  refine .required stable_text fun rule => ?_
  refine .required stable_text fun kind => ?_
  refine .defaulted stable_any rfl fun payload => ?_
  refine .omissible rfl stable_severity fun severity => ?_
  refine .required stable_instant fun heldAt => ?_
  refine .required stable_text fun device => ?_
  apply Restores.pure
  and_intros
  · trivial
  all_goals rfl

/-- Data that are null are not written, and are null again when they are missing. -/
theorem stable_notification : Stable notification := by
  apply stable_record
  refine .required stable_text fun channel => ?_
  refine .required stable_text fun alert => ?_
  refine .required stable_text fun title => ?_
  refine .required stable_text fun message => ?_
  refine .required stable_severity fun severity => ?_
  refine .required stable_text fun kind => ?_
  refine .field (yields_defaulted stable_any "data" rfl) fun data _ => ?_
  refine .required stable_instant fun queuedAt => ?_
  refine .required stable_instant fun expiresAt => ?_
  apply Restores.pure
  cases data with
  | null =>
    and_intros
    · trivial
    all_goals rfl
  | _ =>
    and_intros
    · trivial
    all_goals rfl

theorem stable_quietHours : Stable quietHours := by
  apply stable_record
  refine .required stable_text fun startTime => ?_
  refine .required stable_text fun endTime => ?_
  refine .required stable_text fun timezone => ?_
  refine .required stable_flag fun bypassCritical => ?_
  refine .defaulted (stable_list stable_word8) fixes_nil fun daysOfWeek => ?_
  apply Restores.pure
  and_intros
  · trivial
  all_goals rfl

/-- A grouping that is absent is not written. -/
theorem stable_rateLimit : Stable rateLimit := by
  apply stable_record
  refine .required stable_word32 fun maxAlerts => ?_
  refine .required stable_word64 fun periodSeconds => ?_
  have yields := yields_defaulted (stable_optional rfl stable_text) "groupByField" fixes_none
  refine .field yields fun groupBy _ => ?_
  apply Restores.pure
  cases groupBy with
  | none =>
    and_intros
    · trivial
    all_goals rfl
  | _ =>
    and_intros
    · trivial
    all_goals rfl

theorem stable_stormConfig : Stable stormConfig := by
  apply stable_record
  refine .defaulted stable_word64 (fixes_word64 _) fun threshold => ?_
  refine .defaulted stable_word64 (fixes_word64 _) fun windowSeconds => ?_
  refine .defaulted stable_word64 (fixes_word64 _) fun cooldownSeconds => ?_
  apply Restores.pure
  and_intros
  · trivial
  all_goals rfl

theorem stable_stormStatus : Stable stormStatus := by
  apply stable_record
  refine .required stable_flag fun inStorm => ?_
  refine .omissible rfl stable_instant fun startedAt => ?_
  refine .required stable_count fun swallowed => ?_
  refine .required stable_double fun currentRate => ?_
  refine .required stable_double fun thresholdRate => ?_
  refine .required stable_duration fun cooldownRemaining => ?_
  apply Restores.pure
  and_intros
  · trivial
  all_goals rfl

theorem stable_groupSummary : Stable groupSummary := by
  apply stable_record
  refine .required stable_text fun group => ?_
  refine .required stable_count fun allowed => ?_
  refine .required stable_count fun suppressed => ?_
  refine .omissible rfl stable_instant fun oldest => ?_
  refine .omissible rfl stable_instant fun newest => ?_
  refine .required stable_instant fun windowStart => ?_
  apply Restores.pure
  and_intros
  · trivial
  all_goals rfl

theorem stable_ruleSummary : Stable ruleSummary := by
  apply stable_record
  refine .required stable_text fun rule => ?_
  refine .required stable_word32 fun maxAlerts => ?_
  refine .required stable_word64 fun periodSeconds => ?_
  refine .required stable_count fun totalAllowed => ?_
  refine .required stable_count fun totalSuppressed => ?_
  refine .required (stable_list stable_groupSummary) fun groups => ?_
  refine .required stable_text fun windowKind => ?_
  apply Restores.pure
  and_intros
  · trivial
  all_goals rfl

theorem stable_summaryEvent : Stable summaryEvent := by
  apply stable_record
  refine .required stable_text fun kind => ?_
  refine .required stable_text fun rule => ?_
  refine .required stable_count fun totalAllowed => ?_
  refine .required stable_count fun totalSuppressed => ?_
  refine .required stable_word64 fun periodSeconds => ?_
  refine .required (stable_list stable_groupSummary) fun groups => ?_
  apply Restores.pure
  and_intros
  · trivial
  all_goals rfl

theorem stable_groupStatus : Stable groupStatus := by
  apply stable_record
  refine .required stable_text fun group => ?_
  refine .required stable_flag fun isThrottled => ?_
  refine .required stable_count fun suppressed => ?_
  refine .required stable_instant fun windowStart => ?_
  refine .required stable_instant fun windowEnd => ?_
  apply Restores.pure
  and_intros
  · trivial
  all_goals rfl

theorem stable_ruleStatus : Stable ruleStatus := by
  apply stable_record
  refine .required stable_text fun rule => ?_
  refine .required stable_flag fun isThrottled => ?_
  refine .required stable_count fun suppressed => ?_
  refine .required stable_instant fun windowStart => ?_
  refine .required stable_instant fun windowEnd => ?_
  refine .required (stable_list stable_groupStatus) fun groups => ?_
  apply Restores.pure
  and_intros
  · trivial
  all_goals rfl

theorem stable_queueSettings : Stable queueSettings := by
  apply stable_record
  refine .defaulted stable_word64 (fixes_word64 _) fun maxQueueSize => ?_
  refine .defaulted stable_duration (fixes_duration (by decide)) fun tickInterval => ?_
  refine .defaulted stable_duration (fixes_duration (by decide)) fun deliveryTimeout => ?_
  apply Restores.pure
  and_intros
  · trivial
  all_goals rfl

theorem stable_quietHoursSettings : Stable quietHoursSettings := by
  apply stable_record
  refine .defaulted (stable_optional rfl stable_text) fixes_none fun startTime => ?_
  refine .defaulted (stable_optional rfl stable_text) fixes_none fun endTime => ?_
  refine .defaulted (stable_optional rfl stable_text) fixes_none fun timezone => ?_
  refine .defaulted (stable_optional rfl stable_flag) fixes_none fun bypassCritical => ?_
  refine .defaulted (stable_optional rfl (stable_list stable_double)) fixes_none fun daysOfWeek => ?_
  apply Restores.pure
  and_intros
  · trivial
  all_goals rfl

theorem stable_loggingSettings : Stable loggingSettings := by
  apply stable_record
  refine .defaulted stable_text rfl fun level => ?_
  refine .defaulted stable_text rfl fun format => ?_
  apply Restores.pure
  and_intros
  · trivial
  all_goals rfl

theorem stable_settings : Stable settings := by
  apply stable_record
  refine .defaulted stable_stormConfig (by unfold Fixes; decide +kernel) fun storm => ?_
  refine .defaulted stable_queueSettings (by unfold Fixes; decide +kernel) fun queue => ?_
  refine .defaulted (stable_optional rfl stable_quietHoursSettings) fixes_none fun quietHours => ?_
  refine .defaulted stable_loggingSettings (by unfold Fixes; decide +kernel) fun logging => ?_
  apply Restores.pure
  and_intros
  · trivial
  all_goals rfl

/-- Whatever value of a model is read from a proper document, it is read again from what is written
for it. This holds of every instant and every duration that can be read, in whichever of its forms,
and of records that were read from arrays too. -/
theorem models_stable :
    Stable alert ∧ Stable heldAlert ∧ Stable notification ∧ Stable quietHours ∧
      Stable rateLimit ∧ Stable stormConfig ∧ Stable stormStatus ∧ Stable ruleSummary ∧
      Stable summaryEvent ∧ Stable ruleStatus ∧ Stable queueSettings ∧
      Stable quietHoursSettings ∧ Stable settings :=
  ⟨stable_alert, stable_heldAlert, stable_notification, stable_quietHours, stable_rateLimit,
    stable_stormConfig, stable_stormStatus, stable_ruleSummary, stable_summaryEvent,
    stable_ruleStatus, stable_queueSettings, stable_quietHoursSettings, stable_settings⟩

/-- A queue that is passed every ninety seconds and leaves the rest as it is by default. -/
def ninetySeconds : Json := .obj [("tick_interval", .str "90s")]

/-- The interval is written in another way than it was read, and as the same duration. -/
theorem ninetySeconds_read_again :
    ∃ s, queueSettings.decode ninetySeconds = some s ∧
      queueSettings.encode s = .obj [("max_queue_size", .int 100),
        ("tick_interval", .str "1m 30s"), ("delivery_timeout", .str "30s")] ∧
      queueSettings.decode (queueSettings.encode s) = some s := by
  have proper : ninetySeconds.Proper := by
    refine .obj fun m member => ?_
    cases List.mem_singleton.mp member
    exact .str "90s"
  have read : queueSettings.decode ninetySeconds =
      some ⟨100, Duration.ofSeconds 90, Duration.ofSeconds 30⟩ := by
    decide +kernel
  have interval : (Duration.ofSeconds 90).write = "1m 30s" := by decide +kernel
  have timeout : (Duration.ofSeconds 30).write = "30s" := by decide +kernel
  obtain ⟨_, _, _, _, _, _, _, _, _, _, stable, _, _⟩ := models_stable
  refine ⟨_, read, ?_, stable ninetySeconds _ proper read⟩
  unfold queueSettings record duration
  dsimp only
  rw [interval, timeout]
  rfl

end AlertAdmission.Codec
