import AlertAdmission.Proofs.Throttle.Recall

/-!
A throttle counts nothing but what it has let pass, under any clock and any limits.

The entries of a group are a sublist of its alerts allowed since its rule was last dropped
(`Throttle.Genuine`): whatever order they come in, none is counted twice and none is made up. So no
alert is denied without cause (`Throttle.denial_justified`). Whether an alert is let pass that should
not be is another matter, and does depend on the clock.
-/

namespace AlertAdmission

open Instant (Trims)

/-! ### One group -/

namespace GroupWindow

variable {w : GroupWindow} {capacity : Nat} {window : Span} {now : Instant}

theorem sublist_prepare (pos : 0 < capacity) (w : GroupWindow) (window : Span) (now : Instant) :
    (w.prepare capacity window now).recent.toList.Sublist w.recent.toList := by
  have fits := (Instant.rtake_suffix w.recent.toList capacity).sublist
  rcases toList_prepare pos w window now with same | compacted
  · simpa only [same] using fits
  · rw [compacted]
    exact List.filter_sublist.trans fits

theorem sublist_push (w : GroupWindow) (now : Instant) :
    (w.push now).recent.toList.Sublist (w.recent.toList ++ [now]) := by
  by_cases free : w.recent.size < w.recent.capacity
  · exact (Ring.toList_push_of_room w.recent now free).symm ▸ List.Sublist.refl _
  · have full : w.recent.size = w.recent.capacity :=
      Nat.le_antisymm w.recent.size_le (Nat.le_of_not_lt free)
    exact (Ring.toList_push_of_full w.recent now full).symm ▸
      (List.tail_sublist _).append_right [now]

/-- A ready group counts no more than its slots, so a full window is exactly as full as the limit
says, and the entries that fill it were there before. -/
theorem offer_cases (pos : 0 < capacity) (w : GroupWindow) (window : Span) (now : Instant) :
    ((w.offer capacity window now).2 = none ∧
        (w.offer capacity window now).1.recent.toList.Sublist (w.recent.toList ++ [now])) ∨
      ((w.offer capacity window now).2 = some capacity ∧
        capacity ≤ (w.recent.toList.filter fun t => now - window < t).length ∧
        (w.offer capacity window now).1.recent.toList.Sublist w.recent.toList) := by
  have ready := sublist_prepare pos w window now
  have slots := Ring.length_toList_le (w.prepare capacity window now).recent
  rw [capacity_prepare pos] at slots
  unfold offer
  dsimp only
  generalize w.prepare capacity window now = prepared at ready slots ⊢
  split
  · exact .inl ⟨rfl, (sublist_push prepared now).trans (ready.append_right [now])⟩
  · next full =>
    have most : prepared.countSince (now - window) ≤ prepared.recent.toList.length :=
      List.length_filter_le _ _
    have exactly : prepared.countSince (now - window) = capacity := by omega
    have counted : prepared.countSince (now - window) ≤
        (w.recent.toList.filter fun t => now - window < t).length :=
      (ready.filter fun t => decide (now - window < t)).length_le
    exact .inr ⟨congrArg some exactly, exactly ▸ counted, ready⟩

end GroupWindow

/-! ### The groups of a rule -/

namespace RuleState

variable {key : String}

theorem offer_eq (s : RuleState) (key : String) (limit : RateLimit) (now : Instant) :
    ∃ w : GroupWindow, Trims [now - limit.window] (s.entries key) w.recent.toList ∧
      (s.offer key limit now).1.entries key =
        (w.offer limit.capacity limit.window now).1.recent.toList ∧
      (s.offer key limit now).2 = match (w.offer limit.capacity limit.window now).2 with
        | none => .allowed
        | some current => .denied limit.maxAlerts limit.periodSeconds current := by
  refine ⟨_, s.trims_ready key limit now, ?_, rfl⟩
  unfold offer
  simp only [entries_insert, if_true]

theorem sublist_offer_other (s : RuleState) (limit : RateLimit) (now : Instant) {group : String}
    (different : group ≠ key) :
    ((s.offer key limit now).1.entries group).Sublist (s.entries group) :=
  (s.trims_offer_other limit now different).suffix.sublist

end RuleState

/-! ### All rules -/

namespace Throttle

variable {t u : Throttle} {log : ThrottleLog} {record : ThrottleRecord} {call : ThrottleCall}

/-- Every entry is an alert of its group allowed since its rule was last dropped, and no two entries
are the same alert. -/
def Genuine (t : Throttle) (log : ThrottleLog) : Prop :=
  ∀ rule group, (t.entries rule group).Sublist (log.allowedSinceDrop rule group)

theorem call_eq (t : Throttle) (enabled : call.limit.isEnabled) :
    ∃ w : GroupWindow, Trims [call.cutoff] (t.entries call.rule call.group) w.recent.toList ∧
      (t.afterCall call).entries call.rule call.group =
        (w.offer call.limit.capacity call.limit.window call.now).1.recent.toList ∧
      t.decision call = match (w.offer call.limit.capacity call.limit.window call.now).2 with
        | none => .allowed
        | some current => .denied call.limit.maxAlerts call.limit.periodSeconds current := by
  obtain ⟨decision, after⟩ := t.call_of_enabled enabled
  have offered := (t.rule call.rule call.limit call.now).offer_eq call.group call.limit call.now
  rw [entries_rule] at offered
  rw [decision, after, entries_insert, if_pos rfl]
  exact offered

theorem call_cases (t : Throttle) (enabled : call.limit.isEnabled) :
    (t.decision call = .allowed ∧ ((t.afterCall call).entries call.rule call.group).Sublist
        (t.entries call.rule call.group ++ [call.now])) ∨
      (t.decision call =
          .denied call.limit.maxAlerts call.limit.periodSeconds call.limit.capacity ∧
        call.limit.capacity ≤ ((t.entries call.rule call.group).filter fun t =>
          call.cutoff < t).length ∧
        ((t.afterCall call).entries call.rule call.group).Sublist
          (t.entries call.rule call.group)) := by
  obtain ⟨w, trims, entries, decision⟩ := t.call_eq enabled
  have swept := trims.suffix.sublist
  rw [entries, decision]
  rcases w.offer_cases (RateLimit.capacity_pos enabled) call.limit.window call.now with
    ⟨passes, kept⟩ | ⟨stopped, full, kept⟩
  · rw [passes]
    exact .inl ⟨rfl, kept.trans (swept.append_right [call.now])⟩
  · rw [stopped]
    have before := (swept.filter fun t => decide (call.cutoff < t)).length_le
    exact .inr ⟨rfl, Nat.le_trans full before, kept.trans swept⟩

theorem sublist_afterCall_other (t : Throttle) (enabled : call.limit.isEnabled) {group : String}
    (different : group ≠ call.group) :
    ((t.afterCall call).entries call.rule group).Sublist (t.entries call.rule group) := by
  have kept := (t.rule call.rule call.limit call.now).sublist_offer_other call.limit call.now
    different
  rw [entries_rule] at kept
  rw [(t.call_of_enabled enabled).2, entries_insert, if_pos rfl]
  exact kept

theorem Genuine.decided (h : t.Genuine log) (enabled : call.limit.isEnabled) (group : String) :
    ((t.afterCall call).entries call.rule group).Sublist
      (ThrottleLog.allowedSinceDrop (log ++ [.decided call (t.decision call)]) call.rule group) := by
  have before := h call.rule group
  rw [ThrottleLog.allowedSinceDrop_snoc, if_neg (by simp [ThrottleRecord.drops])]
  by_cases own : group = call.group
  · subst own
    rcases t.call_cases enabled with ⟨passes, entries⟩ | ⟨stopped, _, entries⟩
    · have alert : (ThrottleRecord.decided call .allowed).allowedAt? call.rule call.group =
          some call.now := if_pos ⟨enabled, rfl, rfl⟩
      rw [passes, alert]
      exact entries.trans (before.append_right [call.now])
    · rw [stopped]
      exact (entries.trans before).trans (List.sublist_append_left _ _)
  · have kept := (t.sublist_afterCall_other enabled own).trans before
    exact kept.trans (List.sublist_append_left _ _)

theorem genuine_step (h : t.Genuine log) (step : Step t record u) :
    u.Genuine (log ++ [record]) := by
  intro rule group
  rcases step.entries_cases rule group with
    ⟨_, nothing⟩ | ⟨call, rfl, rfl, enabled, rfl⟩ | ⟨keeps, _, same⟩
  · rw [nothing]
    exact List.nil_sublist _
  · exact h.decided enabled group
  · rw [same, ThrottleLog.allowedSinceDrop_snoc, if_neg (by simp [keeps])]
    exact (h rule group).trans (List.sublist_append_left _ _)

theorem genuine_of_reached (h : Reached log t) : t.Genuine log := by
  induction h with
  | none => exact fun _ _ => List.Sublist.refl _
  | snoc _ step ih => exact genuine_step ih step

/-- Whenever an alert is denied, whatever the clock and the limits have done before, at least as many
alerts of its group as its limit counts were allowed in the window behind it, and the limit is what
the reason reports as the current count. -/
theorem denial_justified (operations : List Operation) {before after : ThrottleLog}
    {call : ThrottleCall} {decision : ThrottleDecision}
    (position : (run operations).2 = before ++ .decided call decision :: after)
    (denied : decision ≠ .allowed) :
    decision = .denied call.limit.maxAlerts call.limit.periodSeconds call.limit.capacity ∧
      decision.reason? = some ("throttled (limit: " ++ Nat.repr call.limit.capacity ++ " per " ++
        Nat.repr call.limit.periodSeconds.toNat ++ " seconds, current: " ++
        Nat.repr call.limit.capacity ++ ")") ∧
      call.limit.capacity ≤ ((before.allowedSinceDrop call.rule call.group).filter fun t =>
        call.cutoff < t).length := by
  obtain ⟨t, reached, rfl⟩ := (run_reached operations).justified before _ after position _ _ rfl
  by_cases enabled : call.limit.isEnabled
  · rcases t.call_cases enabled with ⟨passes, _⟩ | ⟨stopped, full, _⟩
    · exact absurd passes denied
    · have genuine := genuine_of_reached reached call.rule call.group
      have counted := (genuine.filter fun t => decide (call.cutoff < t)).length_le
      rw [stopped]
      exact ⟨rfl, rfl, Nat.le_trans full counted⟩
  · exact absurd (t.decision_of_disabled enabled).1 denied

/-- Two alerts of a port pass, the second after the clock has been put back. -/
def putBack : List Operation :=
  [.allow (portCall "a" (Instant.ofNanos 100000000000)),
   .allow (portCall "a" (Instant.ofNanos 0)),
   .allow (portCall "a" (Instant.ofNanos 50000000000))]

set_option maxRecDepth 1000 in
/-- The third alert is denied for the sake of both, one of which is still to come by the clock. -/
theorem denied_after_putBack :
    (run putBack).2 = (run putBack).2.take 2 ++
        .decided (portCall "a" (Instant.ofNanos 50000000000)) (.denied 2 60 2) :: [] ∧
      (ThrottleDecision.denied 2 60 2).reason? =
        some "throttled (limit: 2 per 60 seconds, current: 2)" ∧
      2 ≤ ((ThrottleLog.allowedSinceDrop ((run putBack).2.take 2) "link" "a").filter fun t =>
        (portCall "a" (Instant.ofNanos 50000000000)).cutoff < t).length := by
  have position : (run putBack).2 = (run putBack).2.take 2 ++
      .decided (portCall "a" (Instant.ofNanos 50000000000)) (.denied 2 60 2) :: [] := by rfl
  obtain ⟨_, reason, counted⟩ := denial_justified putBack position (by decide)
  exact ⟨position, reason, counted⟩

end Throttle

end AlertAdmission
