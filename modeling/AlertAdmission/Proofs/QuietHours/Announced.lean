import AlertAdmission.Proofs.QuietHours.Delivery

/-!
Whether it is quiet when held alerts go out.

An answer is the end of a window by the clocks of the zone where they show that end on the day of
the question and are not moved on the way to the answer. Otherwise they are short of the end by some
time (`shortfall`), and the alerts go out within quiet hours when that is no more than the length of
the window (`quiet_at_nextDelivery_iff`).
-/

namespace AlertAdmission.QuietHours

/-! ### Windows by the clock -/

/-- How long clocks run from one wall time until they show the time of day of another. -/
def ahead (wall target : WallTime) : Span := (target - wall) % Span.day

theorem ahead_emod (wall target : Int) : ahead (wall % Span.day) target = ahead wall target :=
  Int.sub_emod_emod _ _ _

theorem ahead_of_timesOfDay {wall target : Int} (hw : 0 ≤ wall ∧ wall < Span.day)
    (ht : 0 ≤ target ∧ target < Span.day) :
    ahead wall target = if wall ≤ target then target - wall else target - wall + Span.day := by
  unfold ahead
  split
  · exact Int.emod_eq_of_lt (by lia) (by lia)
  · rw [← Int.add_emod_right]
    exact Int.emod_eq_of_lt (by lia) (by lia)

theorem ofMinutes_le_iff (m : Nat) {wall : Int} (nonneg : 0 ≤ wall) :
    (Span.ofMinutes m : Int) ≤ wall ↔ m ≤ wall.toNat / 60000000000 := by
  unfold Span.ofMinutes Span.ofSeconds
  lia

theorem ofMinutes_mem_day {m : Nat} (h : m < 1440) :
    (0 : Int) ≤ Span.ofMinutes m ∧ (Span.ofMinutes m : Int) < Span.day := by
  unfold Span.ofMinutes Span.ofSeconds Span.day Span.ofHours Span.ofSeconds
  lia

theorem inWindow_iff_ahead {start finish : Nat} (hs : start < 1440) (hf : finish < 1440)
    (wall : WallTime) :
    inWindow (sinceMidnight wall / 60000000000) start finish = true ↔
      (0 : Int) < ahead wall (Span.ofMinutes finish) ∧
        (ahead wall (Span.ofMinutes finish) : Int) ≤
          ahead (Span.ofMinutes start) (Span.ofMinutes finish) := by
  have nonneg : (0 : Int) ≤ wall % Span.day := Int.emod_nonneg _ (by decide)
  have below : (wall % Span.day : Int) < Span.day := Int.emod_lt_of_pos _ (by decide)
  have started := ofMinutes_le_iff start nonneg
  have ended := ofMinutes_le_iff finish nonneg
  have startInDay := ofMinutes_mem_day hs
  have finishInDay := ofMinutes_mem_day hf
  have order : (Span.ofMinutes start : Int) ≤ Span.ofMinutes finish ↔ start ≤ finish := by
    unfold Span.ofMinutes Span.ofSeconds
    lia
  rw [← ahead_emod wall, ahead_of_timesOfDay ⟨nonneg, below⟩ finishInDay,
    ahead_of_timesOfDay startInDay finishInDay]
  unfold inWindow sinceMidnight
  -- only the order of the three times of day is left
  generalize (wall % Span.day : Int) = w at *
  generalize (Span.ofMinutes start : Int) = s at *
  generalize (Span.ofMinutes finish : Int) = f at *
  generalize w.toNat / 60000000000 = minute at *
  by_cases sameDay : start ≤ finish
  · rw [if_pos sameDay, if_pos (order.mpr sameDay)]
    simp only [Bool.and_eq_true, decide_eq_true_eq]
    split <;> lia
  · rw [if_neg sameDay, if_neg (mt order.mp sameDay)]
    simp only [Bool.or_eq_true, decide_eq_true_eq]
    split <;> lia

variable {q : QuietHours} {z : Zone} {now t finishToday : Instant} {start finish : Nat}

theorem suppresses_checkIn_iff (started : TimeOfDay.parse q.startTime = .ok start)
    (ended : TimeOfDay.parse q.endTime = .ok finish) (severity : Severity) :
    (q.checkIn z severity t).suppresses = true ↔
      ¬ (q.bypassCritical = true ∧ severity = .critical) ∧
        q.appliesOn (Weekday.ofDays (z.localDay t)) = true ∧
        inWindow (z.minuteOfDay t) start finish = true := by
  have configured : q.isConfigured = true := by
    simp [isConfigured, TimeOfDay.ne_empty_of_parse started, TimeOfDay.ne_empty_of_parse ended]
  unfold checkIn
  rw [configured]
  by_cases bypassed : q.bypassCritical = true ∧ severity = .critical
  · simp [bypassed, QuietVerdict.suppresses]
  · by_cases applies : q.appliesOn (Weekday.ofDays (z.localDay t)) = true
    · by_cases inside : inWindow (z.minuteOfDay t) start finish = true <;>
        simp [bypassed, applies, inside, windowVerdict, started, ended, QuietVerdict.suppresses]
    · simp [bypassed, applies, QuietVerdict.suppresses]

/-! ### Answers -/

/-- How long the clocks still have to run, at an answer, to the end that was asked for: they fall
short by what they are put back since the end of the window on the day of the question, less what
that end was moved in a gap. -/
def shortfall (z : Zone) (wanted : WallTime) (finishToday t : Instant) : Span :=
  (z.setBack finishToday t - (z.wallTime finishToday - wanted)) % Span.day

theorem nanos_of_answer (ordinary : finishToday.leap = false) :
    ∃ days : Int, (if finishToday < now then finishToday + Span.day else finishToday).nanos =
      finishToday.nanos + days * Span.day := by
  split
  · exact ⟨1, by rw [Instant.add_of_ordinary ordinary, Int.one_mul]; rfl⟩
  · exact ⟨0, by simp⟩

/-- Whole days make no difference to clocks but by what they are moved. -/
theorem ahead_eq_shortfall {days : Int} (later : t.nanos = finishToday.nanos + days * Span.day)
    (day : Int) : ahead (z.wallTime t) (Span.ofMinutes finish) =
      shortfall z (wallTimeOf day finish) finishToday t := by
  have whole : (Span.ofMinutes finish - z.wallTime t : Int) =
      z.setBack finishToday t - (z.wallTime finishToday - wallTimeOf day finish) +
        Span.day * (-day - days) := by
    unfold Zone.setBack Zone.wallTime Instant.wallTime wallTimeOf startOfDay
    lia
  unfold ahead shortfall
  rw [whole, Int.add_mul_emod_self_left]

/-- It is quiet at an answer exactly when the day and the severity allow it and the clocks are short
of the end of the window, by no more than the length of the window. It is not where the clocks show
that end on the day of the question and are not moved until the answer. -/
theorem quiet_at_nextDelivery_iff (started : TimeOfDay.parse q.startTime = .ok start)
    (h : q.nextDeliveryIn z now = .ok t) (severity : Severity) :
    ∃ finish finishToday, TimeOfDay.parse q.endTime = .ok finish ∧
      z.resolve? (wallTimeOf (z.localDay now) finish) = some finishToday ∧
      ((q.checkIn z severity t).suppresses = true ↔
        ¬ (q.bypassCritical = true ∧ severity = .critical) ∧
          q.appliesOn (Weekday.ofDays (z.localDay t)) = true ∧
          (0 : Int) < shortfall z (wallTimeOf (z.localDay now) finish) finishToday t ∧
          (shortfall z (wallTimeOf (z.localDay now) finish) finishToday t : Int) ≤
            ahead (Span.ofMinutes start) (Span.ofMinutes finish)) ∧
      (z.wallTime finishToday = wallTimeOf (z.localDay now) finish →
        z.setBack finishToday t = 0 → (q.checkIn z severity t).suppresses = false) := by
  obtain ⟨finish, finishToday, ended, resolved, answer⟩ := nextDeliveryIn_ok h
  have short : ahead (z.wallTime t) (Span.ofMinutes finish) =
      shortfall z (wallTimeOf (z.localDay now) finish) finishToday t := by
    have whole : ∃ days : Int, t.nanos = finishToday.nanos + days * Span.day := by
      rw [answer]
      exact nanos_of_answer (Zone.resolve_shows resolved).1
    obtain ⟨days, later⟩ := whole
    exact ahead_eq_shortfall later _
  have quiet := suppresses_checkIn_iff (z := z) (t := t) started ended severity
  have inside := inWindow_iff_ahead (TimeOfDay.parse_lt started) (TimeOfDay.parse_lt ended)
    (z.wallTime t)
  rw [short] at inside
  rw [Zone.minuteOfDay, inside] at quiet
  refine ⟨finish, finishToday, ended, resolved, quiet, fun shown unmoved => ?_⟩
  have none : (shortfall z (wallTimeOf (z.localDay now) finish) finishToday t : Int) = 0 := by
    unfold shortfall
    rw [shown, unmoved]
    simp
  rw [none] at quiet
  simpa using quiet

/-- Eleven in the evening before New York puts its clocks back in 2024. -/
def eveOfLongDay : Instant := Zone.momentOf 2024 11 3 3 0

theorem until_seven_opens : TimeOfDay.parse (newYorkUntil "07:00").startTime = .ok 1320 := by decide

theorem until_seven_closes : TimeOfDay.parse (newYorkUntil "07:00").endTime = .ok 420 := by decide

/-- The answer is 24 hours after seven of the day before, which is six, when alerts are still held. -/
theorem held_at_six : (newYorkUntil "07:00").nextDelivery eveOfLongDay =
      .ok (Zone.momentOf 2024 11 3 11 0) ∧
    ((newYorkUntil "07:00").check .warning (Zone.momentOf 2024 11 3 11 0)).suppresses = true := by
  decide +kernel

/-- Alerts held until seven go out at six. -/
theorem quiet_at_nextDelivery_on_long_day :
    (newYorkUntil "07:00").nextDelivery eveOfLongDay = .ok (Zone.momentOf 2024 11 3 11 0) ∧
      ((newYorkUntil "07:00").check .warning (Zone.momentOf 2024 11 3 11 0)).suppresses = true := by
  obtain ⟨finish, finishToday, ended, resolved, quiet, -⟩ :=
    quiet_at_nextDelivery_iff until_seven_opens held_at_six.1 .warning
  cases until_seven_closes.symm.trans ended
  have dayBefore : Zone.momentOf 2024 11 2 11 0 = finishToday :=
    Option.some.inj ((show (newYorkUntil "07:00").zone.resolve? _ =
      some (Zone.momentOf 2024 11 2 11 0) by decide +kernel).symm.trans resolved)
  subst dayBefore
  exact ⟨held_at_six.1, quiet.mpr (by decide +kernel)⟩

theorem not_all_answers_outside :
    ¬ ∀ (q : QuietHours) (severity : Severity) (now t : Instant),
      (∃ start, TimeOfDay.parse q.startTime = .ok start) →
      (∃ finish, TimeOfDay.parse q.endTime = .ok finish) →
      q.nextDelivery now = .ok t → (q.check severity t).suppresses = false := by
  intro claim
  have outside := claim (newYorkUntil "07:00") .warning eveOfLongDay _
    ⟨1320, until_seven_opens⟩ ⟨420, until_seven_closes⟩ held_at_six.1
  rw [held_at_six.2] at outside
  cases outside

end AlertAdmission.QuietHours
