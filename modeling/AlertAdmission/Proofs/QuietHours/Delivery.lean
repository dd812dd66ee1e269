import AlertAdmission.Proofs.Time.Order
import AlertAdmission.Proofs.Zone.Resolution
import AlertAdmission.QuietHours
import AlertAdmission.Zone.Catalogue
import Mathlib.Control.Monad.Basic

/-!
When held alerts go out, against the time at which it is asked.

The answer is the end of the window on the day of the question or, where that has passed, the
instant 24 hours later. Days on which clocks are put back are longer than that: late on such a day
both have passed, and the answer is in the past (`nextDelivery_past_on_long_day`). How far the
clocks are put back decides it (`nextDelivery_not_past_iff`).
-/

namespace AlertAdmission.QuietHours

variable {q : QuietHours} {z : Zone} {now t finishToday : Instant}

theorem nextDeliveryIn_ok (h : q.nextDeliveryIn z now = .ok t) :
    ∃ finish finishToday, TimeOfDay.parse q.endTime = .ok finish ∧
      z.resolve? (wallTimeOf (z.localDay now) finish) = some finishToday ∧
      t = if finishToday < now then finishToday + Span.day else finishToday := by
  unfold nextDeliveryIn at h
  split at h
  · cases h
  · next finish parsed =>
    dsimp only at h
    split at h
    · split at h
      · cases h
      · next finishToday resolved =>
        generalize answer : (if finishToday < now then _ else _) = next at h
        split at h
        · cases h
          exact ⟨finish, finishToday, parsed, resolved, answer.symm⟩
        · cases h
    · cases h

theorem not_past_iff (ordinary : finishToday.leap = false) :
    now ≤ (if finishToday < now then finishToday + Span.day else finishToday) ↔
      now ≤ finishToday + Span.day := by
  split
  · rfl
  · next reached =>
    have ahead : now ≤ finishToday := Instant.not_lt.mp reached
    refine ⟨fun _ => ?_, fun _ => ahead⟩
    rw [Instant.add_of_ordinary ordinary, Instant.le_ofNanos_iff]
    rw [← Instant.ofNanos_nanos ordinary, Instant.le_ofNanos_iff] at ahead
    exact Int.le_trans ahead (Int.le_add_of_nonneg_right (by decide))

theorem lt_nextMidnight (wall : Int) : wall < startOfDay (dayOf wall) + Span.day := by
  have next : wall < (wall / Span.day + 1) * Span.day :=
    Int.lt_ediv_add_one_mul_self wall (by decide)
  rwa [Int.add_mul, Int.one_mul] at next

/-- An answer is in the past exactly when the end of the window on that day is more than 24 hours
back. Outside of leap seconds that is so exactly when the clocks were put back since then by more
than the clocks still have to go to complete 24 hours; never when they were put back by no more
than the time of day at which the window ends. -/
theorem nextDelivery_not_past_iff (h : q.nextDeliveryIn z now = .ok t) :
    ∃ finish finishToday, TimeOfDay.parse q.endTime = .ok finish ∧
      z.resolve? (wallTimeOf (z.localDay now) finish) = some finishToday ∧
      (now ≤ t ↔ now ≤ finishToday + Span.day) ∧
      (now.leap = false →
        (now ≤ t ↔
          z.setBack finishToday now ≤ Span.day - (z.wallTime now - z.wallTime finishToday)) ∧
        (z.setBack finishToday now ≤ Span.ofMinutes finish → now ≤ t)) := by
  obtain ⟨finish, finishToday, parsed, resolved, rfl⟩ := nextDeliveryIn_ok h
  have ended := (Zone.resolve_shows resolved).1
  refine ⟨finish, finishToday, parsed, resolved, not_past_iff ended, fun ordinary => ?_⟩
  have exact : now ≤ (if finishToday < now then finishToday + Span.day else finishToday) ↔
      z.setBack finishToday now ≤
        (Span.day - (z.wallTime now - z.wallTime finishToday) : Int) := by
    rw [not_past_iff ended, Instant.add_of_ordinary ended, ← Instant.ofNanos_nanos ordinary,
      Instant.ofNanos_le]
    unfold Zone.setBack Zone.wallTime Instant.wallTime
    rw [Instant.ofNanos_nanos ordinary]
    lia
  refine ⟨exact, fun putBack => exact.mpr ?_⟩
  -- the window ended no earlier than its end, and the day of the question is not over
  have end_le : (wallTimeOf (z.localDay now) finish : Int) ≤ z.wallTime finishToday :=
    Zone.le_wallTime_of_resolve resolved
  have notOver : (z.wallTime now : Int) < startOfDay (z.localDay now) + Span.day :=
    lt_nextMidnight _
  unfold wallTimeOf at end_le
  lia

def newYorkUntil (finish : String) : QuietHours := ⟨"22:00", finish, "America/New_York", true, []⟩

/-- Half past eleven in the evening of the day in 2024 on which New York put its clocks back. -/
def lateOnLongDay : Instant := Zone.momentOf 2024 11 4 4 30

/-- One o'clock is just late enough for an hour: 25 hours long, the day ends before the answer. -/
theorem nextDelivery_ahead_on_long_day :
    (newYorkUntil "01:00").nextDelivery lateOnLongDay = .ok (Zone.momentOf 2024 11 4 5 0) ∧
      lateOnLongDay ≤ Zone.momentOf 2024 11 4 5 0 := by
  have answer : (newYorkUntil "01:00").nextDelivery lateOnLongDay =
      .ok (Zone.momentOf 2024 11 4 5 0) := by decide +kernel
  obtain ⟨finish, finishToday, parsed, resolved, -, offLeap⟩ := nextDelivery_not_past_iff answer
  have one : (60 : Nat) = finish :=
    Except.ok.inj ((show TimeOfDay.parse (newYorkUntil "01:00").endTime = .ok 60 by
      decide +kernel).symm.trans parsed)
  subst one
  have first : Zone.momentOf 2024 11 3 5 0 = finishToday :=
    Option.some.inj ((show (newYorkUntil "01:00").zone.resolve? _ =
      some (Zone.momentOf 2024 11 3 5 0) by decide +kernel).symm.trans resolved)
  subst first
  exact ⟨answer, (offLeap rfl).2 (by decide +kernel)⟩

/-- An end at midnight is 24 and a half hours back by then, and the answer half an hour. -/
theorem nextDelivery_past_on_long_day :
    ¬ ∀ (q : QuietHours) (now t : Instant), q.nextDelivery now = .ok t → now ≤ t := by
  intro claim
  have answer : (newYorkUntil "00:00").nextDelivery lateOnLongDay =
      .ok (Zone.momentOf 2024 11 4 4 0) := by decide +kernel
  have ahead := claim _ _ _ answer
  revert ahead
  decide +kernel

end AlertAdmission.QuietHours
