import AlertAdmission.Proofs.QuietHours.Delivery
import AlertAdmission.Proofs.Zone.Gaps

/-!
The instant that stands for the end of the window, in zones whose clocks are moved seldom.

It is the first one that shows the end or, where the clocks go forward over the end, the one at
which they do so. There is none only where they go forward by more than 180 minutes past the end
(`QuietHours.end_resolves_to_first`). The search for it takes place in the calendar: at the end of
the calendar it is the calendar that has no answer (`QuietHours.not_all_unshown_unreachable`).
-/

namespace AlertAdmission.QuietHours

variable {q : QuietHours} {z : Zone} {now t : Instant} {wall : WallTime} {finish : Nat}

/-- The end of the window cannot be read, or today the clocks go forward over it and more than 180
minutes past it. -/
def EndUnreachable (q : QuietHours) (z : Zone) (now : Instant) : Prop :=
  (∃ fault, TimeOfDay.parse q.endTime = .error fault) ∨
    ∃ finish t, TimeOfDay.parse q.endTime = .ok finish ∧
      z.Skips (wallTimeOf (z.localDay now) finish) t ∧
      wallTimeOf (z.localDay now) finish + Span.ofMinutes Zone.longestGap < z.wallTime t

/-- The calendar has the day after every instant that a search from a wall time can come to. -/
def DayAfterInCalendar (z : Zone) (wall : WallTime) : Prop :=
  ∀ m ≤ Zone.longestGap, ∀ t, z.wallTime t = wall + Span.ofMinutes m → (t + Span.day).isDated

theorem wallTimeOf_whole (day : Int) (minute : Nat) :
    wallTimeOf day minute % Span.ofMinutes 1 = 0 := by
  unfold wallTimeOf startOfDay Span.day Span.ofHours Span.ofMinutes Span.ofSeconds
  lia

theorem unresolved_of_hasDate (ends : hasDate (wall + Span.ofMinutes Zone.longestGap)) :
    unresolved z wall = .invalid (.unreachableTime wall z.name) := by
  simp only [unresolved, ends, if_true]

theorem endUnreachable_iff (spaced : z.Spaced) (parsed : TimeOfDay.parse q.endTime = .ok finish) :
    q.EndUnreachable z now ↔ ∀ m ≤ Zone.longestGap, ∀ u,
      z.wallTime u ≠ wallTimeOf (z.localDay now) finish + Span.ofMinutes m := by
  rw [spaced.unshown_iff (wallTimeOf_whole _ _)]
  simp [EndUnreachable, parsed]

theorem next_isDated (inside : z.InCalendar wall) (dayAfter : DayAfterInCalendar z wall)
    (resolved : z.resolve? wall = some t) :
    (if t < now then t + Span.day else t).isDated := by
  obtain ⟨_, m, short, shows⟩ := Zone.resolve_shows resolved
  split
  · exact dayAfter m short t shows
  · exact inside.shown m short t shows

/-- Two days from both ends of the calendar, and with offsets of no more than a day, there is room
for a search and its answer. -/
theorem inCalendar_of_days (short : ∀ o ∈ z.offsets, -86400000000000 ≤ o ∧ o ≤ 86400000000000)
    (begins : hasDate (wall - Span.ofHours 48)) (ends : hasDate (wall + Span.ofHours 72)) :
    z.InCalendar wall ∧ DayAfterInCalendar z wall := by
  have between : ∀ n : Int, wall - Span.ofHours 48 ≤ n → n ≤ wall + Span.ofHours 72 → hasDate n :=
    fun n => Zone.hasDate_of_between begins ends
  have near : ∀ m ≤ Zone.longestGap, ∀ t, z.wallTime t = wall + Span.ofMinutes m →
      wall - Span.ofHours 48 ≤ t.nanos ∧ t.nanos + Span.day ≤ wall + Span.ofHours 72 := by
    intro m within t shows
    have offset := short _ (z.offsetAt_mem t)
    unfold Zone.wallTime Instant.wallTime at shows
    unfold Zone.longestGap at within
    unfold Span.day Span.ofHours Span.ofMinutes Span.ofSeconds at *
    constructor <;> lia
  refine ⟨⟨?_, ?_, ?_⟩, ?_⟩
  · exact between wall (Int.sub_le_self wall (by decide)) (Int.le_add_of_nonneg_right (by decide))
  · refine between _ ?_ (Int.add_le_add_left (by decide) wall)
    exact Int.le_trans (Int.sub_le_self wall (by decide)) (Int.le_add_of_nonneg_right (by decide))
  · intro m within t shows
    obtain ⟨after, before⟩ := near m within t shows
    exact between t.nanos after (Int.le_trans (Int.le_add_of_nonneg_right (by decide)) before)
  · intro m within t shows
    obtain ⟨after, before⟩ := near m within t shows
    rw [Instant.add_of_second_le (by decide)]
    exact between _ (Int.le_trans after (Int.le_add_of_nonneg_right (by decide))) before

section Parsed

variable (parsed : TimeOfDay.parse q.endTime = .ok finish) (dated : hasDate (z.wallTime now))

include parsed dated

theorem nextDeliveryIn_of_unresolved
    (unshown : z.resolve? (wallTimeOf (z.localDay now) finish) = Option.none)
    (inside : z.InCalendar (wallTimeOf (z.localDay now) finish)) :
    q.nextDeliveryIn z now =
      .error (.invalid (.unreachableTime (wallTimeOf (z.localDay now) finish) z.name)) := by
  simp [nextDeliveryIn, parsed, dated, unshown, unresolved_of_hasDate inside.ends]

theorem nextDeliveryIn_of_resolved
    (resolved : z.resolve? (wallTimeOf (z.localDay now) finish) = some t)
    (inside : z.InCalendar (wallTimeOf (z.localDay now) finish))
    (dayAfter : DayAfterInCalendar z (wallTimeOf (z.localDay now) finish)) :
    q.nextDeliveryIn z now = .ok (if t < now then t + Span.day else t) := by
  simp [nextDeliveryIn, parsed, dated, resolved, next_isDated inside dayAfter resolved]

end Parsed

/-- A wall time resolves to the first instant that shows it, or else to the end of the gap that it
is in, and to none where more than 180 minutes are left of the gap. So asking when held alerts go
out fails exactly where the end of the window cannot be read or has more than that left of a gap.
All this as long as the search and its answer stay in the calendar. -/
theorem end_resolves_to_first (spaced : z.Spaced) :
    (∀ wall : WallTime, wall % Span.ofMinutes 1 = 0 → z.InCalendar wall →
      z.Resolves wall (z.resolve? wall) ∧
        unresolved z wall = .invalid (.unreachableTime wall z.name)) ∧
    ∀ (q : QuietHours) (now : Instant), hasDate (z.wallTime now) →
      (∀ finish, TimeOfDay.parse q.endTime = .ok finish →
        z.InCalendar (wallTimeOf (z.localDay now) finish) ∧
          DayAfterInCalendar z (wallTimeOf (z.localDay now) finish)) →
      ((∃ cause, q.nextDeliveryIn z now = .error (.invalid cause)) ↔ q.EndUnreachable z now) ∧
        ((∃ t, q.nextDeliveryIn z now = .ok t) ↔ ¬ q.EndUnreachable z now) := by
  constructor
  · intro wall whole inside
    exact ⟨spaced.resolves whole inside, unresolved_of_hasDate inside.ends⟩
  · intro q now dated room
    cases parsed : TimeOfDay.parse q.endTime with
    | error fault => simp [EndUnreachable, nextDeliveryIn, parsed]
    | ok finish =>
      obtain ⟨inside, dayAfter⟩ := room finish parsed
      have answer := spaced.resolves (wallTimeOf_whole _ _) inside
      rw [endUnreachable_iff spaced parsed]
      cases resolved : z.resolve? (wallTimeOf (z.localDay now) finish) with
      | none =>
        rw [resolved] at answer
        rw [nextDeliveryIn_of_unresolved parsed dated resolved inside]
        simpa [Zone.Resolves] using answer
      | some t =>
        obtain ⟨_, m, short, shows⟩ := Zone.resolve_shows resolved
        rw [nextDeliveryIn_of_resolved parsed dated resolved inside dayAfter]
        simpa using ⟨m, short, t, shows⟩

theorem davis_spaced : Zone.davis.Spaced := by
  constructor <;> decide

def davisUntil (finish : String) : QuietHours := ⟨"22:00", finish, "Antarctica/Davis", true, []⟩

/-- Noon of the day in 1969 on which the clocks of Davis Station went from midnight to seven. -/
def davisNoon : Instant := Zone.momentOf 1969 2 1 5 0

/-- An end at four o'clock is just late enough to be moved to seven, and one a minute before that is
not. -/
theorem davis_end_in_gap : Zone.davis.Spaced ∧
    Zone.davis.Resolves (wallTimeOf (Zone.davis.localDay davisNoon) 240)
      (some (Zone.momentOf 1969 2 1 0 0)) ∧
    ∃ cause, (davisUntil "03:59").nextDelivery davisNoon = .error (.invalid cause) := by
  have short : ∀ o ∈ Zone.davis.offsets, -86400000000000 ≤ o ∧ o ≤ 86400000000000 := by
    decide
  obtain ⟨resolved, delivery⟩ := end_resolves_to_first davis_spaced
  refine ⟨davis_spaced, ?_, ?_⟩
  · have fourOClock := resolved (wallTimeOf (Zone.davis.localDay davisNoon) 240) (by decide)
      (inCalendar_of_days short (by decide) (by decide)).1
    have answer : Zone.davis.resolve? (wallTimeOf (Zone.davis.localDay davisNoon) 240) =
        some (Zone.momentOf 1969 2 1 0 0) := by decide
    exact answer ▸ fourOClock.1
  · have parsed : TimeOfDay.parse (davisUntil "03:59").endTime = .ok 239 := by decide
    have known : (davisUntil "03:59").zone = Zone.davis := by rfl
    rw [nextDelivery, known, (delivery (davisUntil "03:59") davisNoon (by decide) _).1]
    · refine .inr ⟨239, Zone.momentOf 1969 2 1 0 0, parsed, ⟨?_, ?_, ?_⟩, ?_⟩ <;> decide
    · intro finish read
      cases parsed.symm.trans read
      exact inCalendar_of_days short (by decide) (by decide)

def fiveBehind : QuietHours := ⟨"23:00", "23:30", "Etc/GMT+5", true, []⟩

def lastNoon : Instant := Zone.momentOf 262142 12 31 12 0

/-- Half past eleven in the evening of the last day that has a date, five hours behind universal
time, is shown by no instant that has a date. The search for a later wall time then comes to the end
of the calendar, not to the end of a gap. -/
theorem not_all_unshown_unreachable :
    ¬ ∀ (q : QuietHours) (now : Instant), q.zone.Spaced → now.isDated →
      hasDate (q.zone.wallTime now) →
      (∀ finish, TimeOfDay.parse q.endTime = .ok finish → ∀ m ≤ Zone.longestGap, ∀ t : Instant,
        t.isDated →
          q.zone.wallTime t ≠ wallTimeOf (q.zone.localDay now) finish + Span.ofMinutes m) →
      ∃ cause, q.nextDelivery now = .error (.invalid cause) := by
  intro claim
  have known : fiveBehind.zone = Zone.constant "Etc/GMT+5" (-18000) := by rfl
  have answer : fiveBehind.nextDelivery lastNoon = .error .outsideCalendar := by decide
  have parsed : TimeOfDay.parse fiveBehind.endTime = .ok 1410 := by decide
  have late : endOfDates + Span.ofSeconds (-18000) ≤
      wallTimeOf (fiveBehind.zone.localDay lastNoon) 1410 := by decide
  have spaced : fiveBehind.zone.Spaced := by
    rw [known]
    constructor <;> decide
  have unshown : ∀ finish, TimeOfDay.parse fiveBehind.endTime = .ok finish →
      ∀ m ≤ Zone.longestGap, ∀ t : Instant, t.isDated → fiveBehind.zone.wallTime t ≠
        wallTimeOf (fiveBehind.zone.localDay lastNoon) finish + Span.ofMinutes m := by
    intro finish read m _ t dated shows
    cases parsed.symm.trans read
    have before : t.nanos < endOfDates := by
      simp only [Instant.isDated, hasDate, Bool.and_eq_true, decide_eq_true_eq] at dated
      exact dated.2
    have behind : fiveBehind.zone.wallTime t = t.nanos + Span.ofSeconds (-18000) := by
      rw [known]
      rfl
    have nonneg := Span.ofMinutes_nonneg m
    rw [behind] at shows
    lia
  obtain ⟨cause, failed⟩ :=
    claim fiveBehind lastNoon spaced (by decide) (by decide) unshown
  rw [answer] at failed
  cases failed

end AlertAdmission.QuietHours
