import AlertAdmission.Proofs.QuietHours.Announced
import AlertAdmission.Proofs.Zone.Calm

/-!
When held alerts go out where clocks are not moved.

The answer is then the first instant, from the time of the question on, at which the clocks show the
end of the window. No alert is held at that instant, and until then those are that are held now
(`nextDelivery_ends_quiet`). It comes in less than 24 hours, unless the question is put at the very
start of a leap second in which the clocks show the end once more; and the calendar has to have that
instant, and today's end of the window if that has passed (`not_all_answered_within_day`).
-/

namespace AlertAdmission

namespace Zone

open Instant (ofSecond)

variable {z : Zone} {now t : Instant}

/-- The clocks show the very start of a minute of the day. -/
def ShowsMinute (z : Zone) (minute : Nat) (t : Instant) : Prop :=
  t.leap = false ∧ (sinceMidnight (z.wallTime t) : Int) = Span.ofMinutes minute

/-- The clocks show the very start of a minute of the day once more, in a leap second. -/
def RepeatsMinute (z : Zone) (minute : Nat) (t : Instant) : Prop :=
  t.leap = true ∧ (sinceMidnight (z.wallTime t) : Int) = Span.ofMinutes minute

/-- Where the clocks have shown the start of a minute earlier today, that instant has a date. -/
def DatedToday (z : Zone) (minute : Nat) (now : Instant) : Prop :=
  ∀ u < now, z.localDay u = z.localDay now → z.ShowsMinute minute u → u.isDated

/-- The second that the clocks show, counted as the wall times are. -/
def clockSecond (z : Zone) (t : Instant) : Int := t.second + z.secondsOff t.second

/-- The second of today at which clocks that are not moved show the start of a minute. -/
def secondToday (z : Zone) (now : Instant) (minute : Nat) : Int :=
  z.clockSecond now / 86400 * 86400 + minute * 60 - z.secondsOff now.second

theorem Regular.wallTime_eq (regular : z.Regular) (t : Instant) :
    z.wallTime t = (Span.ofSeconds (z.clockSecond t) + t.fraction : Int) := by
  have parts := t.nanos_eq
  unfold wallTime Instant.wallTime clockSecond
  rw [(regular.offsetAt_eq t).1, parts]
  unfold Span.ofSeconds
  lia

theorem Regular.localDay_eq (regular : z.Regular) (t : Instant) :
    z.localDay t = z.clockSecond t / 86400 := by
  have below := t.fraction_lt
  have nonneg := t.fraction_nonneg
  unfold localDay dayOf
  rw [regular.wallTime_eq]
  unfold Span.day Span.ofHours Span.ofSeconds
  lia

theorem sinceMidnight_of_second (clock : Int) {fraction : Int} (nonneg : 0 ≤ fraction)
    (below : fraction < 1000000000) :
    (sinceMidnight (Span.ofSeconds clock + fraction : Int) : Int) =
      clock % 86400 * 1000000000 + fraction := by
  unfold sinceMidnight Span.day Span.ofHours Span.ofSeconds
  lia

theorem Regular.minuteOfDay_eq (regular : z.Regular) (t : Instant) :
    z.minuteOfDay t = sinceMidnight (Span.ofSeconds (z.clockSecond t)) / 60000000000 := by
  have below := t.fraction_lt
  have nonneg := t.fraction_nonneg
  have whole := sinceMidnight_of_second (z.clockSecond t) (Int.le_refl 0) (by decide)
  have parts := sinceMidnight_of_second (z.clockSecond t) nonneg below
  rw [Int.add_zero] at whole
  unfold minuteOfDay
  rw [regular.wallTime_eq]
  omega

theorem Regular.sinceMidnight_eq_iff (regular : z.Regular) (minute : Nat) (t : Instant) :
    (sinceMidnight (z.wallTime t) : Int) = Span.ofMinutes minute ↔
      t.fraction = 0 ∧ z.clockSecond t % 86400 = minute * 60 := by
  have below := t.fraction_lt
  have nonneg := t.fraction_nonneg
  rw [regular.wallTime_eq, sinceMidnight_of_second _ nonneg below]
  unfold Span.ofMinutes Span.ofSeconds
  lia

theorem Regular.showsMinute_iff (regular : z.Regular) (minute : Nat) (t : Instant) :
    z.ShowsMinute minute t ↔
      t = ofSecond t.second ∧ z.clockSecond t % 86400 = minute * 60 := by
  have atStart : t = ofSecond t.second ↔ t.leap = false ∧ t.fraction = 0 := by
    constructor
    · intro same
      rw [same]
      exact ⟨rfl, Int.mul_emod_left _ _⟩
    · rintro ⟨ordinary, whole⟩
      rw [← Instant.ofNanos_nanos ordinary, t.nanos_eq, whole, Int.add_zero]
      exact congrArg ofSecond (Int.mul_ediv_cancel _ (by decide)).symm
  rw [ShowsMinute, atStart, and_assoc, regular.sinceMidnight_eq_iff]

/-- Three days before now suffice, however far from universal time the clocks are. -/
theorem Regular.datedToday (regular : z.Regular) (dated : now.isDated)
    (before : (ofSecond (now.second - 3 * 86400)).isDated) (minute : Nat) :
    z.DatedToday minute now := by
  intro u earlier today _
  obtain ⟨_, above, below⟩ := regular.offsetAt_eq u
  obtain ⟨_, above', below'⟩ := regular.offsetAt_eq now
  rw [regular.localDay_eq, regular.localDay_eq] at today
  unfold clockSecond at today
  apply isDated_of_between before dated
  · rw [Instant.second_ofSecond]
    omega
  · exact Instant.second_le_of_le (Instant.le_of_lt earlier)

end Zone

namespace QuietHours

open Instant (ofSecond)

variable {q : QuietHours} {z : Zone} {now t : Instant} {start finish : Nat}

theorem ahead_of_seconds (clock : Int) (minute : Nat) :
    ahead (Span.ofSeconds clock) (Span.ofMinutes minute) =
      Span.ofSeconds ((minute * 60 - clock) % 86400) := by
  unfold ahead Span.day Span.ofHours Span.ofMinutes Span.ofSeconds
  lia

theorem wallTimeOf_localDay (regular : z.Regular) : wallTimeOf (z.localDay now) finish =
    Span.ofSeconds (z.secondToday now finish + z.secondsOff now.second) := by
  rw [regular.localDay_eq]
  unfold wallTimeOf startOfDay Zone.secondToday Span.day Span.ofHours Span.ofMinutes Span.ofSeconds
  lia

theorem secondToday_near (z : Zone) (now : Instant) (inDay : finish < 1440) :
    now.second - 86400 < z.secondToday now finish ∧
      z.secondToday now finish < now.second + 86400 ∧
      (z.secondToday now finish + z.secondsOff now.second) % 86400 = finish * 60 ∧
      (z.secondToday now finish + z.secondsOff now.second) / 86400 =
        z.clockSecond now / 86400 := by
  unfold Zone.secondToday Zone.clockSecond
  omega

theorem hasDate_wallTimeOf (inDay : finish < 1440) (dated : hasDate (z.wallTime now)) :
    hasDate (wallTimeOf (z.localDay now) finish) := by
  refine Zone.hasDate_of_sameDay ?_ dated
  unfold wallTimeOf startOfDay Zone.localDay dayOf Span.day Span.ofHours Span.ofMinutes
    Span.ofSeconds
  omega

theorem nextDeliveryIn_eq_ok_iff (ended : TimeOfDay.parse q.endTime = .ok finish)
    {answer : Instant} : q.nextDeliveryIn z now = .ok answer ↔
      hasDate (z.wallTime now) ∧
        ∃ finishToday, z.resolve? (wallTimeOf (z.localDay now) finish) = some finishToday ∧
          answer = (if finishToday < now then finishToday + Span.day else finishToday) ∧
          answer.isDated := by
  unfold nextDeliveryIn
  rw [ended]
  dsimp only
  by_cases dated : hasDate (z.wallTime now) = true
  · rw [if_pos dated]
    cases z.resolve? (wallTimeOf (z.localDay now) finish) with
    | none => simp
    | some finishToday =>
      obtain ⟨next, isNext⟩ : ∃ next, next =
        if finishToday < now then finishToday + Span.day else finishToday := ⟨_, rfl⟩
      dsimp only
      rw [← isNext]
      constructor
      · intro answered
        split at answered
        · next datedNext =>
          cases answered
          exact ⟨dated, finishToday, rfl, isNext, datedNext⟩
        · cases answered
      · rintro ⟨_, _, ⟨⟩, rfl, datedNext⟩
        rw [isNext, if_pos datedNext]
  · rw [if_neg dated]
    simp [dated]

theorem ofSecond_add_day (s : Int) : ofSecond s + Span.day = ofSecond (s + 86400) := by
  rw [Instant.add_of_second_le (by decide)]
  unfold ofSecond Instant.ofNanos Span.day Span.ofHours Span.ofSeconds
  congr 1
  lia

/-- Where the end of the window has passed today, it has a date. -/
theorem isDated_secondToday (regular : z.Regular) (calm : z.CalmAround now) (inDay : finish < 1440)
    (datedToday : z.DatedToday finish now) (passed : ofSecond (z.secondToday now finish) < now) :
    (ofSecond (z.secondToday now finish)).isDated := by
  obtain ⟨above, below, minute, day⟩ := secondToday_near z now inDay
  have own := Instant.second_ofSecond (z.secondToday now finish)
  have clock : z.clockSecond (ofSecond (z.secondToday now finish)) =
      z.secondToday now finish + z.secondsOff now.second := by
    rw [Zone.clockSecond, own, calm.secondsOff_eq regular (by omega) (by omega)]
  apply datedToday _ passed
  · rw [regular.localDay_eq, regular.localDay_eq, clock, day]
  · exact (regular.showsMinute_iff finish _).mpr ⟨by rw [own], by rw [clock, minute]⟩

/-- In a calm time there is a second at whose start the answer comes, if an answer comes. It is not
before the question, and no more than a day after it; if it is a day after it, the second of the
question has begun before. An answer comes where today and that second have dates. -/
theorem nextDeliveryIn_of_calm (ended : TimeOfDay.parse q.endTime = .ok finish)
    (regular : z.Regular) (calm : z.CalmAround now) (dated : now.isDated)
    (datedToday : z.DatedToday finish now) :
    ∃ s : Int, now ≤ ofSecond s ∧ s ≤ now.second + 86400 ∧
      (s = now.second + 86400 → ofSecond now.second < now) ∧
      (s + z.secondsOff now.second) % 86400 = finish * 60 ∧
      ∀ answer, q.nextDeliveryIn z now = .ok answer ↔
        answer = ofSecond s ∧ hasDate (z.wallTime now) ∧ (ofSecond s).isDated := by
  have inDay : finish < 1440 := TimeOfDay.parse_lt ended
  obtain ⟨above, below, minute, _⟩ := secondToday_near z now inDay
  have resolves (here : (ofSecond (z.secondToday now finish)).isDated)
      (shown : hasDate (z.wallTime now)) :
      z.resolve? (wallTimeOf (z.localDay now) finish) =
        some (ofSecond (z.secondToday now finish)) := by
    have wallDated := hasDate_wallTimeOf inDay shown
    rw [wallTimeOf_localDay regular] at wallDated ⊢
    exact Zone.resolve_of_calm regular calm above (by omega) here wallDated
  by_cases passed : ofSecond (z.secondToday now finish) < now
  · have here := isDated_secondToday regular calm inDay datedToday passed
    have notAhead : z.secondToday now finish ≤ now.second :=
      Instant.ofSecond_le_iff.mp (Instant.le_of_lt passed)
    refine ⟨z.secondToday now finish + 86400, ?_, by omega, ?_, by omega, fun answer => ?_⟩
    · exact Instant.le_of_lt (Instant.lt_ofSecond_iff.mpr (by omega))
    · intro aDayLater
      have same : z.secondToday now finish = now.second := by omega
      exact same ▸ passed
    · rw [nextDeliveryIn_eq_ok_iff ended, ← ofSecond_add_day]
      constructor
      · rintro ⟨shown, finishToday, found, rfl, answerDated⟩
        cases (resolves here shown).symm.trans found
        rw [if_pos passed] at answerDated ⊢
        exact ⟨rfl, shown, answerDated⟩
      · rintro ⟨rfl, shown, answerDated⟩
        exact ⟨shown, _, resolves here shown, (if_pos passed).symm, answerDated⟩
  · have reached : now ≤ ofSecond (z.secondToday now finish) := Instant.not_lt.mp passed
    refine ⟨z.secondToday now finish, reached, by omega, by omega, minute, fun answer => ?_⟩
    rw [nextDeliveryIn_eq_ok_iff ended]
    constructor
    · rintro ⟨shown, finishToday, found, rfl, answerDated⟩
      by_cases here : (ofSecond (z.secondToday now finish)).isDated
      · cases (resolves here shown).symm.trans found
        rw [if_neg passed]
        exact ⟨rfl, shown, here⟩
      · -- the search finds nothing after the end of the calendar
        have after := Instant.second_le_of_le reached
        rw [Instant.second_ofSecond] at after
        rw [wallTimeOf_localDay regular,
          Zone.resolve_eq_none_of_calm regular calm dated after (by omega) here] at found
        cases found
    · rintro ⟨rfl, shown, here⟩
      exact ⟨shown, _, resolves here shown, (if_neg passed).symm, here⟩

/-- Whether it is quiet is told by the time that the clocks have to go to the end of the window. -/
theorem inWindow_iff_left (regular : z.Regular) (hs : start < 1440) (hf : finish < 1440)
    (t : Instant) : inWindow (z.minuteOfDay t) start finish = true ↔
      0 < (finish * 60 - z.clockSecond t) % 86400 ∧
        (finish * 60 - z.clockSecond t) % 86400 ≤ (finish * 60 - start * 60) % 86400 := by
  have startSecond : (Span.ofMinutes start : Int) = Span.ofSeconds (start * 60) := rfl
  rw [regular.minuteOfDay_eq, inWindow_iff_ahead hs hf, startSecond, ahead_of_seconds,
    ahead_of_seconds]
  unfold Span.ofSeconds
  lia

/-- An instant has the start of its second behind it where it is a fraction of a second or a leap
second later. -/
theorem ofSecond_second_lt_iff : ofSecond now.second < now ↔
    now.leap = true ∨ now.fraction ≠ 0 := by
  have parts := now.nanos_eq
  have nonneg := now.fraction_nonneg
  rw [← Instant.not_le, ofSecond, Instant.le_ofNanos_iff, Instant.settled]
  unfold Span.ofSeconds
  cases now.leap with
  | false =>
    simp only [Bool.false_eq_true, if_false, false_or]
    omega
  | true =>
    simp only [if_true, true_or, iff_true]
    omega

/-- An answer comes within a day, but at the start of a leap second that repeats the end of the
window it comes a day later. -/
theorem answer_within_day (regular : z.Regular) {s : Int} (reached : now ≤ ofSecond s)
    (soon : s ≤ now.second + 86400)
    (begun : s = now.second + 86400 → ofSecond now.second < now)
    (shown : (s + z.secondsOff now.second) % 86400 = finish * 60) :
    (¬ z.RepeatsMinute finish now → ofSecond s < now + Span.day) ∧
      (z.RepeatsMinute finish now → ofSecond s = now + Span.day) := by
  have parts := now.nanos_eq
  have nonneg := now.fraction_nonneg
  rw [Instant.add_of_second_le (by decide), ofSecond, Instant.ofNanos_lt, Zone.RepeatsMinute,
    regular.sinceMidnight_eq_iff]
  constructor
  · intro notRepeated
    by_cases aDayLater : s = now.second + 86400
    · have fraction : now.fraction ≠ 0 := by
        intro whole
        rcases ofSecond_second_lt_iff.mp (begun aDayLater) with leap | fraction
        · refine notRepeated ⟨leap, whole, ?_⟩
          unfold Zone.clockSecond
          omega
        · exact fraction whole
      unfold Span.day Span.ofHours Span.ofSeconds
      omega
    · unfold Span.day Span.ofHours Span.ofSeconds
      omega
  · rintro ⟨leap, whole, repeated⟩
    have passed : ofSecond now.second < now := ofSecond_second_lt_iff.mpr (.inl leap)
    have after : now.second < s := by
      by_contra behind
      have earlier : ofSecond s ≤ ofSecond now.second := by
        rw [Instant.ofSecond_le_iff, Instant.second_ofSecond]
        omega
      exact Instant.not_lt.mpr reached (Instant.lt_of_le_of_lt earlier passed)
    unfold Zone.clockSecond at repeated
    have aDayLater : s = now.second + 86400 := by omega
    rw [aDayLater]
    unfold Instant.ofNanos Span.day Span.ofHours Span.ofSeconds
    congr 1
    omega

/-- From now until an answer the clocks are as they are now. -/
theorem clockSecond_of_calm (regular : z.Regular) (calm : z.CalmAround now)
    (after : now.second ≤ t.second) (soon : t.second ≤ now.second + 86400) :
    z.clockSecond t = t.second + z.secondsOff now.second := by
  rw [Zone.clockSecond, calm.secondsOff_eq regular (by omega) (by omega)]

/-- No instant from now on shows the end of the window before the answer does. -/
theorem le_of_showsMinute (regular : z.Regular) (calm : z.CalmAround now) {s : Int}
    (soon : s ≤ now.second + 86400)
    (begun : s = now.second + 86400 → ofSecond now.second < now)
    (shown : (s + z.secondsOff now.second) % 86400 = finish * 60) (later : now ≤ t)
    (shows : z.ShowsMinute finish t) : ofSecond s ≤ t := by
  obtain ⟨atStart, minute⟩ := (regular.showsMinute_iff finish t).mp shows
  have after := Instant.second_le_of_le later
  rw [Instant.ofSecond_le_iff]
  by_cases before : t.second < s
  · -- it shows the same time of day, so it is a whole day earlier and cannot be after now
    rw [clockSecond_of_calm regular calm after (by omega)] at minute
    have atNow : t.second = now.second := by omega
    rw [atStart, atNow] at later
    exact absurd later (Instant.not_le.mpr (begun (by omega)))
  · omega

/-- Where it is quiet now, it is quiet until the clocks have come to the end of the window. -/
theorem suppresses_of_earlier (started : TimeOfDay.parse q.startTime = .ok start)
    (ended : TimeOfDay.parse q.endTime = .ok finish) (regular : z.Regular)
    (calm : z.CalmAround now) {s : Int} (soon : s ≤ now.second + 86400)
    (shown : (s + z.secondsOff now.second) % 86400 = finish * 60) (everyDay : q.daysOfWeek = [])
    {severity : Severity} (held : (q.checkIn z severity now).suppresses = true) (later : now ≤ t)
    (before : t < ofSecond s) : (q.checkIn z severity t).suppresses = true := by
  have hs := TimeOfDay.parse_lt started
  have hf := TimeOfDay.parse_lt ended
  have applies : ∀ day, q.appliesOn day = true := by
    intro day
    simp [appliesOn, everyDay]
  rw [suppresses_checkIn_iff started ended, inWindow_iff_left regular hs hf] at held ⊢
  have after := Instant.second_le_of_le later
  have earlier : t.second < s := Instant.lt_ofSecond_iff.mp before
  refine ⟨held.1, applies _, ?_⟩
  have left := held.2.2
  rw [clockSecond_of_calm regular calm (Int.le_refl _) (by omega)] at left
  rw [clockSecond_of_calm regular calm after (by omega)]
  omega

/-- Where the clocks are not moved for 48 hours before and after, the answer is the first instant
from now on at which they show the end of the window. It comes in less than 24 hours, but in exactly
24 hours from the very start of a leap second that repeats the end. No alert is held at that instant
and, where the days of the week make no difference, an alert that is held now is held at every
instant until then. There is an answer where the calendar has today and that instant, and no other
answer, if an end of the window that has passed today is in the calendar. -/
theorem nextDelivery_ends_quiet (started : TimeOfDay.parse q.startTime = .ok start)
    (ended : TimeOfDay.parse q.endTime = .ok finish) (regular : z.Regular)
    (calm : z.CalmAround now) (dated : now.isDated) (datedToday : z.DatedToday finish now) :
    ∃ t, (∀ answer, q.nextDeliveryIn z now = .ok answer ↔
        answer = t ∧ hasDate (z.wallTime now) ∧ t.isDated) ∧ now ≤ t ∧
      (¬ z.RepeatsMinute finish now → t < now + Span.day) ∧
      (z.RepeatsMinute finish now → t = now + Span.day) ∧
      z.ShowsMinute finish t ∧ (∀ u, now ≤ u → z.ShowsMinute finish u → t ≤ u) ∧
      (∀ severity, (q.checkIn z severity t).suppresses = false) ∧
      (q.daysOfWeek = [] → ∀ severity, (q.checkIn z severity now).suppresses = true →
        ∀ u, now ≤ u → u < t → (q.checkIn z severity u).suppresses = true) := by
  have hs := TimeOfDay.parse_lt started
  have hf := TimeOfDay.parse_lt ended
  obtain ⟨s, reached, soon, begun, shown, answers⟩ :=
    nextDeliveryIn_of_calm ended regular calm dated datedToday
  obtain ⟨withinDay, aDayLater⟩ := answer_within_day regular reached soon begun shown
  have notBefore : now.second ≤ s := by
    have order := Instant.second_le_of_le reached
    rwa [Instant.second_ofSecond] at order
  have own : (ofSecond s).second = s := Instant.second_ofSecond s
  have atAnswer : z.clockSecond (ofSecond s) % 86400 = finish * 60 := by
    rw [clockSecond_of_calm regular calm (by omega) (by omega), own, shown]
  refine ⟨ofSecond s, answers, reached, withinDay, aDayLater, ?_, ?_, ?_, ?_⟩
  · exact (regular.showsMinute_iff finish _).mpr ⟨by rw [own], atAnswer⟩
  · intro u later shows
    exact le_of_showsMinute regular calm soon begun shown later shows
  · intro severity
    have none : ¬ (q.checkIn z severity (ofSecond s)).suppresses = true := by
      rw [suppresses_checkIn_iff started ended, inWindow_iff_left regular hs hf]
      omega
    simpa using none
  · intro everyDay severity held u later before
    exact suppresses_of_earlier started ended regular calm soon shown everyDay held later before

/-- Half past eleven on a summer evening in New York. -/
def summerEvening : Instant := Zone.momentOf 2024 7 1 3 30

theorem summerEvening_held_until_seven :
    (newYorkUntil "07:00").nextDelivery summerEvening = .ok (Zone.momentOf 2024 7 1 11 0) ∧
      ∀ u, summerEvening ≤ u → u < Zone.momentOf 2024 7 1 11 0 →
        ((newYorkUntil "07:00").check .warning u).suppresses = true := by
  have known : (newYorkUntil "07:00").zone =
      (Season.northAmerican (-18000)).zone "America/New_York" 2007 := by rfl
  have regular : (newYorkUntil "07:00").zone.Regular :=
    known ▸ Zone.season_regular _ _ _ ⟨by decide, by decide⟩ ⟨by decide, by decide⟩
  have calm : (newYorkUntil "07:00").zone.CalmAround summerEvening :=
    Zone.calmAround_of_apart (by decide +kernel)
  obtain ⟨t, answers, -, -, -, -, -, -, held⟩ :=
    nextDelivery_ends_quiet until_seven_opens until_seven_closes regular calm (by decide)
      (regular.datedToday (by decide) (by decide) _)
  have seven : (newYorkUntil "07:00").nextDelivery summerEvening =
      .ok (Zone.momentOf 2024 7 1 11 0) := by decide +kernel
  have same : Zone.momentOf 2024 7 1 11 0 = t := ((answers _).mp seven).1
  subst same
  exact ⟨seven, held rfl .warning (by decide +kernel)⟩

/-! ### What is left out -/

def untilEleven : QuietHours := ⟨"22:00", "23:00", "Etc/GMT+5", true, []⟩

/-- Seven in the morning of the last day that has a date, five hours behind universal time. -/
def lastMorning : Instant := Zone.momentOf 262142 12 31 12 0

def untilNoon : QuietHours := ⟨"22:00", "12:00", "UTC", true, []⟩

/-- The very start of a leap second after the first second of a noon. -/
def noonAgain : Instant := ⟨Span.ofHours 12, true⟩

def untilFive : QuietHours := ⟨"22:00", "04:59", "Etc/GMT-5", true, []⟩

/-- Half past five in the morning where the first day that has a date begins at five, five hours
ahead of universal time. -/
def firstMorning : Instant := Zone.momentOf (-262143) 1 1 0 30

/-- Eleven in the evening of the last day comes after the end of the calendar, and there is no
answer. A noon that is repeated in a leap second is no end of a window, and the next one is exactly
a day later. A minute to five on the first day came before the start of the calendar; five stands in
for it, and the answer is a day after that. -/
theorem not_all_answered_within_day :
    (¬ ∀ (q : QuietHours) (now : Instant), (∃ start, TimeOfDay.parse q.startTime = .ok start) →
      (∃ finish, TimeOfDay.parse q.endTime = .ok finish) → q.zone.Regular →
      q.zone.CalmAround now → now.isDated → ∃ t, q.nextDelivery now = .ok t) ∧
    (¬ ∀ (q : QuietHours) (now t : Instant), (∃ start, TimeOfDay.parse q.startTime = .ok start) →
      (∃ finish, TimeOfDay.parse q.endTime = .ok finish) → q.zone.Regular →
      q.zone.CalmAround now → now.isDated → q.nextDelivery now = .ok t → t < now + Span.day) ∧
    ¬ ∀ (q : QuietHours) (z : Zone) (now t : Instant) (finish : Nat),
      (∃ start, TimeOfDay.parse q.startTime = .ok start) →
      TimeOfDay.parse q.endTime = .ok finish → z.Regular → z.CalmAround now → now.isDated →
      q.nextDeliveryIn z now = .ok t → z.ShowsMinute finish t := by
  refine ⟨?_, ?_, ?_⟩
  · intro claim
    have known : untilEleven.zone = Zone.constant "Etc/GMT+5" (-18000) := by rfl
    have answer : untilEleven.nextDelivery lastMorning = .error .outsideCalendar := by
      decide
    obtain ⟨t, answered⟩ := claim untilEleven lastMorning ⟨1320, by decide⟩
      ⟨1380, by decide⟩ (known ▸ Zone.constant_regular _ (by decide) (by decide))
      (known ▸ Zone.constant_calm _ _ _) (by decide)
    cases answer.symm.trans answered
  · intro claim
    have known : untilNoon.zone = Zone.constant "UTC" 0 := by rfl
    have answer : untilNoon.nextDelivery noonAgain = .ok (noonAgain + Span.day) := by
      decide
    have soon := claim untilNoon noonAgain _ ⟨1320, by decide⟩ ⟨720, by decide⟩
      (known ▸ Zone.constant_regular _ (by decide) (by decide)) (known ▸ Zone.constant_calm _ _ _)
      (by decide) answer
    revert soon
    decide
  · intro claim
    have answer : untilFive.nextDeliveryIn (Zone.constant "Etc/GMT-5" 18000) firstMorning =
        .ok (Zone.momentOf (-262143) 1 2 0 0) := by decide
    have shows := claim untilFive (Zone.constant "Etc/GMT-5" 18000) firstMorning _ 299
      ⟨1320, by decide⟩ (by decide) (Zone.constant_regular _ (by decide) (by decide))
      (Zone.constant_calm _ _ _) (by decide) answer
    revert shows
    unfold Zone.ShowsMinute
    decide

end QuietHours

end AlertAdmission
