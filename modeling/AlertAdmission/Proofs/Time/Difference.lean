import AlertAdmission.Proofs.Time.Order

/-!
Differences of instants, and what they tell of their order.

A difference counts a leap second by the seconds of the day alone. That goes wrong where a day ends
in a leap second: what lies in it and what lies in the first second of the next day are apart by
their fractions only, whichever comes first. Everywhere else the sign of the difference is the order
(`difference_tells_iff`). What a difference leaves out is at most the leap second that the first
instant lies in, and that one only if it does not end its day (`le_since_of_secondOfDay`).
-/

namespace AlertAdmission.Instant

/-- One instant lies in the leap second that ends a day, and the other in the second after it. -/
def EndsDayBefore (t u : Instant) : Prop :=
  t.leap = true ∧ t.secondOfDay = 86399 ∧ u.second = t.second + 1

instance (t u : Instant) : Decidable (t.EndsDayBefore u) :=
  inferInstanceAs (Decidable (_ ∧ _))

/-- The difference of the second instant from the first is positive though it is not later, or is
not positive though it is. -/
def Blurs (t u : Instant) : Prop :=
  (t.EndsDayBefore u ∧ u.fraction ≤ t.fraction) ∨ (u.EndsDayBefore t ∧ t.fraction < u.fraction)

instance (t u : Instant) : Decidable (t.Blurs u) := inferInstanceAs (Decidable (_ ∨ _))

variable {t u : Instant}

/-- The leap second of the instant with the earlier time of day is not counted. -/
theorem since_eq_of_lt (first : u.secondOfDay < t.secondOfDay) :
    since u t = u.nanos - t.nanos - t.delay ∧ since t u = t.nanos - u.nanos + t.delay := by
  simp only [since, if_pos first, if_neg (Int.not_lt.mpr (Int.le_of_lt first))]
  lia

theorem since_eq_of_same (same : u.secondOfDay = t.secondOfDay) :
    since u t = u.nanos - t.nanos + u.delay - t.delay := by
  simp [since, same]

theorem EndsDayBefore.difference (h : t.EndsDayBefore u) :
    since u t = u.fraction - t.fraction ∧ since t u = t.fraction - u.fraction := by
  obtain ⟨leap, last, next⟩ := h
  have first : u.secondOfDay < t.secondOfDay := by
    simp only [secondOfDay] at last ⊢
    lia
  have delayed : t.delay = 1000000000 := if_pos leap
  have u_nanos := u.nanos_eq
  have t_nanos := t.nanos_eq
  rw [(since_eq_of_lt first).1, (since_eq_of_lt first).2, delayed]
  lia

theorem EndsDayBefore.lt (h : t.EndsDayBefore u) : t < u := by
  obtain ⟨leap, _, next⟩ := h
  have below := t.fraction_lt
  have nonneg := u.fraction_nonneg
  simp only [lt_iff_rank, rank, delay, leap, next, if_true]
  split <;> omega

theorem delay_cases (t : Instant) :
    (t.leap = true ∧ t.delay = 1000000000) ∨ (t.leap = false ∧ t.delay = 0) := by
  cases leap : t.leap <;> simp [delay, leap]

theorem difference_pos_iff (h : ¬ t.EndsDayBefore u) (h' : ¬ u.EndsDayBefore t) :
    0 < since u t ↔ t < u := by
  have u_bounds := And.intro u.fraction_nonneg u.fraction_lt
  have t_bounds := And.intro t.fraction_nonneg t.fraction_lt
  have u_delay := u.delay_cases
  have t_delay := t.delay_cases
  rcases Int.lt_trichotomy u.secondOfDay t.secondOfDay with first | same | first
  · rw [(since_eq_of_lt first).1, lt_iff_rank, rank, rank, u.nanos_eq, t.nanos_eq]
    simp only [EndsDayBefore, secondOfDay] at h h' first
    lia
  · rw [since_eq_of_same same, lt_iff_rank, rank, rank, u.nanos_eq, t.nanos_eq]
    simp only [secondOfDay] at same
    lia
  · rw [(since_eq_of_lt first).2, lt_iff_rank, rank, rank, u.nanos_eq, t.nanos_eq]
    simp only [EndsDayBefore, secondOfDay] at h h' first
    lia

theorem difference_tells_iff : (0 < since u t ↔ t < u) ↔ ¬ t.Blurs u := by
  by_cases before : t.EndsDayBefore u
  · have apart : ¬ u.EndsDayBefore t := by
      intro after
      have := before.2.2
      have := after.2.2
      lia
    simp only [Blurs, before, apart, before.difference.1, before.lt, true_and, false_and, or_false,
      iff_true]
    lia
  · by_cases after : u.EndsDayBefore t
    · have late : ¬ t < u := by simpa using le_of_lt after.lt
      simp only [Blurs, before, after, after.difference.2, late, true_and, false_and, false_or,
        iff_false]
      lia
    · simp [Blurs, before, after, difference_pos_iff before after]

/-! ### Windows that have passed -/

theorem since_self (t : Instant) : t - t = (0 : Span) := by
  show since t t = 0
  simp [since]

/-- A second or more back, no leap second is left, and one that the instant lies in is counted. -/
theorem sub_of_second_le {d : Int} (h : 1000000000 ≤ d) :
    t - d = ofNanos (t.nanos + t.delay - d) := by
  have below := t.fraction_lt
  rcases t.delay_cases with ⟨leap, delay⟩ | ⟨ordinary, delay⟩
  · rw [sub_of_leap leap (by omega), if_neg (by omega), delay]
  · rw [sub_of_ordinary ordinary, delay, Int.add_zero]

/-- What a difference leaves out is at most one leap second, and it is the one that the first instant
lies in, where that has the earlier time of day. -/
theorem le_since_of_secondOfDay (t u : Instant) :
    t.nanos + t.delay - (u.nanos + u.delay) ≤ since t u + 1000000000 ∧
      ((t.leap = true → u.secondOfDay ≤ t.secondOfDay) →
        t.nanos + t.delay - (u.nanos + u.delay) ≤ since t u) := by
  have t_delay := t.delay_cases
  have u_delay := u.delay_cases
  unfold since
  constructor
  · split <;> split <;> lia
  · intro timely
    split <;> split <;> lia

/-- Two windows back from an instant is no later than one window back from less than a window
before it. -/
theorem sub_two_windows_le {window : Int} (h : 1000000000 ≤ window) (recent : since t u < window) :
    t - (2 * window + 1000000000) ≤ u - window ∧
      ((t.leap = true → u.secondOfDay ≤ t.secondOfDay) → t - 2 * window ≤ u - window) := by
  obtain ⟨always, timely⟩ := le_since_of_secondOfDay t u
  rw [sub_of_second_le h, sub_of_second_le (show 1000000000 ≤ 2 * window by omega),
    sub_of_second_le (show 1000000000 ≤ 2 * window + 1000000000 by omega), ofNanos_le, ofNanos_le]
  constructor
  · lia
  · intro earlier
    have bound := timely earlier
    lia

end AlertAdmission.Instant
