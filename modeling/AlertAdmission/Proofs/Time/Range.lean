import AlertAdmission.Proofs.Time.Dates
import AlertAdmission.Proofs.Time.Order

/-!
The range of time arithmetic.

A span counts milliseconds in a signed word of 64 bits, and an instant has a date, so not every
length in seconds, sum or difference is there. The checked operations have no result where there is
none. Windows always are spans, for they are cut before they are converted
(`windowLengthChecked_eq`), and they do not lead out of the calendar from any instant that is written
with four digits for its year (`InFourDigitYear.isDated_add`, `InFourDigitYear.isDated_sub`).
-/

namespace AlertAdmission

/-! ### Spans -/

namespace Span

/-- The longest span in either direction: as many milliseconds as a signed word counts. -/
def longest : Span := ofMillis 0x7fffffffffffffff

def Fits (d : Span) : Prop := -longest ≤ d ∧ d ≤ longest

instance (d : Span) : Decidable d.Fits := inferInstanceAs (Decidable (_ ∧ _))

def fit? (d : Span) : Option Span := if d.Fits then some d else none

theorem fit?_of_fits {d : Span} (fits : d.Fits) : fit? d = some d := if_pos fits

/-- A number of seconds as a signed word of 64 bits, and then as a span. -/
def ofSecondsChecked (seconds : Nat) : Option Span :=
  if seconds ≤ 0x7fffffffffffffff then fit? (ofSeconds seconds) else none

end Span

def windowLengthChecked (seconds : Nat) : Option Span :=
  Span.ofSecondsChecked (if seconds < longestWindow then seconds else longestWindow)

theorem windowLength_le (seconds : Nat) : windowLength seconds ≤ Span.ofSeconds longestWindow := by
  unfold windowLength Span.ofSeconds
  split <;> lia

@[simp] theorem windowLengthChecked_eq (seconds : Nat) :
    windowLengthChecked seconds = some (windowLength seconds) := by
  -- The cut is made on the word that was configured, before there is a span that could be too long.
  have cut : windowLength seconds = Span.ofSeconds
      ((if seconds < longestWindow then seconds else longestWindow : Nat) : Int) := by
    unfold windowLength
    split <;> rfl
  have short : (if seconds < longestWindow then seconds else longestWindow) ≤ longestWindow := by
    split <;> omega
  have word : longestWindow ≤ 0x7fffffffffffffff := by decide
  have nonneg := windowLength_nonneg seconds
  have below := windowLength_le seconds
  have fits : (windowLength seconds).Fits := by
    have room : Span.ofSeconds longestWindow ≤ Span.longest := by decide
    constructor <;> lia
  rw [windowLengthChecked, Span.ofSecondsChecked, if_pos (Nat.le_trans short word), ← cut,
    Span.fit?_of_fits fits]

/-! ### Instants -/

namespace Instant

variable {t u : Instant} {d : Int}

theorem isDated_iff : t.isDated ↔ firstMoment ≤ t.nanos ∧ t.nanos < endOfDates := by
  unfold isDated hasDate wallTime
  rw [Bool.and_eq_true, decide_eq_true_eq, decide_eq_true_eq]

theorem nanos_add (nonneg : 0 ≤ d) : (t + d).nanos = t.nanos + d := by
  have below := t.fraction_lt
  have inside := t.fraction_nonneg
  have shifted : t + d = shift t d := rfl
  rw [shifted]
  unfold shift ofNanos
  split
  · split
    · rfl
    · next leaves =>
      have forward : 0 < d := by omega
      rw [if_pos forward]
  · rfl

/-- Back from a leap second, the clock may show up to a second more than the count does. -/
theorem nanos_sub (nonneg : 0 ≤ d) : t.nanos - d ≤ (t - d).nanos ∧
    (t - d).nanos ≤ t.nanos + 1000000000 - d ∧ (d = 0 → (t - d).nanos = t.nanos) := by
  have inside := t.fraction_nonneg
  cases leap : t.leap with
  | false =>
    rw [sub_of_ordinary leap]
    unfold ofNanos
    dsimp only
    omega
  | true =>
    rw [sub_of_leap leap nonneg]
    unfold ofNanos
    split <;> dsimp only <;> omega

/-- The start of a window is not after its end, and not further back than the window is long. -/
theorem nanos_sub_window (t : Instant) (seconds : Nat) :
    t.nanos - windowLength seconds ≤ (t - windowLength seconds).nanos ∧
      (t - windowLength seconds).nanos ≤ t.nanos := by
  have nonneg := windowLength_nonneg seconds
  obtain ⟨after, before, still⟩ := nanos_sub (t := t) nonneg
  refine ⟨after, ?_⟩
  by_cases none : windowLength seconds = 0
  · exact Int.le_of_eq (still none)
  · have whole : ∃ s : Int, windowLength seconds = s * 1000000000 := ⟨_, rfl⟩
    obtain ⟨s, length⟩ := whole
    lia

def dated? (t : Instant) : Option Instant := if t.isDated then some t else none

theorem dated?_of_isDated (dated : t.isDated) : dated? t = some t := if_pos dated

def addChecked (t : Instant) (d : Span) : Option Instant := dated? (t + d)

def subChecked (t : Instant) (d : Span) : Option Instant := dated? (t - d)

def sinceChecked (t u : Instant) : Option Span := Span.fit? (t - u)

/-- All instants of the calendar are within a span of each other. -/
theorem sinceChecked_eq (later : t.isDated) (earlier : u.isDated) :
    sinceChecked t u = some (t - u) := by
  have calendar : endOfDates - firstMoment + 1000000000 ≤ Span.longest := by decide +kernel
  rw [isDated_iff] at later earlier
  have delay (v : Instant) : 0 ≤ v.delay ∧ v.delay ≤ 1000000000 := by
    unfold delay
    split <;> decide
  have t_delay := delay t
  have u_delay := delay u
  refine Span.fit?_of_fits ?_
  have difference : t - u = since t u := rfl
  rw [difference]
  unfold Span.Fits since
  split <;> split <;> lia

/-! ### Years of four digits -/

def year (t : Instant) : Int := (Date.ofDays (dayOf t.wallTime)).year

def InFourDigitYear (t : Instant) : Prop := 0 ≤ t.year ∧ t.year ≤ 9999

instance (t : Instant) : Decidable t.InFourDigitYear := inferInstanceAs (Decidable (_ ∧ _))

/-- Such instants are in an era of the calendar that is one of twenty-six. -/
theorem InFourDigitYear.nanos (h : t.InFourDigitYear) :
    startOfDay (-865565) ≤ t.nanos ∧ t.nanos < startOfDay 2932957 := by
  obtain ⟨era, year, day, month, count, below, inYear, -, date⟩ :=
    Date.ofDays_spec (dayOf t.wallTime)
  have days : -865565 ≤ dayOf t.wallTime ∧ dayOf t.wallTime < 2932957 := by
    -- January and February count to the year before, so the year shown may be one more.
    have shown : (Date.ofDays (dayOf t.wallTime)).year = era * 400 + year ∨
        (Date.ofDays (dayOf t.wallTime)).year = era * 400 + year + 1 := by
      rw [date]
      dsimp only
      split
      · exact .inl rfl
      · exact .inr rfl
    unfold InFourDigitYear Instant.year at h
    unfold Date.daysBefore at count
    omega
  unfold dayOf wallTime startOfDay Span.day Span.ofHours Span.ofSeconds at *
  lia

theorem InFourDigitYear.isDated (h : t.InFourDigitYear) : t.isDated := by
  have bounds := h.nanos
  have room : firstMoment ≤ startOfDay (-865565) ∧ startOfDay 2932957 ≤ endOfDates := by
    decide +kernel
  rw [isDated_iff]
  lia

/-- Ahead from such a year by the length of a window. -/
theorem InFourDigitYear.isDated_add (h : t.InFourDigitYear) (nonneg : 0 ≤ d)
    (short : d ≤ Span.ofSeconds longestWindow) : (t + d).isDated := by
  have bounds := h.nanos
  have room : firstMoment ≤ startOfDay (-865565) ∧
      startOfDay 2932957 + Span.ofSeconds longestWindow ≤ endOfDates := by decide +kernel
  rw [isDated_iff, nanos_add nonneg]
  lia

/-- Back from such a year by the length of a window. -/
theorem InFourDigitYear.isDated_sub (h : t.InFourDigitYear) (nonneg : 0 ≤ d)
    (short : d ≤ Span.ofSeconds longestWindow) : (t - d).isDated := by
  have bounds := h.nanos
  have back := nanos_sub (t := t) nonneg
  have room : firstMoment ≤ startOfDay (-865565) - Span.ofSeconds longestWindow ∧
      startOfDay 2932957 + 1000000000 ≤ endOfDates := by decide +kernel
  rw [isDated_iff]
  lia

end Instant

end AlertAdmission
