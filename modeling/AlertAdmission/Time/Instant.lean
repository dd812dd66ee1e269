/-!
Instants and spans of time.

A span is an integer number of nanoseconds, and so is an instant, counted from 1970 as if no second
were ever inserted. The count alone cannot tell a leap second from the second before it, so an
instant also says whether it lies in one. Outside of leap seconds the order of instants and all
arithmetic on them are those of the integers (`Instant.ofNanos_lt`, `Instant.ofNanos_add`,
`Instant.ofNanos_sub`, `Instant.ofNanos_since`). A window configured in seconds is cut at a hundred
years of 365 days.
-/

namespace AlertAdmission

/-- A length of time in nanoseconds, negative when it reaches into the past. -/
abbrev Span := Int

namespace Span

def ofMillis (ms : Int) : Span := ms * 1000000

def ofSeconds (s : Int) : Span := s * 1000000000

def ofMinutes (m : Int) : Span := ofSeconds (m * 60)

def ofHours (h : Int) : Span := ofSeconds (h * 3600)

def day : Span := ofHours 24

@[simp] theorem ofMinutes_le {m n : Int} : ofMinutes m ≤ ofMinutes n ↔ m ≤ n := by
  unfold ofMinutes ofSeconds
  lia

@[simp] theorem ofMinutes_lt {m n : Int} : ofMinutes m < ofMinutes n ↔ m < n := by
  unfold ofMinutes ofSeconds
  lia

@[simp] theorem ofMinutes_nonneg (m : Nat) : 0 ≤ ofMinutes m := by
  unfold ofMinutes ofSeconds
  lia

end Span

structure Instant where
  /-- Nanoseconds since 1970-01-01T00:00:00Z, leap seconds not counted. -/
  nanos : Int
  /-- Whether the instant lies in a leap second, inserted after the second that `nanos` is in. -/
  leap : Bool
  deriving DecidableEq, Repr

namespace Instant

/-- The instant outside of leap seconds with this count of nanoseconds. -/
def ofNanos (n : Int) : Instant := ⟨n, false⟩

def epoch : Instant := ofNanos 0

instance : Inhabited Instant := ⟨epoch⟩

def second (t : Instant) : Int := t.nanos / 1000000000

/-- The nanoseconds since the second of the instant began, or its leap second. -/
def fraction (t : Instant) : Int := t.nanos % 1000000000

/-- The nanoseconds of the leap second that put the instant behind its count. -/
def delay (t : Instant) : Span := if t.leap then 1000000000 else 0

/-! ### Order -/

/-- The place of an instant among all, where every second has room for a leap second after it. -/
def rank (t : Instant) : Int := t.second * 2000000000 + t.delay + t.fraction

instance : LT Instant := ⟨fun t u => t.rank < u.rank⟩

instance : LE Instant := ⟨fun t u => t.rank ≤ u.rank⟩

instance (t u : Instant) : Decidable (t < u) := inferInstanceAs (Decidable (t.rank < u.rank))

instance (t u : Instant) : Decidable (t ≤ u) := inferInstanceAs (Decidable (t.rank ≤ u.rank))

theorem lt_iff_rank {t u : Instant} : t < u ↔ t.rank < u.rank := Iff.rfl

theorem le_iff_rank {t u : Instant} : t ≤ u ↔ t.rank ≤ u.rank := Iff.rfl

theorem eq_of_rank_eq {t u : Instant} (h : t.rank = u.rank) : t = u := by
  obtain ⟨n, a⟩ := t
  obtain ⟨m, b⟩ := u
  cases a <;> cases b <;> simp [rank, second, fraction, delay] at h ⊢ <;> omega

@[simp] theorem ofNanos_lt {n m : Int} : ofNanos n < ofNanos m ↔ n < m := by
  simp only [lt_iff_rank, rank, second, fraction, delay, ofNanos]
  omega

@[simp] theorem ofNanos_le {n m : Int} : ofNanos n ≤ ofNanos m ↔ n ≤ m := by
  simp only [le_iff_rank, rank, second, fraction, delay, ofNanos]
  omega

/-! ### Arithmetic -/

/-- The instant later by a span. From within a leap second, a step that stays in it moves in it;
any other step starts from the second before it when it goes forwards, and from the second after it
when it goes back. -/
def shift (t : Instant) (d : Span) : Instant :=
  if t.leap then
    if 0 ≤ t.fraction + d ∧ t.fraction + d < 1000000000 then ⟨t.nanos + d, true⟩
    else if 0 < d then ofNanos (t.nanos + d)
    else ofNanos (t.nanos + 1000000000 + d)
  else ofNanos (t.nanos + d)

instance : HAdd Instant Span Instant := ⟨shift⟩

instance : HSub Instant Span Instant := ⟨fun t d => t.shift (-d)⟩

def secondOfDay (t : Instant) : Int := t.second % 86400

/-- The span from another instant to this one. A leap second that one of them lies in is counted
unless that one has the earlier time of day. -/
def since (t u : Instant) : Span :=
  t.nanos - u.nanos + (if t.secondOfDay < u.secondOfDay then 0 else t.delay) -
    (if u.secondOfDay < t.secondOfDay then 0 else u.delay)

instance : HSub Instant Instant Span := ⟨since⟩

@[simp] theorem ofNanos_add (n : Int) (d : Span) : ofNanos n + d = ofNanos (n + d) := rfl

@[simp] theorem ofNanos_sub (n : Int) (d : Span) : ofNanos n - d = ofNanos (n - d) := rfl

@[simp] theorem ofNanos_since (n m : Int) : ofNanos n - ofNanos m = n - m := by
  show since _ _ = _
  simp [since, delay, ofNanos]

end Instant

/-! ### Windows -/

/-- The longest window there is, in seconds: a hundred years of 365 days. -/
def longestWindow : Nat := 100 * 365 * 24 * 3600

def windowLength (seconds : Nat) : Span :=
  Span.ofSeconds (if seconds < longestWindow then seconds else longestWindow)

theorem windowLength_nonneg (seconds : Nat) : 0 ≤ windowLength seconds := by
  unfold windowLength Span.ofSeconds
  split <;> lia

theorem windowLength_pos {seconds : Nat} (h : 0 < seconds) : 0 < windowLength seconds := by
  unfold windowLength Span.ofSeconds longestWindow
  split <;> lia

end AlertAdmission
