import AlertAdmission.Proofs.Zone.Calm
import Mathlib.Data.Int.LeastGreatest

/-!
Wall times in zones whose clocks are moved seldom.

Where the clocks are moved by no more than 24 hours, and not twice in 48 hours, they show before a
change nothing later than just before it, and after it nothing earlier than right after it. So what
no instant shows is what the clocks went over at one change (`Zone.Spaced.exists_skips`), and the
search for the first minute after it that is shown ends at this change (`Zone.Spaced.resolves`).
-/

namespace AlertAdmission.Zone

open Instant (ofNanos ofSecond)

variable {z : Zone} {wall : WallTime} {m n : Int} {t u : Instant}

/-- The clocks of a zone are moved at the start of a second and so that they then show the start of
a minute, by no more than 24 hours, and more than 48 hours apart. -/
structure Spaced (z : Zone) : Prop where
  atSecond : ∀ c ∈ z.changes, c.instant.leap = false ∧ c.instant.fraction = 0
  atMinute : ∀ c ∈ z.changes, z.wallTime c.instant % Span.ofMinutes 1 = 0
  withinDay : ∀ c ∈ z.changes, z.setBack (c.instant - (1 : Span)) c.instant ≤ Span.day ∧
    z.setBack c.instant (c.instant - (1 : Span)) ≤ Span.day
  apart : z.changes.Pairwise fun (c d : OffsetChange) => c.instant + Span.ofHours 48 < d.instant

/-- At an instant the clocks go forward over a wall time, which they did not show just before. -/
structure Skips (z : Zone) (wall : WallTime) (t : Instant) : Prop where
  change : ∃ c ∈ z.changes, c.instant = t
  ahead : z.wallTime (t - (1 : Span)) < wall
  passed : wall < z.wallTime t

/-- The earliest of all instants that show a wall time. -/
def FirstShows (z : Zone) (wall : WallTime) (t : Instant) : Prop :=
  z.wallTime t = wall ∧ ∀ u, z.wallTime u = wall → t ≤ u

/-- What a wall time resolves to: the first instant that shows it or, where none does, the end of
the gap that it is in, if there are no more than 180 minutes left of it. -/
def Resolves (z : Zone) (wall : WallTime) : Option Instant → Prop
  | some t => ∃ m ≤ longestGap, z.FirstShows (wall + Span.ofMinutes m) t ∧
      (∀ k < m, ∀ u, z.wallTime u ≠ wall + Span.ofMinutes k) ∧ (0 < m → z.Skips wall t)
  | none => ∀ m ≤ longestGap, ∀ u, z.wallTime u ≠ wall + Span.ofMinutes m

/-- The calendar has the 180 minutes after a wall time, and all instants that show one of them. -/
structure InCalendar (z : Zone) (wall : WallTime) : Prop where
  begins : hasDate wall
  ends : hasDate (wall + Span.ofMinutes longestGap)
  shown : ∀ m ≤ longestGap, ∀ t, z.wallTime t = wall + Span.ofMinutes m → t.isDated

/-! ### Clocks before and after a change -/

/-- What the clocks show at a count of nanoseconds, outside of leap seconds. -/
def clock (z : Zone) (n : Int) : Int := z.wallTime (ofNanos n)

def IsSetAt (z : Zone) (n : Int) : Prop := ∃ c ∈ z.changes, c.instant = ofNanos n

theorem clock_eq (z : Zone) (n : Int) : z.clock n = n + z.offsetAt (ofNanos n) := rfl

theorem Spaced.instant_eq (spaced : z.Spaced) {c : OffsetChange} (member : c ∈ z.changes) :
    c.instant = ofSecond c.instant.second := by
  obtain ⟨ordinary, whole⟩ := spaced.atSecond c member
  have parts := c.instant.nanos_eq
  rw [whole, Int.add_zero] at parts
  exact (Instant.ofNanos_nanos ordinary).symm.trans (congrArg ofNanos parts)

/-- A leap second shows what the second before it showed. -/
theorem Spaced.wallTime_eq (spaced : z.Spaced) (t : Instant) : z.wallTime t = z.clock t.nanos := by
  have offset : z.offsetAt t = z.offsetAt (ofNanos t.nanos) := by
    apply offsetAt_congr
    intro c member
    rw [spaced.instant_eq member, Instant.ofSecond_le_iff, Instant.ofSecond_le_iff]
    rfl
  simp only [clock, wallTime, offset]
  rfl

theorem Spaced.clock_of_unset (spaced : z.Spaced) (unset : ¬ z.IsSetAt n) :
    z.clock n = z.clock (n - 1) + 1 := by
  have offset : z.offsetAt (ofNanos n) = z.offsetAt (ofNanos (n - 1)) := by
    apply offsetAt_congr
    intro c member
    have ordinary := Instant.ofNanos_nanos (spaced.atSecond c member).1
    have other : c.instant.nanos ≠ n := by
      rintro rfl
      exact unset ⟨c, member, ordinary.symm⟩
    rw [← ordinary, Instant.ofNanos_le, Instant.ofNanos_le]
    omega
  simp only [clock_eq, offset]
  omega

theorem Spaced.clock_of_set (spaced : z.Spaced) (set : z.IsSetAt n) :
    z.clock (n - 1) + 1 ≤ z.clock n + Span.day ∧ z.clock n ≤ z.clock (n - 1) + 1 + Span.day := by
  obtain ⟨c, member, atChange⟩ := set
  have most := spaced.withinDay c member
  simp only [setBack, atChange, Instant.ofNanos_sub] at most
  simp only [clock_eq]
  omega

theorem Spaced.far (spaced : z.Spaced) (first : z.IsSetAt m) (second : z.IsSetAt n) (h : m < n) :
    m + 2 * Span.day < n := by
  obtain ⟨c, member, atFirst⟩ := first
  obtain ⟨d, member', atSecond⟩ := second
  obtain ⟨i, inRange, rfl⟩ := List.getElem_of_mem member
  obtain ⟨j, inRange', rfl⟩ := List.getElem_of_mem member'
  have apart := List.pairwise_iff_getElem.mp spaced.apart
  have days : Span.ofHours 48 = 2 * Span.day := rfl
  rcases Nat.lt_trichotomy i j with before | same | after
  · have far := apart i j inRange inRange' before
    rwa [atFirst, atSecond, Instant.ofNanos_add, Instant.ofNanos_lt, days] at far
  · subst same
    rw [atFirst, Instant.ofNanos, Instant.ofNanos, Instant.mk.injEq] at atSecond
    omega
  · have far := apart j i inRange' inRange after
    rw [atFirst, atSecond, Instant.ofNanos_add, Instant.ofNanos_lt, days] at far
    have : (0 : Int) < Span.day := by decide
    omega

/-- Clocks have gone on since the last change, and between changes more than they are put back. -/
theorem Spaced.exists_last_set (spaced : z.Spaced) (set : z.IsSetAt n) (k : Nat) :
    ∃ last, z.IsSetAt last ∧ n ≤ last ∧ last ≤ n + k ∧
      z.clock (n + k) - (n + k) = z.clock last - last ∧
      2 * ((z.clock n - n) - (z.clock last - last)) ≤ last - n := by
  induction k with
  | zero => exact ⟨n, set, by simp⟩
  | succ k ih =>
    obtain ⟨last, setLast, after, before, same, kept⟩ := ih
    have next : n + ((k + 1 : Nat) : Int) - 1 = n + k := by omega
    by_cases setNow : z.IsSetAt (n + (k + 1 : Nat))
    · have far := spaced.far setLast setNow (by omega)
      have most := (spaced.clock_of_set setNow).1
      rw [next] at most
      exact ⟨_, setNow, by omega, by omega, rfl, by omega⟩
    · have going := spaced.clock_of_unset setNow
      rw [next] at going
      exact ⟨last, setLast, after, by omega, by omega, kept⟩

theorem Spaced.clock_le (spaced : z.Spaced) (set : z.IsSetAt n) (h : n ≤ m) :
    z.clock n ≤ z.clock m := by
  obtain ⟨k, rfl⟩ := Int.le.dest h
  obtain ⟨last, _, after, before, same, kept⟩ := spaced.exists_last_set set k
  omega

theorem Spaced.exists_next_set (spaced : z.Spaced) (set : z.IsSetAt n) (k : Nat) :
    ∃ next, z.IsSetAt next ∧ n - 1 - k < next ∧ next ≤ n ∧
      z.clock (n - 1 - k) - (n - 1 - k) = z.clock (next - 1) - (next - 1) ∧
      2 * ((z.clock (next - 1) - (next - 1)) - (z.clock (n - 1) - (n - 1))) ≤ n - next := by
  induction k with
  | zero => exact ⟨n, set, by simp⟩
  | succ k ih =>
    obtain ⟨next, setNext, after, before, same, kept⟩ := ih
    have earlier : n - 1 - ((k + 1 : Nat) : Int) = n - 1 - k - 1 := by omega
    rw [earlier]
    by_cases setNow : z.IsSetAt (n - 1 - k)
    · have far := spaced.far setNow setNext after
      have most := (spaced.clock_of_set setNow).1
      exact ⟨_, setNow, by omega, by omega, rfl, by omega⟩
    · have going := spaced.clock_of_unset setNow
      exact ⟨next, setNext, by omega, before, by omega, kept⟩

theorem Spaced.clock_le_before (spaced : z.Spaced) (set : z.IsSetAt n) (h : m < n) :
    z.clock m ≤ z.clock (n - 1) := by
  obtain ⟨k, rfl⟩ : ∃ k : Nat, m = n - 1 - k := ⟨(n - 1 - m).toNat, by omega⟩
  obtain ⟨next, _, after, before, same, kept⟩ := spaced.exists_next_set set k
  omega

/-! ### Gaps -/

theorem Spaced.skips_iff (spaced : z.Spaced) : z.Skips wall t ↔
    ∃ n, t = ofNanos n ∧ z.IsSetAt n ∧ z.clock (n - 1) < wall ∧ wall < z.clock n := by
  constructor
  · rintro ⟨⟨c, member, rfl⟩, ahead, passed⟩
    have ordinary := Instant.ofNanos_nanos (spaced.atSecond c member).1
    rw [← ordinary] at ahead passed
    exact ⟨_, ordinary.symm, ⟨c, member, ordinary.symm⟩, ahead, passed⟩
  · rintro ⟨n, rfl, ⟨c, member, atChange⟩, ahead, passed⟩
    exact ⟨⟨c, member, atChange⟩, ahead, passed⟩

theorem ofNanos_le_of_le (h : n ≤ u.nanos) : ofNanos n ≤ u := by
  rw [Instant.ofNanos_le_iff]
  have after := Int.lt_ediv_add_one_mul_self u.nanos (show (0 : Int) < 1000000000 by decide)
  simp only [Instant.settled, Instant.second]
  split <;> omega

/-- Before a gap the clocks show what is before it, and from its end on what is after it. -/
theorem Spaced.before_or_after (spaced : z.Spaced) (skips : z.Skips wall t) (u : Instant) :
    z.wallTime u < wall ∨ (t ≤ u ∧ z.wallTime t ≤ z.wallTime u) := by
  obtain ⟨n, rfl, set, ahead, passed⟩ := spaced.skips_iff.mp skips
  rw [spaced.wallTime_eq u]
  rcases Int.lt_or_le u.nanos n with earlier | later
  · exact .inl (Int.lt_of_le_of_lt (spaced.clock_le_before set earlier) ahead)
  · exact .inr ⟨ofNanos_le_of_le later, spaced.clock_le set later⟩

theorem Spaced.not_shown (spaced : z.Spaced) (skips : z.Skips wall t) (u : Instant) :
    z.wallTime u ≠ wall := by
  have passed := skips.passed
  rcases spaced.before_or_after skips u with before | ⟨_, after⟩
  · exact Int.ne_of_lt before
  · exact Int.ne_of_gt (Int.lt_of_lt_of_le passed after)

theorem Spaced.firstShows_end (spaced : z.Spaced) (skips : z.Skips wall t) :
    z.FirstShows (z.wallTime t) t := by
  refine ⟨rfl, fun u shows => ?_⟩
  rcases spaced.before_or_after skips u with before | ⟨after, _⟩
  · exact absurd (shows ▸ before) (Int.lt_asymm skips.passed)
  · exact after

theorem exists_most (offsets : List Int) : ∃ most : Int, ∀ o ∈ offsets, -most ≤ o ∧ o ≤ most := by
  induction offsets with
  | nil => exact ⟨0, by simp⟩
  | cons first rest ih =>
    obtain ⟨most, bound⟩ := ih
    refine ⟨max most first.natAbs, fun o member => ?_⟩
    rcases List.mem_cons.mp member with rfl | member
    · omega
    · have within := bound o member
      omega

/-- A wall time that is never shown lies in a gap. -/
theorem Spaced.exists_skips (spaced : z.Spaced) (unshown : ∀ u, z.wallTime u ≠ wall) :
    ∃ t, z.Skips wall t := by
  obtain ⟨most, bound⟩ := exists_most z.offsets
  have near : ∀ n, n - most ≤ z.clock n ∧ z.clock n ≤ n + most := by
    intro n
    have within := bound _ (z.offsetAt_mem (ofNanos n))
    rw [clock_eq]
    omega
  -- the last time that the clocks have not gone past it
  obtain ⟨last, reached, latest⟩ := Int.exists_greatest_of_bdd
    (P := fun n => z.clock n ≤ wall)
    ⟨wall + most, fun n reached => by have := near n; omega⟩
    ⟨wall - most, by have := near (wall - most); omega⟩
  have ahead : z.clock last < wall := lt_of_le_of_ne reached (unshown _)
  have passed : wall < z.clock (last + 1) := by
    by_contra behind
    exact absurd (latest (last + 1) (Int.not_lt.mp behind)) (Int.not_le.mpr (Int.lt_succ last))
  have set : z.IsSetAt (last + 1) := by
    by_contra unset
    have going := spaced.clock_of_unset unset
    rw [Int.add_sub_cancel] at going
    lia
  exact ⟨_, spaced.skips_iff.mpr ⟨_, rfl, set, by rwa [Int.add_sub_cancel], passed⟩⟩

theorem Spaced.minutes_left (spaced : z.Spaced) (whole : wall % Span.ofMinutes 1 = 0)
    (skips : z.Skips wall t) : ∃ k : Nat, 0 < k ∧ z.wallTime t = wall + Span.ofMinutes k := by
  obtain ⟨⟨c, member, rfl⟩, _, passed⟩ := skips
  have atMinute := spaced.atMinute c member
  obtain ⟨k, left⟩ : ∃ k : Nat, z.wallTime c.instant = wall + k * 60000000000 := by
    refine ⟨((z.wallTime c.instant - wall) / 60000000000).toNat, ?_⟩
    unfold Span.ofMinutes Span.ofSeconds at *
    lia
  refine ⟨k, ?_, ?_⟩
  · rw [left] at passed
    lia
  · rw [left]
    unfold Span.ofMinutes Span.ofSeconds
    lia

theorem Skips.later (skips : z.Skips wall t) (nonneg : 0 ≤ m) (before : wall + m < z.wallTime t) :
    z.Skips (wall + m) t :=
  ⟨skips.change, Int.lt_of_lt_of_le skips.ahead (Int.le_add_of_nonneg_right nonneg), before⟩

/-! ### The first instant that shows a wall time -/

theorem earliestOf_eq_none_iff {l : List Instant} : earliestOf l = none ↔ l = [] := by
  cases l with
  | nil => simp [earliestOf]
  | cons first rest =>
    simp only [earliestOf, List.cons_ne_nil, iff_false]
    split
    · simp
    · split <;> simp

theorem earliestOf_le {l : List Instant} (h : earliestOf l = some t) (member : u ∈ l) : t ≤ u := by
  induction l generalizing t with
  | nil => cases h
  | cons first rest ih =>
    unfold earliestOf at h
    split at h
    · next none =>
      rw [earliestOf_eq_none_iff.mp none, List.mem_singleton] at member
      cases h
      exact member ▸ Instant.le_refl _
    · next next found =>
      rcases List.mem_cons.mp member with rfl | later
      · split at h
        · next before =>
          cases h
          exact Instant.le_of_lt before
        · cases h
          exact Instant.le_refl _
      · have below := ih found later
        split at h
        · cases h
          exact below
        · next reached =>
          cases h
          exact Instant.le_trans (Instant.not_lt.mp reached) below

/-- All that show a wall time, leap seconds apart, are found. -/
theorem Spaced.mem_instantsShowing (spaced : z.Spaced)
    (dated : ∀ u, z.wallTime u = wall → u.isDated) (shows : z.wallTime u = wall) :
    ofNanos u.nanos ∈ z.instantsShowing wall :=
  have same := (spaced.wallTime_eq u).symm.trans shows
  Zone.mem_instantsShowing rfl same (dated _ same)

theorem Spaced.firstShows_of_some (spaced : z.Spaced)
    (dated : ∀ u, z.wallTime u = wall → u.isDated) (h : z.firstShowing? wall = some t) :
    z.FirstShows wall t := by
  refine ⟨(shows_of_mem (earliestOf_mem h)).2.1, fun u shows => ?_⟩
  have first := earliestOf_le h (spaced.mem_instantsShowing dated shows)
  exact Instant.le_trans first (ofNanos_le_of_le (Int.le_refl _))

theorem Spaced.ne_of_none (spaced : z.Spaced) (dated : ∀ u, z.wallTime u = wall → u.isDated)
    (h : z.firstShowing? wall = none) (u : Instant) : z.wallTime u ≠ wall := by
  intro shows
  have member := spaced.mem_instantsShowing dated shows
  rw [earliestOf_eq_none_iff.mp h] at member
  cases member

theorem FirstShows.unique (h : z.FirstShows wall t) (h' : z.FirstShows wall u) : t = u :=
  Instant.eq_of_rank_eq (Int.le_antisymm (h.2 u h'.1) (h'.2 t h.1))

/-! ### The search -/

theorem findSome?_range_eq_some {α : Type} {f : Nat → Option α} {size : Nat} {a : α}
    (h : (List.range size).findSome? f = some a) :
    ∃ m < size, f m = some a ∧ ∀ k < m, f k = none := by
  induction size with
  | zero => cases h
  | succ size ih =>
    rw [List.range_succ, List.findSome?_append] at h
    cases found : (List.range size).findSome? f with
    | some b =>
      rw [found, Option.some_or] at h
      obtain ⟨m, before, answer, first⟩ := ih (found.trans h)
      exact ⟨m, Nat.lt_succ_of_lt before, answer, first⟩
    | none =>
      rw [found, Option.none_or] at h
      refine ⟨size, Nat.lt_succ_self size, by simpa using h, fun k before => ?_⟩
      exact List.findSome?_eq_none_iff.mp found k (List.mem_range.mpr before)

theorem InCalendar.hasDate (inside : z.InCalendar wall) {m : Nat} (h : m ≤ longestGap) :
    hasDate (wall + Span.ofMinutes m) := by
  apply hasDate_of_between inside.begins inside.ends
  · simp
  · simpa using h

/-- A wall time in a gap is moved to the end of the gap. -/
theorem Spaced.skips_of_first_later (spaced : z.Spaced) (whole : wall % Span.ofMinutes 1 = 0)
    {m : Nat} (pos : 0 < m) (shows : z.FirstShows (wall + Span.ofMinutes m) t)
    (unshown : ∀ k < m, ∀ u, z.wallTime u ≠ wall + Span.ofMinutes k) : z.Skips wall t := by
  have atOnce : wall + Span.ofMinutes (0 : Nat) = wall := Int.add_zero wall
  obtain ⟨u, skips⟩ := spaced.exists_skips fun u => atOnce ▸ unshown 0 pos u
  obtain ⟨k, _, left⟩ := spaced.minutes_left whole skips
  rcases Nat.lt_trichotomy m k with before | rfl | after
  · have later := skips.later (Span.ofMinutes_nonneg m) (by simpa [left] using before)
    exact absurd shows.1 (spaced.not_shown later t)
  · rwa [shows.unique (left ▸ spaced.firstShows_end skips)]
  · exact absurd left (unshown k after u)

theorem Spaced.resolves (spaced : z.Spaced) (whole : wall % Span.ofMinutes 1 = 0)
    (inside : z.InCalendar wall) : z.Resolves wall (z.resolve? wall) := by
  have search : ∀ m ≤ longestGap, (if hasDate (wall + Span.ofMinutes m)
      then z.firstShowing? (wall + Span.ofMinutes m) else none) =
        z.firstShowing? (wall + Span.ofMinutes m) := fun m short => if_pos (inside.hasDate short)
  cases found : z.resolve? wall with
  | none =>
    intro m short
    have none := List.findSome?_eq_none_iff.mp found m (List.mem_range.mpr (Nat.lt_succ_of_le short))
    exact spaced.ne_of_none (inside.shown m short) ((search m short).symm.trans none)
  | some t =>
    obtain ⟨m, inRange, answer, first⟩ := findSome?_range_eq_some found
    have short := Nat.le_of_lt_succ inRange
    have shows := spaced.firstShows_of_some (inside.shown m short)
      ((search m short).symm.trans answer)
    have unshown : ∀ k < m, ∀ u, z.wallTime u ≠ wall + Span.ofMinutes k := by
      intro k before
      have shorter := Nat.le_trans (Nat.le_of_lt before) short
      exact spaced.ne_of_none (inside.shown k shorter)
        ((search k shorter).symm.trans (first k before))
    exact ⟨m, short, shows, unshown, fun pos =>
      spaced.skips_of_first_later whole pos shows unshown⟩

/-- None of the minutes of a search is shown where the search begins in a gap that lasts longer. -/
theorem Spaced.unshown_iff (spaced : z.Spaced) (whole : wall % Span.ofMinutes 1 = 0) :
    (∀ m ≤ longestGap, ∀ u, z.wallTime u ≠ wall + Span.ofMinutes m) ↔
      ∃ t, z.Skips wall t ∧ wall + Span.ofMinutes longestGap < z.wallTime t := by
  constructor
  · intro unshown
    have atOnce : wall + Span.ofMinutes (0 : Nat) = wall := Int.add_zero wall
    obtain ⟨t, skips⟩ := spaced.exists_skips fun u => atOnce ▸ unshown 0 (Nat.zero_le _) u
    obtain ⟨k, _, left⟩ := spaced.minutes_left whole skips
    have long : longestGap < k := Nat.lt_of_not_le fun short => unshown k short t left
    exact ⟨t, skips, by simpa [left] using long⟩
  · rintro ⟨t, skips, long⟩ m short
    have within : wall + Span.ofMinutes m ≤ wall + Span.ofMinutes longestGap := by simpa using short
    exact spaced.not_shown
      (skips.later (Span.ofMinutes_nonneg m) (Int.lt_of_le_of_lt within long))

end AlertAdmission.Zone
