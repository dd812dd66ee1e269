import AlertAdmission.Zone

/-!
The instants that wall times resolve to.

What a wall time resolves to lies outside of leap seconds and shows that wall time, or one that is
later by no more than the longest gap.
-/

namespace AlertAdmission.Zone

/-- How far the clocks of a zone are put back from one instant to another. -/
def setBack (z : Zone) (t u : Instant) : Int := z.offsetAt t - z.offsetAt u

theorem earliestOf_mem {l : List Instant} {t : Instant} (h : earliestOf l = some t) : t ∈ l := by
  induction l with
  | nil => cases h
  | cons first rest ih =>
    unfold earliestOf at h
    split at h
    · cases h
      exact List.mem_cons_self
    · next u found =>
      split at h
      · cases h
        exact List.mem_cons_of_mem _ (ih found)
      · cases h
        exact List.mem_cons_self

theorem shows_of_mem {z : Zone} {wall : WallTime} {t : Instant} (h : t ∈ z.instantsShowing wall) :
    t.leap = false ∧ z.wallTime t = wall ∧ t.isDated := by
  unfold instantsShowing at h
  obtain ⟨offset, _, shown⟩ := List.mem_filterMap.mp h
  dsimp only at shown
  split at shown
  · next holds =>
    cases shown
    refine ⟨rfl, ?_, holds.2⟩
    show (wall - offset : Int) + z.offsetAt _ = wall
    rw [holds.1]
    exact Int.sub_add_cancel wall offset
  · cases shown

theorem resolve_shows {z : Zone} {wall : WallTime} {t : Instant} (h : z.resolve? wall = some t) :
    t.leap = false ∧ ∃ m ≤ longestGap, z.wallTime t = wall + Span.ofMinutes m := by
  obtain ⟨m, inSearch, found⟩ := List.exists_of_findSome?_eq_some h
  have short : m ≤ longestGap := Nat.le_of_lt_succ (List.mem_range.mp inSearch)
  dsimp only at found
  split at found
  · obtain ⟨ordinary, shows, _⟩ := shows_of_mem (earliestOf_mem found)
    exact ⟨ordinary, m, short, shows⟩
  · cases found

/-- Wall times only move forward. -/
theorem le_wallTime_of_resolve {z : Zone} {wall : WallTime} {t : Instant}
    (h : z.resolve? wall = some t) : (wall : Int) ≤ z.wallTime t := by
  obtain ⟨_, m, _, shows⟩ := resolve_shows h
  rw [shows]
  exact Int.le_add_of_nonneg_right (Span.ofMinutes_nonneg m)

end AlertAdmission.Zone
